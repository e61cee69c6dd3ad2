import IotDeviceSdk.Foundation.Words
import IotDeviceSdk.IotDevice.Mgr

/-!
# The signed content of a login

The content that a login signs is a concatenation without delimiters.  It determines the
timestamp, and it determines the product key and the device name but for the collisions
that `Collides` describes: `strContent_eq_strContent_iff`.

`HmacEncode` signs a content up to its first NUL byte (`signedAlike_iff`).  So for names without
such a byte, the same holds of what is signed: `signedAlike_strContent_iff`.
-/

namespace IotDevice.Mgr

open CString

/-- The identities `(p, d)` and `(p', d')` have the same signed content although the product
key `p'` is longer: `p'` is `p` followed by the start of `d`, and ends with `productKey` and
`p`, while `d` ends with `d'` and begins with `d'` and `productKey`. -/
def Collides (p d p' d' : List UInt8) : Prop :=
  ∃ u s, p' = p ++ ascii "." ++ u ∧ d = u ++ ascii "." ++ d'
    ∧ d = d' ++ ascii "productKey" ++ s ∧ p' = s ++ ascii "productKey" ++ p

theorem nodup_productKey :
  (ascii "productKey").Nodup
  := by decide

/-- A timestamp is what follows the last character that is not a digit. -/
theorem timeStamp_inj
    {x x' t t' : List UInt8} (ht : ∀ c ∈ t, Decimal.IsDigit c) (ht' : ∀ c ∈ t', Decimal.IsDigit c)
    (h : x ++ ascii "timestamp" ++ t = x' ++ ascii "timestamp" ++ t') :
  x = x' ∧ t = t'
  := by
  have hlast : ascii "timestamp" = ascii "timestam" ++ [112] := by decide
  simp only [hlast, List.append_assoc, List.singleton_append] at h
  rw [← List.append_assoc, ← List.append_assoc] at h
  obtain ⟨hx, -, ht⟩ := Words.append_cons_inj_of_forall h ht (by decide) ht' (by decide)
  exact ⟨List.append_cancel_right hx, ht⟩

/-- The part of the content that the identity determines. -/
def identified (p d : List UInt8) : List UInt8 :=
  p ++ ascii "." ++ d ++ ascii "deviceName" ++ (d ++ ascii "productKey" ++ p)

theorem strContent_eq (p d t : List UInt8) :
  strContent p d t = ascii "clientId" ++ identified p d ++ ascii "timestamp" ++ t
  := by
  simp only [strContent, identified, List.append_assoc]

/-- Two identities are identified alike exactly when both their parts around the label
`deviceName` are. -/
theorem identified_eq_iff {p d p' d' : List UInt8} :
  identified p d = identified p' d'
    ↔ p ++ ascii "." ++ d = p' ++ ascii "." ++ d'
      ∧ d ++ ascii "productKey" ++ p = d' ++ ascii "productKey" ++ p'
  := by
  constructor
  · intro h
    have hlen := congrArg List.length h
    simp only [identified, List.length_append] at hlen
    obtain ⟨hleft, hright⟩ := List.append_inj h (by simp only [List.length_append]; omega)
    exact ⟨List.append_cancel_right hleft, hright⟩
  · rintro ⟨hleft, hright⟩
    rw [identified, identified, hleft, hright]

/-- Identities with the same parts, the first of which has the shorter product key, are
equal or collide. -/
theorem eq_or_collides
    {p d p' d' : List UInt8} (hleft : p ++ ascii "." ++ d = p' ++ ascii "." ++ d')
    (hright : d ++ ascii "productKey" ++ p = d' ++ ascii "productKey" ++ p')
    (hp : p.length ≤ p'.length) :
  (p = p' ∧ d = d') ∨ Collides p d p' d'
  := by
  rw [List.append_assoc, List.append_assoc] at hleft hright
  obtain ⟨v, rfl, hv⟩ := Words.exists_of_append_eq_append hleft hp
  cases v with
  | nil =>
    left
    simpa using hv
  | cons c u =>
    right
    obtain ⟨rfl, rfl⟩ : 46 = c ∧ d = u ++ (ascii "." ++ d') := by
      simpa [ascii] using hv
    obtain ⟨w, hw, hright⟩ := Words.exists_of_append_eq_append hright.symm (by simp; omega)
    obtain ⟨x, hslide, hx⟩ := Words.exists_of_append_eq_append
      (hright.trans (List.append_assoc w _ p).symm) (by simp)
    rcases Words.slide_of_nodup nodup_productKey hslide with ⟨rfl, -⟩ | ⟨s, rfl, rfl⟩
    · have hlen := congrArg List.length hw
      simp only [List.length_append, List.length_nil] at hlen
      have hdot : (ascii ".").length = 1 := rfl
      omega
    · use u, s
      constructor
      · rw [List.append_assoc]
        rfl
      · constructor
        · rw [List.append_assoc]
        · constructor
          · rw [hw, List.append_assoc]
          · apply hx

/-- Identities that collide have the same parts. -/
theorem Collides.identified_eq {p d p' d' : List UInt8} (h : Collides p d p' d') :
  identified p d = identified p' d'
  := by
  obtain ⟨u, s, hpu, hdu, hds, hps⟩ := h
  rw [identified_eq_iff]
  constructor
  · rw [hpu, hdu]
    simp only [List.append_assoc]
  · rw [hds, hps]
    simp only [List.append_assoc]

/-- Two identities are identified alike exactly when they are equal or collide. -/
theorem identified_inj_iff (p d p' d' : List UInt8) :
  identified p d = identified p' d'
    ↔ (p = p' ∧ d = d') ∨ Collides p d p' d' ∨ Collides p' d' p d
  := by
  constructor
  · intro h
    obtain ⟨hleft, hright⟩ := identified_eq_iff.mp h
    rcases Nat.le_total p.length p'.length with hp | hp
    · apply (eq_or_collides hleft hright hp).imp_right Or.inl
    · rcases eq_or_collides hleft.symm hright.symm hp with ⟨rfl, rfl⟩ | hcollides
      · exact Or.inl ⟨rfl, rfl⟩
      · exact Or.inr (Or.inr hcollides)
  · rintro (⟨rfl, rfl⟩ | h | h)
    · rfl
    · apply h.identified_eq
    · symm
      apply h.identified_eq

/-- The signed contents of two logins are the same exactly when the timestamps are, and
the identities are equal or collide. -/
theorem strContent_eq_strContent_iff
    (p d t p' d' t' : List UInt8) (ht : ∀ c ∈ t, Decimal.IsDigit c)
    (ht' : ∀ c ∈ t', Decimal.IsDigit c) :
  strContent p d t = strContent p' d' t'
    ↔ t = t' ∧ ((p = p' ∧ d = d') ∨ Collides p d p' d' ∨ Collides p' d' p d)
  := by
  rw [← identified_inj_iff, strContent_eq, strContent_eq]
  constructor
  · intro h
    obtain ⟨hid, rfl⟩ := timeStamp_inj ht ht' h
    exact ⟨rfl, List.append_cancel_left hid⟩
  · rintro ⟨rfl, h⟩
    rw [h]

/-! ### What is signed -/

/-- The calls of `HmacEncode` that `initMqttInfo` makes for two contents have the same result,
whatever the HMAC function. -/
def SignedAlike (strDeviceSecret content content' : List UInt8) : Prop :=
  ∀ hmac : CryptoUtil.EvpMd → List UInt8 → List UInt8 → List UInt8,
    CryptoUtil.hmacEncode hmac (ascii "sha1")
        (strDeviceSecret ++ [0]) (UInt32.ofNat strDeviceSecret.length)
        (content ++ [0]) (UInt32.ofNat content.length) none 0
      = CryptoUtil.hmacEncode hmac (ascii "sha1")
        (strDeviceSecret ++ [0]) (UInt32.ofNat strDeviceSecret.length)
        (content' ++ [0]) (UInt32.ofNat content'.length) none 0

/-- What `HmacEncode` signs of a content: the part before the first NUL byte. -/
theorem hmacEncode_content
    (hmac : CryptoUtil.EvpMd → List UInt8 → List UInt8 → List UInt8) {secret : List UInt8}
    (hsecret : secret.length < 2 ^ 31) (content : List UInt8) :
  CryptoUtil.hmacEncode hmac (ascii "sha1") (secret ++ [0]) (UInt32.ofNat secret.length)
      (content ++ [0]) (UInt32.ofNat content.length) none 0
    = let mac := hmac .sha1 (cstr secret) (cstr content)
      some ⟨0, some mac, UInt32.ofNat mac.length⟩
  := by
  have hengine : CryptoUtil.engine (ascii "sha1") = some .sha1 := by decide
  have htake (t : List UInt8) : (t ++ [0]).take (cstr t).length = cstr t := by
    have hbegins : cstr t <+: t := List.takeWhile_prefix _
    rw [List.take_append_of_le_length hbegins.length_le]
    exact (List.prefix_iff_eq_take.mp hbegins).symm
  have hlen : (cstr secret).length < 2 ^ 31 :=
    (List.takeWhile_prefix _).length_le.trans_lt hsecret
  have hint : (Int32.ofNat (cstr secret).length).toInt = (cstr secret).length := by
    rw [Int32.toInt_ofNat', Int.bmod_def, Int32.size]
    omega
  have hnonneg : 0 ≤ Int32.ofNat (cstr secret).length := by
    rw [Int32.le_iff_toInt_le, Int32.toInt_zero, hint]
    apply Int.natCast_nonneg
  rw [CryptoUtil.hmacEncode_of_engine _ _ _ _ _ hengine, strlen_append_zero, strlen_append_zero,
    Option.bind_some, Option.bind_some, if_pos hnonneg, hint, Int.toNat_natCast, htake, htake]

/-- Two contents are signed alike exactly when they are the same up to their first NUL bytes. -/
theorem signedAlike_iff {secret : List UInt8} (hsecret : secret.length < 2 ^ 31)
    (content content' : List UInt8) :
  SignedAlike secret content content' ↔ cstr content = cstr content'
  := by
  constructor
  · intro h
    have hsame := h fun _ _ input => input
    rw [hmacEncode_content _ hsecret, hmacEncode_content _ hsecret] at hsame
    apply Option.some.inj (congrArg CryptoUtil.Result.output (Option.some.inj hsame))
  · intro h hmac
    rw [hmacEncode_content _ hsecret, hmacEncode_content _ hsecret, h]

/-- A content has no NUL byte if its parts have none. -/
theorem cstr_strContent {p d t : List UInt8} (hp : 0 ∉ p) (hd : 0 ∉ d)
    (ht : ∀ c ∈ t, Decimal.IsDigit c) :
  cstr (strContent p d t) = strContent p d t
  := by
  have hclient : 0 ∉ ascii "clientId" := by decide
  have hdot : 0 ∉ ascii "." := by decide
  have hname : 0 ∉ ascii "deviceName" := by decide
  have hkey : 0 ∉ ascii "productKey" := by decide
  have hstamp : 0 ∉ ascii "timestamp" := by decide
  have htime : 0 ∉ t := fun h => absurd (ht 0 h) (by decide)
  apply cstr_eq_self
  simp only [strContent, List.mem_append, hclient, hdot, hname, hkey, hstamp, htime, hp, hd,
    or_false, not_false_eq_true]

/-- The contents of two logins are the same exactly when the timestamps are, and the identities
are equal or collide; and if there is no NUL byte in the names, so it is for what is signed. -/
theorem signedAlike_strContent_iff
    (p d t p' d' t' secret : List UInt8) (ht : ∀ c ∈ t, Decimal.IsDigit c)
    (ht' : ∀ c ∈ t', Decimal.IsDigit c) (hsecret : secret.length < 2 ^ 31) :
  let same := t = t' ∧ ((p = p' ∧ d = d') ∨ Collides p d p' d' ∨ Collides p' d' p d)
  (strContent p d t = strContent p' d' t' ↔ same)
    ∧ (0 ∉ p ++ d ++ p' ++ d' →
        (SignedAlike secret (strContent p d t) (strContent p' d' t') ↔ same))
  := by
  intro same
  have hcontent := strContent_eq_strContent_iff p d t p' d' t' ht ht'
  refine ⟨hcontent, ?_⟩
  intro hzero
  simp only [List.mem_append, not_or] at hzero
  obtain ⟨⟨⟨hp, hd⟩, hp'⟩, hd'⟩ := hzero
  rw [signedAlike_iff hsecret, cstr_strContent hp hd ht, cstr_strContent hp' hd' ht']
  exact hcontent

/-- The hypotheses of `signedAlike_strContent_iff` are met by the texts of two times, which are
not signed alike. -/
theorem signedAlike_strContent_iff_of_time :
  let t := StringHelper.valueOfLong 1533516600
  let t' := StringHelper.valueOfLong 1533516601
  ¬ SignedAlike (ascii "secret") (strContent (ascii "pk") (ascii "dn") t)
    (strContent (ascii "pk") (ascii "dn") t')
  := by
  intro t t' halike
  have hdigit : ∀ c ∈ t, Decimal.IsDigit c := by
    intro c
    apply StringHelper.isDigit_of_mem_valueOf
    decide
  have hdigit' : ∀ c ∈ t', Decimal.IsDigit c := by
    intro c
    apply StringHelper.isDigit_of_mem_valueOf
    decide
  obtain ⟨-, hiff⟩ := signedAlike_strContent_iff (ascii "pk") (ascii "dn") t (ascii "pk")
    (ascii "dn") t' (ascii "secret") hdigit hdigit' (by decide)
  obtain ⟨hsame, -⟩ := (hiff (by decide)).mp halike
  revert hsame
  decide

/-- Two different identities with the same signed content at the same time. -/
theorem strContent_collision :
  strContent [] (ascii "productKey.") (ascii "1") = strContent (ascii ".productKey") [] (ascii "1")
    ∧ ([], ascii "productKey.") ≠ (ascii ".productKey", ([] : List UInt8))
  := by decide

end IotDevice.Mgr
