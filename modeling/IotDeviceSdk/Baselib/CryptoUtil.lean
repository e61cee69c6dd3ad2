import IotDeviceSdk.Foundation.CString
import Mathlib.Tactic.SplitIfs

/-!
# The crypto utility

`HmacEncode` is given a key and an input as memory with a length each.  It ignores the
lengths and measures both by `strlen`, so it authenticates what it was given exactly when
`strlen` agrees with the lengths: `hmacEncode_authenticates_iff`.

The HMAC of the crypto library is a parameter `hmac`.
-/

namespace CryptoUtil

open CString

/-- The message digests that have a name. -/
inductive EvpMd where
  | sha512 | sha256 | sha1 | md5 | sha224 | sha384 | sha
  deriving DecidableEq

/-- The name of a digest. -/
def EvpMd.name : EvpMd → List UInt8
  | .sha512 => ascii "sha512"
  | .sha256 => ascii "sha256"
  | .sha1 => ascii "sha1"
  | .md5 => ascii "md5"
  | .sha224 => ascii "sha224"
  | .sha384 => ascii "sha384"
  | .sha => ascii "sha"

/-- The digest that `HmacEncode` chooses by the name `algo`. -/
def engine (algo : List UInt8) : Option EvpMd :=
  if strcasecmp (ascii "sha512") algo = 0 then some .sha512
  else if strcasecmp (ascii "sha256") algo = 0 then some .sha256
  else if strcasecmp (ascii "sha1") algo = 0 then some .sha1
  else if strcasecmp (ascii "md5") algo = 0 then some .md5
  else if strcasecmp (ascii "sha224") algo = 0 then some .sha224
  else if strcasecmp (ascii "sha384") algo = 0 then some .sha384
  else if strcasecmp (ascii "sha") algo = 0 then some .sha
  else none

/-- What a call of `HmacEncode` leaves: the value returned, the buffer `output` points to
(`none` for the null pointer), and the length. -/
structure Result where
  ret : Int32
  output : Option (List UInt8)
  outputLength : UInt32

/-- `CryptoUtil::HmacEncode`.  The memory `key` and `input` is measured by `strlen`, and
the length of the key is converted to the `int` that `HMAC_Init_ex` takes; there is no
result when `strlen` runs off the memory or that `int` is negative. -/
def hmacEncode (hmac : EvpMd → List UInt8 → List UInt8 → List UInt8) (algo : List UInt8)
    (key : List UInt8) (_keyLength : UInt32) (input : List UInt8) (_inputLength : UInt32)
    (output : Option (List UInt8)) (outputLength : UInt32) : Option Result :=
  match engine algo with
  | none => some ⟨-1, output, outputLength⟩
  | some md => do
    let keyLen := Int32.ofNat (← strlen key)
    let inputLen ← strlen input
    if 0 ≤ keyLen then
      let mac := hmac md (key.take keyLen.toInt.toNat) (input.take inputLen)
      some ⟨0, some mac, UInt32.ofNat mac.length⟩
    else
      none

/-- A result of `HmacEncode` authenticates the first `keyLength` and `inputLength` bytes of
the memory `key` and `input`. -/
structure Authenticates (hmac : EvpMd → List UInt8 → List UInt8 → List UInt8)
    (algo key : List UInt8) (keyLength : UInt32) (input : List UInt8) (inputLength : UInt32)
    (output : Option (List UInt8)) (outputLength : UInt32) (result : Option Result) :
    Prop where
  /-- for the name of a digest, whatever its letter case, the result is the HMAC -/
  named : ∀ md : EvpMd, fold (cstr algo) = md.name →
    ∃ mac, mac = hmac md (key.take keyLength.toNat) (input.take inputLength.toNat)
      ∧ result = some ⟨0, some mac, UInt32.ofNat mac.length⟩
  /-- for any other name the outputs are left alone -/
  unnamed : (∀ md : EvpMd, fold (cstr algo) ≠ md.name) →
    result = some ⟨-1, output, outputLength⟩

/-! ### The choice of the digest -/

theorem EvpMd.name_injective :
  Function.Injective EvpMd.name
  := by
  intro md md' h
  cases md <;> cases md' <;> first | rfl | exact absurd h (by decide)

theorem strcasecmp_name_eq_zero_iff (md : EvpMd) (algo : List UInt8) :
  strcasecmp md.name algo = 0 ↔ fold (cstr algo) = md.name
  := by
  have hname : fold (cstr md.name) = md.name := by
    cases md with
    | sha512 | sha256 | sha1 | md5 | sha224 | sha384 | sha => decide
  rw [strcasecmp_eq_zero_iff, hname, eq_comm]

theorem strcasecmp_of_engine {algo : List UInt8} {md : EvpMd} (h : engine algo = some md) :
  strcasecmp md.name algo = 0
  := by
  unfold engine at h
  split_ifs at h with h512 h256 h1 h5 h224 h384 h0
  all_goals obtain rfl := Option.some.inj h
  · apply h512
  · apply h256
  · apply h1
  · apply h5
  · apply h224
  · apply h384
  · apply h0

theorem strcasecmp_of_engine_none {algo : List UInt8} (h : engine algo = none) (md : EvpMd) :
  strcasecmp md.name algo ≠ 0
  := by
  unfold engine at h
  split_ifs at h with h512 h256 h1 h5 h224 h384 h0
  cases md with
  | sha512 => apply h512
  | sha256 => apply h256
  | sha1 => apply h1
  | md5 => apply h5
  | sha224 => apply h224
  | sha384 => apply h384
  | sha => apply h0

/-- A digest is chosen by its name, whatever the letter case. -/
theorem engine_eq_some_iff (algo : List UInt8) (md : EvpMd) :
  engine algo = some md ↔ fold (cstr algo) = md.name
  := by
  rw [← strcasecmp_name_eq_zero_iff]
  constructor
  · apply strcasecmp_of_engine
  · intro h
    cases hengine : engine algo with
    | none => apply absurd h (strcasecmp_of_engine_none hengine md)
    | some md' =>
      have h' := strcasecmp_of_engine hengine
      rw [strcasecmp_name_eq_zero_iff] at h h'
      rw [EvpMd.name_injective (h'.symm.trans h)]

theorem engine_eq_none_iff (algo : List UInt8) :
  engine algo = none ↔ ∀ md : EvpMd, fold (cstr algo) ≠ md.name
  := by
  simp only [Option.eq_none_iff_forall_ne_some, ne_eq, engine_eq_some_iff]

/-! ### The lengths -/

/-- `strlen` agrees with the lengths that were passed: for the key as an `int`, which is
what `HMAC_Init_ex` takes. -/
def Measured (key : List UInt8) (keyLength : UInt32) (input : List UInt8)
    (inputLength : UInt32) : Prop :=
  (∃ n, strlen key = some n ∧ (Int32.ofNat n).toInt = keyLength.toNat)
    ∧ strlen input = some inputLength.toNat

/-- The conversion to `int` does not increase a length. -/
theorem toNat_toInt_ofNat_le (n : ℕ) :
  (Int32.ofNat n).toInt.toNat ≤ n
  := by
  rw [Int32.toInt_ofNat', Int.bmod_def, Int32.size]
  split
  · omega
  · omega

/-- Two prefixes of one list that lie within it have the same length when they agree. -/
theorem eq_of_take_eq_take
    {s : List UInt8} {m n : ℕ} (hm : m ≤ s.length) (hn : n ≤ s.length)
    (h : s.take m = s.take n) :
  m = n
  := by
  have hlen := congrArg List.length h
  rw [List.length_take_of_le hm, List.length_take_of_le hn] at hlen
  apply hlen

/-! ### What is authenticated -/

section

variable (hmac : EvpMd → List UInt8 → List UInt8 → List UInt8) {algo : List UInt8} {md : EvpMd}
  {key : List UInt8} (keyLength : UInt32) {input : List UInt8} (inputLength : UInt32)
  (output : Option (List UInt8)) (outputLength : UInt32)

theorem hmacEncode_of_engine_none (h : engine algo = none) :
  hmacEncode hmac algo key keyLength input inputLength output outputLength
    = some ⟨-1, output, outputLength⟩
  := by
  rw [hmacEncode, h]

/-- What `HmacEncode` authenticates is what `strlen` measures. -/
theorem hmacEncode_of_engine (h : engine algo = some md) :
  hmacEncode hmac algo key keyLength input inputLength output outputLength
    = (strlen key).bind fun n => (strlen input).bind fun m =>
        if 0 ≤ Int32.ofNat n then
          let mac := hmac md (key.take (Int32.ofNat n).toInt.toNat) (input.take m)
          some ⟨0, some mac, UInt32.ofNat mac.length⟩
        else none
  := by
  rw [hmacEncode, h]
  rfl

/-- Whatever is authenticated was measured. -/
theorem exists_of_hmacEncode_eq_some
    (h : engine algo = some md) {r : Result}
    (hr : hmacEncode hmac algo key keyLength input inputLength output outputLength = some r) :
  ∃ n m, strlen key = some n ∧ strlen input = some m ∧ 0 ≤ Int32.ofNat n
    ∧ r.output = some (hmac md (key.take (Int32.ofNat n).toInt.toNat) (input.take m))
  := by
  rw [hmacEncode_of_engine hmac keyLength inputLength output outputLength h] at hr
  obtain ⟨n, hn, hr⟩ := Option.bind_eq_some_iff.mp hr
  obtain ⟨m, hm, hr⟩ := Option.bind_eq_some_iff.mp hr
  use n, m, hn, hm
  split at hr
  · next hnonneg =>
    use hnonneg
    obtain rfl := Option.some.inj hr
    rfl
  · contradiction

end

/-- What the result authenticates decides what `strlen` says: an HMAC that is the key shows
how much of the key was used, and one that is the input how much of the input was. -/
theorem measured_of_authenticates
    {algo key : List UInt8} {keyLength : UInt32} {input : List UInt8} {inputLength : UInt32}
    {output : Option (List UInt8)} {outputLength : UInt32}
    (hkey : keyLength.toNat ≤ key.length) (hinput : inputLength.toNat ≤ input.length)
    {md : EvpMd} (hengine : engine algo = some md)
    (h : ∀ hmac, Authenticates hmac algo key keyLength input inputLength output outputLength
      (hmacEncode hmac algo key keyLength input inputLength output outputLength)) :
  Measured key keyLength input inputLength
  := by
  have hname := (engine_eq_some_iff algo md).mp hengine
  obtain ⟨_, rfl, hkeyed⟩ := (h fun _ k _ => k).named md hname
  obtain ⟨_, rfl, hinputted⟩ := (h fun _ _ i => i).named md hname
  obtain ⟨n, m, hn, hm, hnonneg, hout⟩ := exists_of_hmacEncode_eq_some _ _ _ _ _ hengine hkeyed
  obtain ⟨n', m', hn', hm', -, hout'⟩ :=
    exists_of_hmacEncode_eq_some _ _ _ _ _ hengine hinputted
  obtain rfl := Option.some.inj (hm.symm.trans hm')
  constructor
  · use n, hn
    have hle := (toNat_toInt_ofNat_le n).trans (strlen_le_length hn)
    have htake := eq_of_take_eq_take hkey hle (Option.some.inj hout)
    rw [Int32.le_iff_toInt_le, Int32.toInt_zero] at hnonneg
    omega
  · have htake := eq_of_take_eq_take hinput (strlen_le_length hm) (Option.some.inj hout')
    rw [hm, htake]

/-- Where `strlen` agrees with the lengths, what was passed is authenticated. -/
theorem Measured.hmacEncode
    {key : List UInt8} {keyLength : UInt32} {input : List UInt8} {inputLength : UInt32}
    (h : Measured key keyLength input inputLength)
    (hmac : EvpMd → List UInt8 → List UInt8 → List UInt8)
    {algo : List UInt8} {md : EvpMd} (hengine : engine algo = some md)
    (output : Option (List UInt8)) (outputLength : UInt32) :
  hmacEncode hmac algo key keyLength input inputLength output outputLength
    = let mac := hmac md (key.take keyLength.toNat) (input.take inputLength.toNat)
      some ⟨0, some mac, UInt32.ofNat mac.length⟩
  := by
  obtain ⟨⟨n, hn, hkeyLen⟩, hm⟩ := h
  have hnonneg : 0 ≤ Int32.ofNat n := by
    rw [Int32.le_iff_toInt_le, Int32.toInt_zero, hkeyLen]
    apply Int.natCast_nonneg
  rw [hmacEncode_of_engine _ _ _ _ _ hengine, hn, hm, Option.bind_some, Option.bind_some,
    if_pos hnonneg, hkeyLen, Int.toNat_natCast]

/-- Whatever the HMAC function, the result authenticates what was passed, exactly when the
name is not that of a digest or `strlen` agrees with the lengths. -/
theorem hmacEncode_authenticates_iff
    (algo key : List UInt8) (keyLength : UInt32) (input : List UInt8) (inputLength : UInt32)
    (output : Option (List UInt8)) (outputLength : UInt32)
    (hkey : keyLength.toNat ≤ key.length) (hinput : inputLength.toNat ≤ input.length) :
  (∀ hmac, Authenticates hmac algo key keyLength input inputLength output outputLength
      (hmacEncode hmac algo key keyLength input inputLength output outputLength))
    ↔ (∀ md : EvpMd, fold (cstr algo) ≠ md.name) ∨ Measured key keyLength input inputLength
  := by
  rw [← engine_eq_none_iff]
  constructor
  · intro h
    cases hengine : engine algo with
    | none => left; rfl
    | some md =>
      right
      apply measured_of_authenticates hkey hinput hengine h
  · intro h hmac
    constructor
    · intro md hname
      have hengine := (engine_eq_some_iff algo md).mpr hname
      have hmeasured := h.resolve_left (by rw [hengine]; nofun)
      use hmac md (key.take keyLength.toNat) (input.take inputLength.toNat), rfl
      rw [hmeasured.hmacEncode hmac hengine]
    · intro hname
      apply hmacEncode_of_engine_none
      apply (engine_eq_none_iff algo).mpr hname

/-- The hypotheses of `hmacEncode_authenticates_iff` are met by a key and an input whose
lengths `strlen` finds. -/
theorem hmacEncode_authenticates_text :
  (∀ hmac, Authenticates hmac (ascii "SHA1") (ascii "key" ++ [0]) 3 (ascii "input" ++ [0]) 5
      none 0 (hmacEncode hmac (ascii "SHA1") (ascii "key" ++ [0]) 3 (ascii "input" ++ [0]) 5
        none 0))
    ↔ (∀ md : EvpMd, fold (cstr (ascii "SHA1")) ≠ md.name)
      ∨ Measured (ascii "key" ++ [0]) 3 (ascii "input" ++ [0]) 5
  := by
  apply hmacEncode_authenticates_iff
  · decide
  · decide

/-- Of an input with a NUL byte in it only the part before that byte is authenticated. -/
theorem not_authenticates_input_with_nul :
  ¬ ∀ hmac, Authenticates hmac (ascii "sha1") (ascii "key" ++ [0]) 3 [1, 0, 2, 0] 3 none 0
      (hmacEncode hmac (ascii "sha1") (ascii "key" ++ [0]) 3 [1, 0, 2, 0] 3 none 0)
  := by
  intro h
  obtain ⟨_, rfl, hresult⟩ := (h fun _ _ i => i).named .sha1 (by decide)
  have hengine : engine (ascii "sha1") = some .sha1 := by decide
  obtain ⟨n, m, -, hm, -, hout⟩ := exists_of_hmacEncode_eq_some _ _ _ _ _ hengine hresult
  obtain rfl := Option.some.inj (hm.symm.trans (show _ = some 1 by decide))
  apply absurd hout
  decide

end CryptoUtil
