import IotDeviceSdk.Foundation.CString
import IotDeviceSdk.Foundation.XorWords
import Mathlib.Data.List.GetD

/-!
# Hash values

`getHashValue` combines the characters of a string by XOR in four bytes, one after another, and
makes a number of the bytes.  The number is the XOR of the words of the string, with the lowest
byte of each word first, see `getHashValue_xorWords`.
-/

namespace StringHelper

open CString XorWords

/-- A `char` as an `int`; whether `char` is signed depends on the platform. -/
def charToInt (signedChar : Bool) (c : UInt8) : Int32 :=
  if signedChar then c.toInt8.toInt32 else c.toUInt32.toInt32

/-- `b ^= c`, for a `uint8` and a `char`, both of which are converted to `int`. -/
def xorChar (signedChar : Bool) (b c : UInt8) : UInt8 :=
  (b.toUInt32.toInt32 ^^^ charToInt signedChar c).toInt8.toUInt8

/-- `abChecksum` after the first rounds of the loop over a string. -/
def checksum (signedChar : Bool) (psz : List UInt8) (rounds : ℕ) : List UInt8 :=
  (List.range rounds).foldl
    (fun abChecksum i => abChecksum.modify (i % 4) (xorChar signedChar · (psz.getD i 0)))
    (List.replicate 4 0)

/-- `StringHelper::GetHashValue`; the loop runs up to the length of the string as an `int`. -/
def getHashValue (signedChar : Bool) (psz : Option (List UInt8)) : UInt32 :=
  match psz with
  | none => 0
  | some psz =>
    if (cstr psz).length = 0 then 0
    else
      let abChecksum := checksum signedChar psz (Int32.ofNat (cstr psz).length).toInt.toNat
      ((abChecksum.getD 3 0).toUInt32 <<< 24) ||| ((abChecksum.getD 2 0).toUInt32 <<< 16)
        ||| ((abChecksum.getD 1 0).toUInt32 <<< 8) ||| (abChecksum.getD 0 0).toUInt32

example : getHashValue true (some [1, 0x80, 3, 4, 0xFF]) = 0x040380FE := by decide

/-! ### The bytes -/

/-- The conversions do not matter to the byte that is stored. -/
theorem xorChar_eq (signedChar : Bool) (b c : UInt8) :
  xorChar signedChar b c = b ^^^ c
  := by
  rw [xorChar, charToInt]
  apply UInt8.toBitVec_inj.mp
  cases signedChar with
  | false => simp [BitVec.signExtend_eq_setWidth_of_le]
  | true => simp [BitVec.signExtend_eq_setWidth_of_le]

theorem lt_of_mem_map_toNat (bytes : List UInt8) :
  ∀ d ∈ bytes.map UInt8.toNat, d < 2 ^ 8
  := by
  intro d hd
  obtain ⟨b, -, rfl⟩ := List.mem_map.mp hd
  apply b.toNat_lt

theorem map_toNat_modify_xor (bytes : List UInt8) (i : ℕ) (c : UInt8) :
  (bytes.modify i (· ^^^ c)).map UInt8.toNat
    = (bytes.map UInt8.toNat).modify i (· ^^^ c.toNat)
  := by
  induction bytes generalizing i with
  | nil => simp
  | cons b bytes ih =>
    cases i with
    | zero => simp
    | succ i => simp [ih]

theorem toNat_shiftLeft (b : UInt8) {n : UInt32} (hn : n.toNat ≤ 24) :
  (b.toUInt32 <<< n).toNat = 2 ^ n.toNat * b.toNat
  := by
  have hpow : 2 ^ n.toNat ≤ 2 ^ 24 := Nat.pow_le_pow_right (by decide) hn
  have hlt : 2 ^ n.toNat * b.toNat < 2 ^ 24 * 2 ^ 8 :=
    Nat.mul_lt_mul_of_le_of_lt hpow b.toNat_lt (by decide)
  have hmod : n.toNat % 32 = n.toNat := Nat.mod_eq_of_lt (Nat.lt_of_le_of_lt hn (by decide))
  rw [UInt32.toNat_shiftLeft, UInt8.toNat_toUInt32, hmod, Nat.shiftLeft_eq, Nat.mul_comm]
  apply Nat.mod_eq_of_lt hlt

/-- The number that is made of four bytes. -/
theorem toNat_or_shiftLeft (b₀ b₁ b₂ b₃ : UInt8) :
  ((b₃.toUInt32 <<< 24) ||| (b₂.toUInt32 <<< 16) ||| (b₁.toUInt32 <<< 8) ||| b₀.toUInt32).toNat
    = Nat.ofDigits (2 ^ 8) ([b₀, b₁, b₂, b₃].map UInt8.toNat)
  := by
  have hor : ∀ {i x : ℕ}, x < 2 ^ i → ∀ m, 2 ^ i * m ||| x = 2 ^ i * m + x := by
    intro i x hx m
    apply (Nat.two_pow_add_eq_or_of_lt hx m).symm
  have h₀ := b₀.toNat_lt
  have h₁ := b₁.toNat_lt
  have h₂ := b₂.toNat_lt
  have hsecond : 2 ^ 24 * b₃.toNat ||| 2 ^ 16 * b₂.toNat
      = 2 ^ 16 * (2 ^ 8 * b₃.toNat + b₂.toNat) := by
    rw [hor (by omega)]
    omega
  have hthird : 2 ^ 16 * (2 ^ 8 * b₃.toNat + b₂.toNat) ||| 2 ^ 8 * b₁.toNat
      = 2 ^ 8 * (2 ^ 8 * (2 ^ 8 * b₃.toNat + b₂.toNat) + b₁.toNat) := by
    rw [hor (by omega)]
    omega
  rw [UInt32.toNat_or, UInt32.toNat_or, UInt32.toNat_or, toNat_shiftLeft b₃ (by decide),
    toNat_shiftLeft b₂ (by decide), toNat_shiftLeft b₁ (by decide), UInt8.toNat_toUInt32]
  simp only [UInt32.reduceToNat]
  rw [hsecond, hthird, hor h₀]
  simp only [List.map_cons, List.map_nil, Nat.ofDigits_cons, Nat.ofDigits_nil]
  omega

/-! ### The loop -/

theorem checksum_succ (signedChar : Bool) (psz : List UInt8) (n : ℕ) :
  checksum signedChar psz (n + 1)
    = (checksum signedChar psz n).modify (n % 4) (· ^^^ psz.getD n 0)
  := by
  rw [checksum, List.range_succ, List.foldl_concat]
  simp only [xorChar_eq]
  rw [checksum]
  simp only [xorChar_eq]

/-- Every round combines a character with what stands at its place. -/
theorem ofDigits_checksum (signedChar : Bool) {psz : List UInt8} {n : ℕ} (hn : n ≤ psz.length) :
  (checksum signedChar psz n).length = 4
    ∧ Nat.ofDigits (2 ^ 8) ((checksum signedChar psz n).map UInt8.toNat)
      = xorPlaces 4 (2 ^ 8) 0 ((psz.take n).map UInt8.toNat)
  := by
  induction n with
  | zero => exact ⟨rfl, rfl⟩
  | succ n ih =>
    obtain ⟨hlen, hdigits⟩ := ih (Nat.le_of_succ_le hn)
    have hmod : n % 4 < ((checksum signedChar psz n).map UInt8.toNat).length := by
      rw [List.length_map, hlen]
      apply Nat.mod_lt n (by decide)
    rw [checksum_succ, List.length_modify]
    use hlen
    rw [map_toNat_modify_xor,
      ofDigits_modify_xor (by decide) (lt_of_mem_map_toNat _) (UInt8.toNat_lt _) hmod, hdigits,
      List.take_succ_eq_append_getElem hn, List.map_append, xorPlaces_append, List.length_map,
      List.length_take_of_le (Nat.le_of_succ_le hn), Nat.zero_add, List.map_singleton, xorPlaces,
      xorPlaces, Nat.xor_zero, List.getD_eq_getElem psz 0 hn]

/-- The bytes of a list of four. -/
theorem eq_of_length_eq_four {bytes : List UInt8} (h : bytes.length = 4) :
  bytes = [bytes.getD 0 0, bytes.getD 1 0, bytes.getD 2 0, bytes.getD 3 0]
  := by
  obtain ⟨b₀, b₁, b₂, b₃, rfl⟩ := List.length_eq_four.mp h
  rfl

/-- The hash value of a string is the XOR of its words. -/
theorem toNat_getHashValue
    (signedChar : Bool) {psz : List UInt8} (h : (cstr psz).length < 2147483648) :
  (getHashValue signedChar (some psz)).toNat
    = xorWords 4 (2 ^ 8) ((cstr psz).map UInt8.toNat)
  := by
  have hcstr : cstr psz <+: psz := List.takeWhile_prefix _
  have hint : (Int32.ofNat (cstr psz).length).toInt.toNat = (cstr psz).length := by
    rw [Int32.toInt_ofNat', Int.bmod_def, Int32.size]
    omega
  rw [getHashValue]
  by_cases hnil : (cstr psz).length = 0
  · rw [if_pos hnil, List.eq_nil_of_length_eq_zero hnil]
    rfl
  · obtain ⟨hlen, hdigits⟩ := ofDigits_checksum signedChar hcstr.length_le
    rw [if_neg hnil, hint, toNat_or_shiftLeft, ← eq_of_length_eq_four hlen, hdigits,
      xorWords_eq_xorPlaces (by decide) (lt_of_mem_map_toNat _), ← List.prefix_iff_eq_take.mp hcstr]

/-- The hash value of a string with its NUL byte. -/
theorem toNat_getHashValue_append_zero
    (signedChar : Bool) {s : List UInt8} (hs : 0 ∉ s) (hlen : s.length < 2147483648) :
  (getHashValue signedChar (some (s ++ [0]))).toNat = xorWords 4 (2 ^ 8) (s.map UInt8.toNat)
  := by
  have hcstr := cstr_concat_zero hs
  rw [toNat_getHashValue, hcstr]
  rw [hcstr]
  apply hlen

/-- A string whose length is a multiple of four can be hashed apart from what follows it. -/
theorem getHashValue_append
    (signedChar : Bool) {s t : List UInt8} (hnul : 0 ∉ s ++ t)
    (hlen : (s ++ t).length < 2147483648) (hs : 4 ∣ s.length) :
  getHashValue signedChar (some (s ++ t ++ [0]))
    = getHashValue signedChar (some (s ++ [0])) ^^^ getHashValue signedChar (some (t ++ [0]))
  := by
  have hlen' := hlen
  rw [List.length_append] at hlen'
  rw [List.mem_append, not_or] at hnul
  have hdvd : 4 ∣ (s.map UInt8.toNat).length := by
    rw [List.length_map]
    apply hs
  rw [← UInt32.toNat_inj, UInt32.toNat_xor, toNat_getHashValue_append_zero signedChar _ hlen,
    toNat_getHashValue_append_zero signedChar hnul.1 (by omega),
    toNat_getHashValue_append_zero signedChar hnul.2 (by omega), List.map_append,
    xorWords_append (by decide) hdvd]
  rw [List.mem_append, not_or]
  apply hnul

/-- The order of the groups of four characters of a string does not matter. -/
theorem getHashValue_of_perm
    (signedChar : Bool) {groups groups' : List (List UInt8)} (hperm : groups.Perm groups')
    (hgroups : ∀ group ∈ groups, group.length = 4) {t : List UInt8}
    (hnul : 0 ∉ groups.flatten ++ t) (hlen : (groups.flatten ++ t).length < 2147483648) :
  getHashValue signedChar (some (groups.flatten ++ t ++ [0]))
    = getHashValue signedChar (some (groups'.flatten ++ t ++ [0]))
  := by
  have hflat : (groups.flatten ++ t).Perm (groups'.flatten ++ t) := hperm.flatten.append_right t
  have hnul' : 0 ∉ groups'.flatten ++ t := hflat.mem_iff.not.mp hnul
  have hmap : ∀ group ∈ groups.map (List.map UInt8.toNat), group.length = 4 := by
    intro group hgroup
    obtain ⟨g, hg, rfl⟩ := List.mem_map.mp hgroup
    rw [List.length_map]
    apply hgroups g hg
  rw [← UInt32.toNat_inj, toNat_getHashValue_append_zero signedChar hnul hlen,
    toNat_getHashValue_append_zero signedChar hnul' (hflat.length_eq ▸ hlen), List.map_append,
    List.map_append, List.map_flatten, List.map_flatten]
  apply xorWords_of_perm (by decide) (hperm.map _) hmap

/-- The hash value of a string is the XOR of its words, padded with zeros, so a string of whole
words can be hashed on its own and its words can be put in another order. -/
theorem getHashValue_xorWords
    (signedChar : Bool) (psz : List UInt8) (h : (cstr psz).length < 2147483648) :
  (getHashValue signedChar (some psz)).toNat = xorWords 4 (2 ^ 8) ((cstr psz).map UInt8.toNat)
    ∧ getHashValue signedChar none = 0
    ∧ (cstr psz = [] → getHashValue signedChar (some psz) = 0)
    ∧ (∀ s t : List UInt8, 0 ∉ s ++ t → (s ++ t).length < 2147483648 → 4 ∣ s.length →
        getHashValue signedChar (some (s ++ t ++ [0]))
          = getHashValue signedChar (some (s ++ [0]))
            ^^^ getHashValue signedChar (some (t ++ [0])))
    ∧ ∀ (groups groups' : List (List UInt8)) (t : List UInt8), groups.Perm groups' →
        (∀ group ∈ groups, group.length = 4) → 0 ∉ groups.flatten ++ t →
        (groups.flatten ++ t).length < 2147483648 →
        getHashValue signedChar (some (groups.flatten ++ t ++ [0]))
          = getHashValue signedChar (some (groups'.flatten ++ t ++ [0]))
  := by
  use toNat_getHashValue signedChar h, rfl
  constructor
  · intro hnil
    rw [getHashValue, if_pos (by rw [hnil]; rfl)]
  · constructor
    · intro s t hnul hlen hs
      apply getHashValue_append signedChar hnul hlen hs
    · intro groups groups' t hperm hgroups hnul hlen
      apply getHashValue_of_perm signedChar hperm hgroups hnul hlen

/-- The hypothesis of `getHashValue_xorWords` is met by a string of five bytes, two of which have
the sign bit set. -/
theorem getHashValue_fiveBytes_xorWords :
  let psz : List UInt8 := [1, 0x80, 3, 4, 0xFF, 0]
  (getHashValue true (some psz)).toNat = xorWords 4 (2 ^ 8) ((cstr psz).map UInt8.toNat)
    ∧ getHashValue true none = 0
    ∧ (cstr psz = [] → getHashValue true (some psz) = 0)
    ∧ (∀ s t : List UInt8, 0 ∉ s ++ t → (s ++ t).length < 2147483648 → 4 ∣ s.length →
        getHashValue true (some (s ++ t ++ [0]))
          = getHashValue true (some (s ++ [0])) ^^^ getHashValue true (some (t ++ [0])))
    ∧ ∀ (groups groups' : List (List UInt8)) (t : List UInt8), groups.Perm groups' →
        (∀ group ∈ groups, group.length = 4) → 0 ∉ groups.flatten ++ t →
        (groups.flatten ++ t).length < 2147483648 →
        getHashValue true (some (groups.flatten ++ t ++ [0]))
          = getHashValue true (some (groups'.flatten ++ t ++ [0]))
  := by
  apply getHashValue_xorWords
  decide

end StringHelper
