import IotDeviceSdk.Baselib.StringHelper

/-!
# Hexadecimal texts

`toHexString` writes a byte as two digits, and `char2Hex` reads a digit.  Reading pairs of
digits undoes `toHexString`, and writing the bytes that were read gives the digits again, in
lower case.
-/

namespace StringHelper

open CString

/-- `Char2Hex`; a `char` past the ASCII characters is in none of the ranges, signed or not. -/
def char2Hex (c : UInt8) : UInt8 :=
  if 65 ≤ c ∧ c ≤ 70 then c - 65 + 10
  else if 97 ≤ c ∧ c ≤ 102 then c - 97 + 10
  else if 48 ≤ c ∧ c ≤ 57 then c - 48
  else 0

/-- The bytes of a text, two digits for each byte. -/
def hexBytes : List UInt8 → List UInt8
  | a :: b :: s => (16 * char2Hex a + char2Hex b) :: hexBytes s
  | _ => []

/-- A hexadecimal digit. -/
def IsHexDigit (c : UInt8) : Prop :=
  Decimal.IsDigit c ∨ (97 ≤ c ∧ c ≤ 102) ∨ (65 ≤ c ∧ c ≤ 70)

instance : DecidablePred IsHexDigit := fun _ => inferInstanceAs (Decidable (_ ∨ _))

/-- A hexadecimal digit in lower case. -/
def IsLowerHexDigit (c : UInt8) : Prop :=
  Decimal.IsDigit c ∨ (97 ≤ c ∧ c ≤ 102)

instance : DecidablePred IsLowerHexDigit := fun _ => inferInstanceAs (Decidable (_ ∨ _))

/-- The digits of a byte. -/
def hexPair (b : UInt8) : List UInt8 :=
  [hexChars.getD (b >>> 4).toNat 0, hexChars.getD (b &&& 0xf).toNat 0]

/-- A buffer that is passed with its length is written in full. -/
theorem toHexString_of_length {data : List UInt8} (h : data.length < 4294967296) :
  toHexString (some data) (UInt32.ofNat data.length) = data.flatMap hexPair
  := by
  rw [toHexString, UInt32.toNat_ofNat', Nat.mod_eq_of_lt h, List.take_length]
  rfl

/-! ### Digits -/

/-- The digit of a number below sixteen is in lower case, and reads as that number. -/
theorem char2Hex_hexChars {n : ℕ} (h : n < 16) :
  IsLowerHexDigit (hexChars.getD n 0) ∧ char2Hex (hexChars.getD n 0) = UInt8.ofNat n
  := by
  revert n
  decide

/-- What a digit reads as is below sixteen, and is written as the digit in lower case. -/
theorem hexChars_char2Hex {c : UInt8} (h : IsHexDigit c) :
  (char2Hex c).toNat < 16 ∧ hexChars.getD (char2Hex c).toNat 0 = tolower c
  := by
  have hall : ∀ n < 103, IsHexDigit (UInt8.ofNat n) →
      (char2Hex (UInt8.ofNat n)).toNat < 16
        ∧ hexChars.getD (char2Hex (UInt8.ofNat n)).toNat 0 = tolower (UInt8.ofNat n) := by
    decide
  have hlt : c.toNat < 103 := by
    simp only [IsHexDigit, Decimal.IsDigit, UInt8.le_iff_toNat_le, UInt8.reduceToNat] at h
    omega
  have hc := hall c.toNat hlt
  rw [UInt8.ofNat_toNat] at hc
  apply hc h

/-- A byte is put together from its halves. -/
theorem halves (b : UInt8) :
  (b >>> 4).toNat = b.toNat / 16 ∧ (b &&& 0xf).toNat = b.toNat % 16
  := by
  constructor
  · rw [UInt8.toNat_shiftRight]
    apply Nat.shiftRight_eq_div_pow
  · rw [UInt8.toNat_and]
    apply Nat.and_two_pow_sub_one_eq_mod _ 4

/-- The two digits of a byte are in lower case, and read as the byte. -/
theorem hexBytes_hexPair_append (b : UInt8) (s : List UInt8) :
  (∀ c ∈ hexPair b, IsLowerHexDigit c) ∧ hexBytes (hexPair b ++ s) = b :: hexBytes s
  := by
  obtain ⟨hhigh, hlow⟩ := halves b
  have hlt := b.toNat_lt
  obtain ⟨hlower, hread⟩ := char2Hex_hexChars (n := (b >>> 4).toNat) (by omega)
  obtain ⟨hlower', hread'⟩ := char2Hex_hexChars (n := (b &&& 0xf).toNat) (by omega)
  constructor
  · intro c hc
    obtain rfl | rfl : c = _ ∨ c = _ := by simpa [hexPair] using hc
    · apply hlower
    · apply hlower'
  · have hb : (16 : UInt8) * (b >>> 4) + (b &&& 0xf) = b := by
      rw [← UInt8.toNat_inj]
      simp only [UInt8.toNat_add, UInt8.toNat_mul, hhigh, hlow, UInt8.reduceToNat]
      omega
    rw [UInt8.ofNat_toNat] at hread hread'
    simp only [hexPair, List.cons_append, List.nil_append, hexBytes, hread, hread', hb]

/-- Two digits are those of the byte that they read as, up to letter case. -/
theorem hexPair_of_digits {a b : UInt8} (ha : IsHexDigit a) (hb : IsHexDigit b) :
  hexPair (16 * char2Hex a + char2Hex b) = [tolower a, tolower b]
  := by
  obtain ⟨hlta, hwritea⟩ := hexChars_char2Hex ha
  obtain ⟨hltb, hwriteb⟩ := hexChars_char2Hex hb
  obtain ⟨hhigh, hlow⟩ := halves (16 * char2Hex a + char2Hex b)
  have hbyte : (16 * char2Hex a + char2Hex b).toNat
      = 16 * (char2Hex a).toNat + (char2Hex b).toNat := by
    simp only [UInt8.toNat_add, UInt8.toNat_mul, UInt8.reduceToNat]
    omega
  have hdiv : (16 * char2Hex a + char2Hex b).toNat / 16 = (char2Hex a).toNat := by
    omega
  have hmod : (16 * char2Hex a + char2Hex b).toNat % 16 = (char2Hex b).toNat := by
    omega
  rw [hexPair, hhigh, hlow, hdiv, hmod, hwritea, hwriteb]

/-! ### Texts -/

/-- What is written for bytes, and that it reads as them. -/
theorem hexBytes_flatMap_hexPair (data : List UInt8) :
  (data.flatMap hexPair).length = 2 * data.length
    ∧ (∀ c ∈ data.flatMap hexPair, IsLowerHexDigit c)
    ∧ hexBytes (data.flatMap hexPair) = data
  := by
  induction data with
  | nil => simp [hexBytes]
  | cons b data ih =>
    obtain ⟨hlength, hlower, hread⟩ := ih
    obtain ⟨hpair, hcons⟩ := hexBytes_hexPair_append b (data.flatMap hexPair)
    rw [List.flatMap_cons]
    constructor
    · rw [List.length_append, hlength, List.length_cons]
      simp only [hexPair, List.length_cons, List.length_nil]
      omega
    · constructor
      · intro c hc
        rcases List.mem_append.mp hc with hc | hc
        · apply hpair c hc
        · apply hlower c hc
      · rw [hcons, hread]

/-- What is written for the bytes of a text is the text in lower case. -/
theorem flatMap_hexPair_hexBytes
    {s : List UInt8} (heven : s.length % 2 = 0) (hs : ∀ c ∈ s, IsHexDigit c) :
  (hexBytes s).length = s.length / 2 ∧ (hexBytes s).flatMap hexPair = fold s
  := by
  induction s using hexBytes.induct with
  | case1 a b s ih =>
    simp only [List.length_cons] at heven
    obtain ⟨hlength, hwrite⟩ := ih (by omega)
      (fun c hc => hs c (List.mem_cons_of_mem _ (List.mem_cons_of_mem _ hc)))
    have hpair := hexPair_of_digits (hs a (by simp)) (hs b (by simp))
    rw [hexBytes]
    constructor
    · simp only [List.length_cons, hlength]
      omega
    · rw [List.flatMap_cons, hpair, hwrite]
      rfl
  | case2 s hshort =>
    match s, heven, hshort with
    | [], _, _ => simp [hexBytes]
    | [_], heven, _ => simp at heven
    | a :: b :: s, _, hshort => exact absurd rfl (hshort a b s)

/-- A buffer is written with two digits in lower case for each byte, and reads as the buffer
again; digits read as bytes that are written as the digits in lower case; and buffers that are
written alike are the same. -/
theorem toHexString_correspondence
    (data data' s : List UInt8) (hdata : data.length < 4294967296)
    (hdata' : data'.length < 4294967296) (heven : s.length % 2 = 0)
    (hs : ∀ c ∈ s, IsHexDigit c) (hlength : s.length / 2 < 4294967296) :
  ((toHexString (some data) (UInt32.ofNat data.length)).length = 2 * data.length
      ∧ (∀ c ∈ toHexString (some data) (UInt32.ofNat data.length), IsLowerHexDigit c)
      ∧ hexBytes (toHexString (some data) (UInt32.ofNat data.length)) = data)
    ∧ toHexString (some (hexBytes s)) (UInt32.ofNat (hexBytes s).length) = fold s
    ∧ (toHexString (some data) (UInt32.ofNat data.length)
        = toHexString (some data') (UInt32.ofNat data'.length) → data = data')
  := by
  obtain ⟨hhalf, hwrite⟩ := flatMap_hexPair_hexBytes heven hs
  have hread := hexBytes_flatMap_hexPair data
  have hread' := hexBytes_flatMap_hexPair data'
  rw [toHexString_of_length hdata, toHexString_of_length hdata', toHexString_of_length (by omega)]
  use hread, hwrite
  intro heq
  rw [← hread.2.2, heq, hread'.2.2]

/-- The hypotheses of `toHexString_correspondence` are met by two digests and a text. -/
theorem toHexString_correspondence_abcdef :
  let data : List UInt8 := [0xab, 0xcd, 0xef]
  let data' : List UInt8 := [0xab, 0xcd, 0xee]
  let s := ascii "ABcdEF"
  ((toHexString (some data) (UInt32.ofNat data.length)).length = 2 * data.length
      ∧ (∀ c ∈ toHexString (some data) (UInt32.ofNat data.length), IsLowerHexDigit c)
      ∧ hexBytes (toHexString (some data) (UInt32.ofNat data.length)) = data)
    ∧ toHexString (some (hexBytes s)) (UInt32.ofNat (hexBytes s).length) = fold s
    ∧ (toHexString (some data) (UInt32.ofNat data.length)
        = toHexString (some data') (UInt32.ofNat data'.length) → data = data')
  := by
  intro data data' s
  have hall : s.all (fun c => decide (IsHexDigit c)) = true := by decide
  apply toHexString_correspondence
  · decide
  · decide
  · decide
  · intro c hc
    apply of_decide_eq_true (List.all_eq_true.mp hall c hc)
  · decide

end StringHelper
