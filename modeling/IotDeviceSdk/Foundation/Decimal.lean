import IotDeviceSdk.Foundation.CString
import Mathlib.Data.Nat.Digits.Lemmas

/-!
# Decimal texts

`text n` is the decimal text of an integer as `operator<<` prints it in the classic
locale.  The text of a natural number consists of digits.  Among all texts that stand for an
integer it is the canonical one, see `canonical_iff`.
-/

namespace Decimal

open CString

/-- An ASCII digit. -/
def IsDigit (c : UInt8) : Prop :=
  48 ≤ c ∧ c ≤ 57

instance : DecidablePred IsDigit := fun _ => inferInstanceAs (Decidable (_ ∧ _))

/-- The decimal text of a natural number. -/
def natText (n : ℕ) : List UInt8 :=
  if n = 0 then ascii "0" else (Nat.digits 10 n).reverse.map fun d => 48 + UInt8.ofNat d

/-- The decimal text of an integer. -/
def text : ℤ → List UInt8
  | .ofNat n => natText n
  | .negSucc n => ascii "-" ++ natText (n + 1)

theorem isDigit_of_lt {d : ℕ} (h : d < 10) :
  IsDigit (48 + UInt8.ofNat d)
  := by
  rw [IsDigit]
  simp only [UInt8.le_iff_toNat_le, UInt8.toNat_add, UInt8.toNat_ofNat', UInt8.reduceToNat]
  omega

/-- The text of a natural number consists of digits. -/
theorem isDigit_of_mem_natText {n : ℕ} {c : UInt8} (h : c ∈ natText n) :
  IsDigit c
  := by
  unfold natText at h
  split at h
  · obtain rfl : c = 48 := List.mem_singleton.mp h
    decide
  · obtain ⟨d, hd, rfl⟩ := List.mem_map.mp h
    apply isDigit_of_lt
    apply Nat.digits_lt_base (b := 10) (m := n)
    · decide
    · apply List.mem_reverse.mp hd

theorem zero_notMem_text (n : ℤ) :
  0 ∉ text n
  := by
  have hzero : ∀ n, 0 ∉ natText n := by
    intro n hmem
    apply absurd (isDigit_of_mem_natText hmem)
    decide
  cases n with
  | ofNat n => apply hzero
  | negSucc n =>
    rw [text, List.mem_append, not_or]
    constructor
    · decide
    · apply hzero

example : text 42 = ascii "42" := by decide

example : text (-5) = ascii "-5" := by decide

/-! ### Canonical texts -/

/-- The value of a digit. -/
def digit (c : UInt8) : ℕ :=
  c.toNat - 48

/-- The string consists of digits that stand for `n`, the first of which is not zero unless it is
the only one. -/
structure IsNumeral (n : ℕ) (s : List UInt8) : Prop where
  isDigit : ∀ c ∈ s, IsDigit c
  ne_nil : s ≠ []
  head : s.head? = some 48 → s = [48]
  value : Nat.ofDigits 10 (s.map digit).reverse = n

/-- The text is that of an integer without a superfluous sign or zero. -/
def Canonical (n : ℤ) (s : List UInt8) : Prop :=
  if n < 0 then ∃ t, s = 45 :: t ∧ IsNumeral n.natAbs t else IsNumeral n.natAbs s

theorem digit_add {d : ℕ} (h : d < 10) :
  digit (48 + UInt8.ofNat d) = d
  := by
  rw [digit, UInt8.toNat_add, UInt8.toNat_ofNat', show (48 : UInt8).toNat = 48 from rfl]
  omega

theorem add_digit {c : UInt8} (h : IsDigit c) :
  48 + UInt8.ofNat (digit c) = c
  := by
  simp only [IsDigit, UInt8.le_iff_toNat_le, UInt8.reduceToNat] at h
  rw [← UInt8.toNat_inj, UInt8.toNat_add, UInt8.toNat_ofNat', show (48 : UInt8).toNat = 48 from rfl,
    digit]
  omega

theorem digit_lt {c : UInt8} (h : IsDigit c) :
  digit c < 10
  := by
  simp only [IsDigit, UInt8.le_iff_toNat_le, UInt8.reduceToNat] at h
  rw [digit]
  omega

/-- The digits of the text of a natural number that is not zero. -/
theorem map_digit_natText {n : ℕ} (hn : n ≠ 0) :
  (natText n).map digit = (Nat.digits 10 n).reverse
  := by
  have hdigit : ∀ d ∈ (Nat.digits 10 n).reverse,
      (digit ∘ fun d => 48 + UInt8.ofNat d) d = id d := by
    intro d hd
    apply digit_add
    apply Nat.digits_lt_base (by decide) (List.mem_reverse.mp hd)
  rw [natText, if_neg hn, List.map_map, List.map_congr_left hdigit, List.map_id]

theorem isNumeral_natText (n : ℕ) :
  IsNumeral n (natText n)
  := by
  by_cases hn : n = 0
  · subst hn
    constructor
    · intro c
      apply isDigit_of_mem_natText
    · decide
    · decide
    · rfl
  · have hdigits := map_digit_natText hn
    constructor
    · intro c
      apply isDigit_of_mem_natText
    · intro hnil
      rw [hnil, List.map_nil, eq_comm, List.reverse_eq_nil_iff, Nat.digits_eq_nil_iff_eq_zero]
        at hdigits
      contradiction
    · intro hhead
      have hzero := congrArg List.head? hdigits
      rw [List.head?_map, hhead, List.head?_reverse, Option.map_some, eq_comm] at hzero
      have hlast := List.getLast_of_getLast?_eq_some hzero
      apply absurd hlast
      apply Nat.getLast_digit_ne_zero 10 hn
    · rw [hdigits, List.reverse_reverse, Nat.ofDigits_digits]

/-- A numeral is the text of the number that it stands for. -/
theorem IsNumeral.eq_natText {n : ℕ} {s : List UInt8} (h : IsNumeral n s) :
  s = natText n
  := by
  obtain ⟨c, t, rfl⟩ := List.exists_cons_of_ne_nil h.ne_nil
  by_cases hc : c = 48
  · have hs : c :: t = [48] := by
      apply h.head
      rw [hc]
      rfl
    rw [hs] at h ⊢
    have hn : 0 = n := h.value
    rw [← hn]
    rfl
  · have hdigits : Nat.digits 10 n = ((c :: t).map digit).reverse := by
      rw [← h.value]
      apply Nat.digits_ofDigits 10 (by decide)
      · intro d hd
        obtain ⟨x, hx, rfl⟩ := List.mem_map.mp (List.mem_reverse.mp hd)
        apply digit_lt (h.isDigit x hx)
      · intro hne
        rw [List.getLast_reverse]
        intro hzero
        apply hc
        rw [← add_digit (h.isDigit c List.mem_cons_self)]
        rw [show digit c = 0 from hzero]
        rfl
    have hn : n ≠ 0 := by
      rintro rfl
      simp at hdigits
    have hid : ∀ x ∈ c :: t, ((fun d => 48 + UInt8.ofNat d) ∘ digit) x = id x := by
      intro x hx
      apply add_digit (h.isDigit x hx)
    rw [natText, if_neg hn, hdigits, List.reverse_reverse, List.map_map, List.map_congr_left hid,
      List.map_id]

theorem isNumeral_iff {n : ℕ} {s : List UInt8} :
  IsNumeral n s ↔ s = natText n
  := by
  constructor
  · apply IsNumeral.eq_natText
  · rintro rfl
    apply isNumeral_natText

/-- The text of an integer is the only one that is canonical. -/
theorem canonical_iff {n : ℤ} {s : List UInt8} :
  Canonical n s ↔ s = text n
  := by
  rw [Canonical]
  cases n with
  | ofNat n =>
    have hn : ¬ Int.ofNat n < 0 := Int.not_lt.mpr (Int.natCast_nonneg n)
    rw [if_neg hn]
    apply isNumeral_iff
  | negSucc n =>
    rw [if_pos (Int.negSucc_lt_zero n)]
    constructor
    · rintro ⟨t, rfl, ht⟩
      rw [ht.eq_natText]
      rfl
    · rintro rfl
      exact ⟨natText (n + 1), rfl, isNumeral_natText (n + 1)⟩

end Decimal
