import Mathlib.Data.List.TakeWhile
import Mathlib.Data.Int.Basic
import Mathlib.Tactic.Common

/-!
# C strings

A block of memory is a list of bytes.  What a C function sees of it is the part before
the first NUL byte, `cstr`.  `strcasecmp` is the comparison of the C library in the
"C" locale: `strcasecmp_eq_zero_iff` says that it returns `0` exactly on strings that
agree after folding the letters `A`-`Z` to `a`-`z`.
-/

namespace CString

/-- The bytes of an ASCII literal. -/
def ascii (s : String) : List UInt8 :=
  s.toList.map fun c => UInt8.ofNat c.toNat

/-- The C string at the start of `s`: the bytes before the first NUL byte. -/
def cstr (s : List UInt8) : List UInt8 :=
  s.takeWhile (· ≠ 0)

/-- The number of bytes before the first NUL byte of the memory `s`; `none` when the
scan runs off the end of `s`. -/
def strlen (s : List UInt8) : Option ℕ :=
  s.findIdx? (· = 0)

/-- `tolower` in the "C" locale. -/
def tolower (c : UInt8) : UInt8 :=
  if 65 ≤ c ∧ c ≤ 90 then c + 32 else c

/-- The string `s` with its ASCII letters in lower case. -/
def fold (s : List UInt8) : List UInt8 :=
  s.map tolower

/-- `strcasecmp` of the C library; memory past the end of a list reads as the
terminating NUL byte. -/
def strcasecmp : List UInt8 → List UInt8 → ℤ
  | [], t => - ((tolower (t.headD 0)).toNat : ℤ)
  | c :: s, t =>
    if c = 0 ∨ tolower c ≠ tolower (t.headD 0) then
      ((tolower c).toNat : ℤ) - (tolower (t.headD 0)).toNat
    else
      strcasecmp s t.tail

/-- `strcmp` of the C library, under the same reading of memory. -/
def strcmp : List UInt8 → List UInt8 → ℤ
  | [], t => - ((t.headD 0).toNat : ℤ)
  | c :: s, t =>
    if c = 0 ∨ c ≠ t.headD 0 then (c.toNat : ℤ) - (t.headD 0).toNat else strcmp s t.tail

/-! ### The visible part of a string -/

@[simp]
theorem cstr_nil :
  cstr [] = []
  := rfl

theorem cstr_cons (c : UInt8) (s : List UInt8) :
  cstr (c :: s) = if c = 0 then [] else c :: cstr s
  := by
  by_cases h : c = 0
  · simp [cstr, h]
  · simp [cstr, h]

/-- A string without NUL bytes is visible as a whole. -/
theorem cstr_eq_self {s : List UInt8} (h : 0 ∉ s) :
  cstr s = s
  := by
  apply List.takeWhile_eq_self_iff.mpr
  intro c hc
  simp only [ne_eq, decide_eq_true_eq]
  rintro rfl
  apply h hc

/-- What follows a NUL byte is not visible. -/
theorem cstr_append_zero (s t : List UInt8) :
  cstr (s ++ 0 :: t) = cstr s
  := by
  induction s with
  | nil => simp [cstr_cons]
  | cons c s ih => simp [cstr_cons, ih]

/-- A string without NUL bytes is what is visible of the memory that holds it. -/
theorem cstr_concat_zero {s : List UInt8} (h : 0 ∉ s) :
  cstr (s ++ [0]) = s
  := by
  rw [cstr_append_zero, cstr_eq_self h]

/-- `strlen` counts the visible bytes, and fails only on memory without a NUL byte. -/
theorem strlen_eq_some_iff {s : List UInt8} {n : ℕ} :
  strlen s = some n ↔ 0 ∈ s ∧ n = (cstr s).length
  := by
  induction s generalizing n with
  | nil => simp [strlen]
  | cons c s ih =>
    by_cases h : c = 0
    · subst h
      simp [strlen, List.findIdx?_cons, cstr_cons, eq_comm]
    · have hs : strlen (c :: s) = (strlen s).map (· + 1) := by
        simp [strlen, List.findIdx?_cons, h]
      rw [hs, Option.map_eq_some_iff, cstr_cons, if_neg h]
      constructor
      · rintro ⟨m, hm, rfl⟩
        obtain ⟨hmem, rfl⟩ := ih.mp hm
        simp [hmem]
      · rintro ⟨hmem, rfl⟩
        use (cstr s).length
        constructor
        · apply ih.mpr
          simpa [Ne.symm h] using hmem
        · simp

theorem strlen_le_length {s : List UInt8} {n : ℕ} (h : strlen s = some n) :
  n ≤ s.length
  := by
  obtain ⟨-, rfl⟩ := strlen_eq_some_iff.mp h
  apply (List.takeWhile_prefix _).length_le

/-- `strlen` finds the end of a string that has its NUL byte. -/
theorem strlen_append_zero (s : List UInt8) :
  strlen (s ++ [0]) = some (cstr s).length
  := by
  rw [strlen_eq_some_iff, cstr_append_zero]
  simp

/-! ### Comparison up to letter case -/

@[simp]
theorem fold_nil :
  fold [] = []
  := rfl

@[simp]
theorem fold_cons (c : UInt8) (s : List UInt8) :
  fold (c :: s) = tolower c :: fold s
  := rfl

@[simp]
theorem fold_append (s t : List UInt8) :
  fold (s ++ t) = fold s ++ fold t
  := List.map_append

theorem tolower_eq_zero_iff (c : UInt8) :
  tolower c = 0 ↔ c = 0
  := by
  rw [tolower]
  split
  · simp only [UInt8.le_iff_toNat_le, ← UInt8.toNat_inj, UInt8.toNat_add, UInt8.reduceToNat] at *
    omega
  · rfl

/-- Two bytes compare equal exactly when their values do. -/
theorem toNat_sub_toNat_eq_zero_iff (c d : UInt8) :
  (c.toNat : ℤ) - d.toNat = 0 ↔ c = d
  := by
  rw [← UInt8.toNat_inj]
  omega

/-- The first byte a comparison of `s` looks at. -/
theorem headD_fold_cstr (s : List UInt8) :
  (fold (cstr s)).headD 0 = tolower (s.headD 0)
  := by
  cases s with
  | nil => rfl
  | cons c s =>
    by_cases h : c = 0
    · simp [cstr_cons, h, tolower]
    · simp [cstr_cons, h]

/-- A string whose first byte is visible is compared from that byte on. -/
theorem fold_cstr_of_ne {s : List UInt8} (h : tolower (s.headD 0) ≠ 0) :
  fold (cstr s) = tolower (s.headD 0) :: fold (cstr s.tail)
  := by
  rw [ne_eq, tolower_eq_zero_iff] at h
  cases s with
  | nil => simp at h
  | cons c s => simp_all [cstr_cons]

theorem fold_cstr_eq_nil_iff (s : List UInt8) :
  fold (cstr s) = [] ↔ tolower (s.headD 0) = 0
  := by
  constructor
  · intro h
    rw [← headD_fold_cstr, h]
    rfl
  · intro h
    rw [tolower_eq_zero_iff] at h
    cases s with
    | nil => rfl
    | cons c s => simp_all [cstr_cons]

/-- `strcasecmp` returns `0` exactly when the visible parts agree up to letter case. -/
theorem strcasecmp_eq_zero_iff (s t : List UInt8) :
  strcasecmp s t = 0 ↔ fold (cstr s) = fold (cstr t)
  := by
  induction s generalizing t with
  | nil =>
    rw [strcasecmp, cstr_nil, fold_nil, eq_comm (a := []), fold_cstr_eq_nil_iff, ← UInt8.toNat_inj]
    simp
  | cons c s ih =>
    rw [strcasecmp]
    split
    · next hstop =>
      rw [toNat_sub_toNat_eq_zero_iff]
      by_cases hc : c = 0
      · subst hc
        rw [cstr_cons, if_pos rfl, fold_nil, eq_comm (a := []), fold_cstr_eq_nil_iff, eq_comm]
        rfl
      · have hne : tolower c ≠ tolower (t.headD 0) := by simpa [hc] using hstop
        constructor
        · intro h
          exact absurd h hne
        · intro h
          apply absurd _ hne
          rw [← headD_fold_cstr t, ← h, headD_fold_cstr]
          rfl
    · next hgo =>
      push Not at hgo
      obtain ⟨hc, heq⟩ := hgo
      have ht : tolower (t.headD 0) ≠ 0 := by
        rw [← heq]
        exact (tolower_eq_zero_iff c).not.mpr hc
      rw [ih, fold_cstr_of_ne ht, cstr_cons, if_neg hc, fold_cons, heq, List.cons.injEq]
      simp

/-- The NUL byte that ends a string does not matter to a comparison. -/
theorem strcasecmp_append_zero_eq_zero_iff (s t : List UInt8) :
  strcasecmp (s ++ [0]) t = 0 ↔ strcasecmp s t = 0
  := by
  rw [strcasecmp_eq_zero_iff, strcasecmp_eq_zero_iff, cstr_append_zero]

@[simp]
theorem strcasecmp_append_zero_self (s : List UInt8) :
  strcasecmp (s ++ [0]) s = 0
  := by
  rw [strcasecmp_append_zero_eq_zero_iff, strcasecmp_eq_zero_iff]

end CString
