import IotDeviceSdk.Foundation.Decimal
import Mathlib.Order.Defs.LinearOrder
import Mathlib.Tactic.Common

/-!
# Extraction of integers

`extract` is what `operator>>` of an input stream reads into a variable of an integer type, in
the classic locale: white space is skipped, then come an optional sign and digits.  The
extraction fails when there is nothing but white space, when no number is found, and when the
number is out of range; see `store` for what it leaves in the variable.  From the canonical
decimal text of a number in range it reads the number (`extract_of_canonical`).
-/

namespace Extraction

/-! ### Integer types -/

/-- An integer type: its range, and the conversion of an integer to it. -/
structure IntegerType (α : Type) where
  min : ℤ
  max : ℤ
  toInt : α → ℤ
  ofInt : ℤ → α
  min_le : min ≤ 0
  le_max : 0 < max
  mem_range : ∀ a, min ≤ toInt a ∧ toInt a ≤ max
  ofInt_toInt : ∀ a, ofInt (toInt a) = a
  toInt_ofInt : ∀ n, min ≤ n → n ≤ max → toInt (ofInt n) = n

/-- A signed type of 16 bits. -/
def int16 : IntegerType Int16 where
  min := -32768
  max := 32767
  toInt := Int16.toInt
  ofInt := Int16.ofInt
  min_le := by decide
  le_max := by decide
  mem_range a := ⟨a.le_toInt, Int.le_of_lt_add_one a.toInt_lt⟩
  ofInt_toInt := Int16.ofInt_toInt
  toInt_ofInt _ hmin hmax := Int16.toInt_ofInt_of_le hmin (Int.lt_add_one_of_le hmax)

/-- A signed type of 32 bits. -/
def int32 : IntegerType Int32 where
  min := -2147483648
  max := 2147483647
  toInt := Int32.toInt
  ofInt := Int32.ofInt
  min_le := by decide
  le_max := by decide
  mem_range a := ⟨a.le_toInt, Int.le_of_lt_add_one a.toInt_lt⟩
  ofInt_toInt := Int32.ofInt_toInt
  toInt_ofInt _ hmin hmax := Int32.toInt_ofInt_of_le hmin (Int.lt_add_one_of_le hmax)

/-- A signed type of 64 bits. -/
def int64 : IntegerType Int64 where
  min := -9223372036854775808
  max := 9223372036854775807
  toInt := Int64.toInt
  ofInt := Int64.ofInt
  min_le := by decide
  le_max := by decide
  mem_range a := ⟨a.le_toInt, Int.le_of_lt_add_one a.toInt_lt⟩
  ofInt_toInt := Int64.ofInt_toInt
  toInt_ofInt _ hmin hmax := Int64.toInt_ofInt_of_le hmin (Int.lt_add_one_of_le hmax)

/-- An unsigned type of 16 bits. -/
def uint16 : IntegerType UInt16 where
  min := 0
  max := 65535
  toInt a := a.toNat
  ofInt := UInt16.ofInt
  min_le := le_rfl
  le_max := by decide
  mem_range a := ⟨Int.natCast_nonneg _, Int.le_of_lt_add_one (Int.ofNat_lt.mpr a.toNat_lt)⟩
  ofInt_toInt a := by
    have hlt : (a.toNat : ℤ) < 2 ^ 16 := Int.ofNat_lt.mpr a.toNat_lt
    rw [UInt16.ofInt, Int.emod_eq_of_lt (Int.natCast_nonneg _) hlt, Int.toNat_natCast,
      UInt16.ofNat_toNat]
  toInt_ofInt n hmin hmax := by
    have hlt : n < 2 ^ 16 := Int.lt_add_one_of_le hmax
    rw [UInt16.ofInt, Int.emod_eq_of_lt hmin hlt,
      UInt16.toNat_ofNat_of_lt' ((Int.toNat_lt hmin).mpr hlt), Int.toNat_of_nonneg hmin]

/-- An unsigned type of 32 bits. -/
def uint32 : IntegerType UInt32 where
  min := 0
  max := 4294967295
  toInt a := a.toNat
  ofInt := UInt32.ofInt
  min_le := le_rfl
  le_max := by decide
  mem_range a := ⟨Int.natCast_nonneg _, Int.le_of_lt_add_one (Int.ofNat_lt.mpr a.toNat_lt)⟩
  ofInt_toInt a := by
    have hlt : (a.toNat : ℤ) < 2 ^ 32 := Int.ofNat_lt.mpr a.toNat_lt
    rw [UInt32.ofInt, Int.emod_eq_of_lt (Int.natCast_nonneg _) hlt, Int.toNat_natCast,
      UInt32.ofNat_toNat]
  toInt_ofInt n hmin hmax := by
    have hlt : n < 2 ^ 32 := Int.lt_add_one_of_le hmax
    rw [UInt32.ofInt, Int.emod_eq_of_lt hmin hlt,
      UInt32.toNat_ofNat_of_lt' ((Int.toNat_lt hmin).mpr hlt), Int.toNat_of_nonneg hmin]

/-- An unsigned type of 64 bits. -/
def uint64 : IntegerType UInt64 where
  min := 0
  max := 18446744073709551615
  toInt a := a.toNat
  ofInt := UInt64.ofInt
  min_le := le_rfl
  le_max := by decide
  mem_range a := ⟨Int.natCast_nonneg _, Int.le_of_lt_add_one (Int.ofNat_lt.mpr a.toNat_lt)⟩
  ofInt_toInt a := by
    have hlt : (a.toNat : ℤ) < 2 ^ 64 := Int.ofNat_lt.mpr a.toNat_lt
    rw [UInt64.ofInt, Int.emod_eq_of_lt (Int.natCast_nonneg _) hlt, Int.toNat_natCast,
      UInt64.ofNat_toNat]
  toInt_ofInt n hmin hmax := by
    have hlt : n < 2 ^ 64 := Int.lt_add_one_of_le hmax
    rw [UInt64.ofInt, Int.emod_eq_of_lt hmin hlt,
      UInt64.toNat_ofNat_of_lt' ((Int.toNat_lt hmin).mpr hlt), Int.toNat_of_nonneg hmin]

/-! ### What stands in the text -/

/-- White space in the classic locale. -/
def IsSpace (c : UInt8) : Prop :=
  c = 32 ∨ (9 ≤ c ∧ c ≤ 13)

instance : DecidablePred IsSpace := fun _ => inferInstanceAs (Decidable (_ ∨ _))

/-- The number base that a stream is set to. -/
inductive Base where
  | dec | hex
  deriving DecidableEq

/-- The number that a base stands for. -/
def Base.toNat : Base → ℕ
  | .dec => 10
  | .hex => 16

/-- The value of a character as a digit. -/
def digitValue (c : UInt8) : ℕ :=
  if 48 ≤ c ∧ c ≤ 57 then c.toNat - 48
  else if 97 ≤ c ∧ c ≤ 102 then c.toNat - 87
  else if 65 ≤ c ∧ c ≤ 70 then c.toNat - 55
  else 16

/-- The digits at the start of a text. -/
def leadingDigits (base : Base) (s : List UInt8) : List ℕ :=
  (s.map digitValue).takeWhile (· < base.toNat)

/-- Whether a text begins with a minus sign, and the text after the sign. -/
def takeSign : List UInt8 → Bool × List UInt8
  | 45 :: s => (true, s)
  | 43 :: s => (false, s)
  | s => (false, s)

/-- The text after a `0x` that hexadecimal numbers may begin with. -/
def dropPrefix (base : Base) (s : List UInt8) : List UInt8 :=
  if base = .hex ∧ s.head? = some 48 ∧ (s.tail.head? = some 120 ∨ s.tail.head? = some 88) then
    s.drop 2
  else s

/-! ### Extraction -/

/-- What an extraction comes to. -/
inductive Outcome (α : Type) where
  | atEnd
  | noNumber
  | tooSmall
  | tooLarge
  | value (a : α)
  deriving DecidableEq

variable {α : Type}

/-- The number with the magnitude `n`; like `strtoull`, the unsigned types take it modulo their
range if there is a minus sign before it. -/
def IntegerType.number (type : IntegerType α) (negative : Bool) (n : ℕ) : Outcome α :=
  let m : ℤ := if negative then -n else n
  if type.min = 0 then
    if type.max < n then .tooLarge else .value (type.ofInt m)
  else if m < type.min then .tooSmall
  else if type.max < m then .tooLarge
  else .value (type.ofInt m)

/-- What a variable of an integer type is to be read from a text. -/
def extract (type : IntegerType α) (base : Base) (s : List UInt8) : Outcome α :=
  let s := s.dropWhile fun c => IsSpace c
  if s = [] then .atEnd
  else
    let (negative, s) := takeSign s
    let ds := leadingDigits base (dropPrefix base s)
    if ds = [] then .noNumber
    else type.number negative (Nat.ofDigits base.toNat ds.reverse)

/-- The standards of C++, which differ in what a failed extraction leaves. -/
inductive Standard where
  | cpp98 | cpp11
  deriving DecidableEq

/-- What a variable holds after an extraction, if it was `val` before. -/
def store (standard : Standard) (type : IntegerType α) (outcome : Outcome α) (val : α) : α :=
  match outcome, standard with
  | .value a, _ => a
  | .atEnd, _ => val
  | _, .cpp98 => val
  | .noNumber, .cpp11 => type.ofInt 0
  | .tooSmall, .cpp11 => type.ofInt type.min
  | .tooLarge, .cpp11 => type.ofInt type.max

/-- Whether an extraction sets `failbit`. -/
def Outcome.fails : Outcome α → Bool
  | .value _ => false
  | _ => true

/-! ### The variable after a failed extraction -/

theorem IntegerType.ofInt_eq_iff
    (type : IntegerType α) {n : ℤ} (hmin : type.min ≤ n) (hmax : n ≤ type.max) {a : α} :
  type.ofInt n = a ↔ type.toInt a = n
  := by
  constructor
  · rintro rfl
    apply type.toInt_ofInt n hmin hmax
  · rintro rfl
    apply type.ofInt_toInt

/-- An integer type has more than one value. -/
theorem IntegerType.exists_ne (type : IntegerType α) (a : α) :
  ∃ b, b ≠ a
  := by
  have hlt := type.le_max
  by_cases h : type.toInt a = 0
  · use type.ofInt type.max
    rw [ne_eq, type.ofInt_eq_iff (type.min_le.trans hlt.le) le_rfl, h]
    apply hlt.ne
  · use type.ofInt 0
    rw [ne_eq, type.ofInt_eq_iff type.min_le hlt.le]
    apply h

/-- A variable that is left untouched does not have any given value. -/
theorem IntegerType.not_forall_eq (type : IntegerType α) (a : α) :
  ¬ ∀ val, val = a
  := by
  obtain ⟨b, hb⟩ := type.exists_ne a
  intro h
  apply hb (h b)

/-- Whatever a variable was before, a failed extraction leaves `a` in it exactly when `a` is
what C++11 stores. -/
theorem forall_store_eq_iff
    {standard : Standard} {type : IntegerType α} {outcome : Outcome α} (h : outcome.fails)
    {a : α} :
  (∀ val, store standard type outcome val = a)
    ↔ standard = .cpp11
      ∧ ((outcome = .noNumber ∧ type.toInt a = 0)
        ∨ (outcome = .tooSmall ∧ type.toInt a = type.min)
        ∨ (outcome = .tooLarge ∧ type.toInt a = type.max))
  := by
  have : Nonempty α := ⟨a⟩
  have hne := type.not_forall_eq a
  have hlt := type.le_max
  have hle := type.min_le
  cases outcome with
  | value b => contradiction
  | atEnd => simp [store, hne]
  | noNumber =>
    cases standard with
    | cpp98 => simp [store, hne]
    | cpp11 => simp [store, type.ofInt_eq_iff hle hlt.le]
  | tooSmall =>
    cases standard with
    | cpp98 => simp [store, hne]
    | cpp11 => simp [store, type.ofInt_eq_iff le_rfl (hle.trans hlt.le)]
  | tooLarge =>
    cases standard with
    | cpp98 => simp [store, hne]
    | cpp11 => simp [store, type.ofInt_eq_iff (hle.trans hlt.le) le_rfl]

/-! ### Decimal texts -/

open Decimal

theorem not_isSpace_of_isDigit {c : UInt8} (h : IsDigit c) :
  ¬ IsSpace c
  := by
  simp only [IsDigit, IsSpace, UInt8.le_iff_toNat_le, ← UInt8.toNat_inj, UInt8.reduceToNat] at h ⊢
  omega

theorem takeSign_of_isDigit {c : UInt8} (h : IsDigit c) (s : List UInt8) :
  takeSign (c :: s) = (false, c :: s)
  := by
  rw [takeSign]
  · rintro _ hcons
    obtain ⟨rfl, -⟩ := List.cons.inj hcons
    apply absurd h
    decide
  · rintro _ hcons
    obtain ⟨rfl, -⟩ := List.cons.inj hcons
    apply absurd h
    decide

theorem leadingDigits_of_isDigit {s : List UInt8} (h : ∀ c ∈ s, IsDigit c) :
  leadingDigits .dec s = s.map digit
  := by
  have hmap : ∀ c ∈ s, digitValue c = digit c := by
    intro c hc
    apply if_pos (h c hc)
  rw [leadingDigits, List.map_congr_left hmap, List.takeWhile_eq_self_iff]
  intro d hd
  obtain ⟨c, hc, rfl⟩ := List.mem_map.mp hd
  apply decide_eq_true
  apply digit_lt (h c hc)

/-- A number in range is read as it is. -/
theorem IntegerType.number_natAbs
    (type : IntegerType α) {n : ℤ} (hmin : type.min ≤ n) (hmax : n ≤ type.max) :
  type.number (decide (n < 0)) n.natAbs = .value (type.ofInt n)
  := by
  have hsign : (if decide (n < 0) = true then -(n.natAbs : ℤ) else n.natAbs) = n := by
    split_ifs with h
    · have hneg := of_decide_eq_true h
      omega
    · have hnonneg := of_decide_eq_false (Bool.eq_false_of_not_eq_true h)
      omega
  rw [IntegerType.number, hsign]
  split_ifs
  · omega
  · rfl
  · omega
  · omega
  · rfl

/-- A canonical text is a sign, if the number is negative, and a numeral. -/
theorem takeSign_of_canonical {n : ℤ} {s : List UInt8} (h : Canonical n s) :
  s ≠ [] ∧ s.dropWhile (fun c => IsSpace c) = s
    ∧ ∃ t, takeSign s = (decide (n < 0), t) ∧ IsNumeral n.natAbs t
  := by
  rw [Canonical] at h
  split at h
  · next hneg =>
    obtain ⟨t, rfl, ht⟩ := h
    rw [decide_eq_true hneg]
    exact ⟨List.cons_ne_nil _ _, rfl, t, rfl, ht⟩
  · next hneg =>
    obtain ⟨c, t, rfl⟩ := List.exists_cons_of_ne_nil h.ne_nil
    have hc := h.isDigit c List.mem_cons_self
    use List.cons_ne_nil c t
    constructor
    · apply List.dropWhile_cons_of_neg
      simp [not_isSpace_of_isDigit hc]
    · use c :: t
      rw [takeSign_of_isDigit hc, decide_eq_false hneg]
      exact ⟨rfl, h⟩

/-- The canonical text of a number in range is read as the number. -/
theorem extract_of_canonical
    (type : IntegerType α) {n : ℤ} (hmin : type.min ≤ n) (hmax : n ≤ type.max) {s : List UInt8}
    (h : Canonical n s) :
  extract type .dec s = .value (type.ofInt n)
  := by
  obtain ⟨hne, hspace, t, hsign, ht⟩ := takeSign_of_canonical h
  have hdrop : dropPrefix .dec t = t := if_neg (by simp)
  have hdigits : leadingDigits .dec (dropPrefix .dec t) = t.map digit := by
    rw [hdrop, leadingDigits_of_isDigit ht.isDigit]
  have hnil : t.map digit ≠ [] := by
    rw [ne_eq, List.map_eq_nil_iff]
    apply ht.ne_nil
  rw [extract, hspace, if_neg hne, hsign]
  dsimp only
  rw [hdigits, if_neg hnil, Base.toNat, ht.value, type.number_natAbs hmin hmax]

end Extraction
