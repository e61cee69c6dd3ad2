import Mathlib.Algebra.GroupWithZero.Nat
import Mathlib.Data.List.Basic
import Mathlib.Tactic.Common

/-!
# Numbers of variable length

A number is written as its digits in base 128, the lowest first, and every digit but the last
has its top bit set.  `read k` reads such a number from the front of a text, and allows for at
most `k` digits.  It reads what `digits` has written (`read_digits`), and it does not look beyond
the last digit (`read_append`).
-/

namespace Varint

/-- The digits of a number. -/
def digits (n : ℕ) : List UInt8 :=
  if n < 128 then [n.toUInt8] else (n % 128 + 128).toUInt8 :: digits (n / 128)

/-- What comes of reading a number: the text ends too early, the number has too many digits, or
there is a number and the text after it. -/
inductive Result where
  | more
  | bad
  | done (value : ℕ) (rest : List UInt8)
  deriving DecidableEq

/-- The number with the lowest digit `d`, when the digits above it have been read. -/
def Result.above (d : ℕ) : Result → Result
  | more => more
  | bad => bad
  | done v rest => done (d + 128 * v) rest

/-- Read a number of at most `k` digits. -/
def read : ℕ → List UInt8 → Result
  | 0, _ => .bad
  | _ + 1, [] => .more
  | k + 1, c :: s =>
    if c.toNat < 128 then .done c.toNat s else (read k s).above (c.toNat - 128)

theorem digits_of_lt {n : ℕ} (h : n < 128) :
  digits n = [n.toUInt8]
  := by
  rw [digits, if_pos h]

theorem digits_of_le {n : ℕ} (h : 128 ≤ n) :
  digits n = (n % 128 + 128).toUInt8 :: digits (n / 128)
  := by
  rw [digits, if_neg (Nat.not_lt.mpr h)]

/-- Reading does not look beyond the last digit. -/
theorem read_append {k v : ℕ} {s rest : List UInt8} (t : List UInt8)
    (h : read k s = .done v rest) :
  read k (s ++ t) = .done v (rest ++ t)
  := by
  induction k generalizing s v with
  | zero => contradiction
  | succ k ih =>
    cases s with
    | nil => contradiction
    | cons c s =>
      rw [List.cons_append]
      rw [read] at h ⊢
      split at h
      · rename_i hc
        rw [if_pos hc]
        cases h
        rfl
      · rename_i hc
        rw [if_neg hc]
        cases hr : read k s with
        | more => rw [hr] at h; contradiction
        | bad => rw [hr] at h; contradiction
        | done w r =>
          rw [hr] at h
          cases h
          rw [ih hr, Result.above]

/-- Too many digits are too many, whatever follows. -/
theorem read_append_bad {k : ℕ} {s : List UInt8} (t : List UInt8) (h : read k s = .bad) :
  read k (s ++ t) = .bad
  := by
  induction k generalizing s with
  | zero => rfl
  | succ k ih =>
    cases s with
    | nil => contradiction
    | cons c s =>
      rw [List.cons_append]
      rw [read] at h ⊢
      split at h
      · contradiction
      · rename_i hc
        rw [if_neg hc]
        cases hr : read k s with
        | more => rw [hr] at h; contradiction
        | bad => rw [ih hr, Result.above]
        | done w r => rw [hr] at h; contradiction

/-- What is read is a front of the text. -/
theorem length_le_of_read {k v : ℕ} {s rest : List UInt8} (h : read k s = .done v rest) :
  rest.length < s.length
  := by
  induction k generalizing s v with
  | zero => contradiction
  | succ k ih =>
    cases s with
    | nil => contradiction
    | cons c s =>
      rw [read] at h
      split at h
      · cases h
        apply Nat.lt_succ_self
      · cases hr : read k s with
        | more => rw [hr] at h; contradiction
        | bad => rw [hr] at h; contradiction
        | done w r =>
          rw [hr] at h
          cases h
          apply Nat.lt_succ_of_lt (ih hr)

theorem toNat_digit {d : ℕ} (h : d < 256) :
  d.toUInt8.toNat = d
  := by
  simp [Nat.toUInt8, Nat.mod_eq_of_lt h]

/-- Reading gives back the number whose digits were written. -/
theorem read_digits {k n : ℕ} (hk : 0 < k) (h : n < 128 ^ k) (t : List UInt8) :
  read k (digits n ++ t) = .done n t
  := by
  induction k generalizing n with
  | zero => contradiction
  | succ k ih =>
    by_cases hn : n < 128
    · rw [digits_of_lt hn, List.singleton_append, read, toNat_digit (by omega), if_pos hn]
    · have hk : 0 < k := by
        apply Nat.pos_of_ne_zero
        rintro rfl
        apply hn
        simpa using h
      have hdiv : n / 128 < 128 ^ k := by
        rw [Nat.div_lt_iff_lt_mul (by decide), ← Nat.pow_succ]
        apply h
      rw [digits_of_le (Nat.not_lt.mp hn), List.cons_append, read, toNat_digit (by omega),
        if_neg (by omega), ih hk hdiv, Result.above, Nat.add_sub_cancel, Nat.mod_add_div]

end Varint
