import Mathlib.Algebra.Ring.Nat
import Mathlib.Data.Int.Notation
import Mathlib.Tactic.Common

/-!
# Clocks that wrap

A clock of `w` bits shows an unbounded time modulo `2 ^ w`.  The difference of two of its
readings is the difference of the times, however often the clock has wrapped in between: as a
natural number if the times are less than a revolution apart (`toNat_reading_sub`), as an
integer if they are less than half of one (`toInt_reading_sub`).  The readings from one to
another form an arc of a circle, see `between_iff`.
-/

namespace CircularTime

variable {w : ℕ}

/-- The reading of a clock of `w` bits at the time `t`. -/
def reading (w t : ℕ) : BitVec w :=
  BitVec.ofNat w t

theorem reading_add (w s t : ℕ) :
  reading w (s + t) = reading w s + reading w t
  := BitVec.ofNat_add s t

/-- Within a revolution, the time that has passed can be read off. -/
theorem toNat_reading_sub {s t : ℕ} (hle : s ≤ t) (h : t - s < 2 ^ w) :
  (reading w t - reading w s).toNat = t - s
  := by
  have hadd := reading_add w s (t - s)
  rw [Nat.add_sub_cancel' hle, BitVec.add_comm] at hadd
  rw [hadd, BitVec.add_sub_cancel, reading, BitVec.toNat_ofNat, Nat.mod_eq_of_lt h]

/-- Within half a revolution, the difference of two times can be read off, whichever of them
is the earlier one. -/
theorem toInt_reading_sub {s t : ℕ} (h : 2 * ((t : ℤ) - s).natAbs < 2 ^ w) :
  (reading w t - reading w s).toInt = t - s
  := by
  rw [BitVec.toInt_sub, reading, reading, BitVec.toInt_ofNat', BitVec.toInt_ofNat',
    Int.bmod_sub_bmod, Int.sub_bmod_bmod]
  apply Int.bmod_eq_of_le_mul_two
  · omega
  · omega

/-- How far a reading is from an earlier one. -/
theorem toNat_sub_eq_ite (x y : BitVec w) :
  (x - y).toNat = if y ≤ x then x.toNat - y.toNat else 2 ^ w - (y.toNat - x.toNat)
  := by
  split
  · next h => apply BitVec.toNat_sub_of_le h
  · next h => apply BitVec.toNat_sub_of_lt (BitVec.not_le.mp h)

/-- The numeric test of whether the reading `middle` is on the way from `earlier` to
`later`. -/
def Between (earlier middle later : BitVec w) : Prop :=
  if earlier ≤ later then earlier ≤ middle ∧ middle ≤ later
  else ¬ (later < middle ∧ middle < earlier)

/-- A reading is on the way from `earlier` to `later` when it is not further from `earlier`
than `later` is. -/
theorem between_iff (earlier middle later : BitVec w) :
  Between earlier middle later ↔ middle - earlier ≤ later - earlier
  := by
  have hmiddle := middle.isLt
  have hlater := later.isLt
  have hearlier := earlier.isLt
  rw [Between, BitVec.le_def (x := middle - earlier), toNat_sub_eq_ite, toNat_sub_eq_ite]
  simp only [BitVec.le_def, BitVec.lt_def]
  split_ifs
  all_goals omega

end CircularTime
