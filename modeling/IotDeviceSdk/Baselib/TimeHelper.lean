import IotDeviceSdk.Foundation.CircularTime

/-!
# The time helper

`TimeHelper` reads the monotonic clock in milliseconds modulo `2 ^ 32`, and compares such
readings.  Each comparison has two implementations, of which the build chooses one by
`EFFICIENT_IMPLEMENTATION`.  The one that is efficient orders readings like the times they
were taken at (`readings_ordered`).  The other one agrees with it on all readings that are
not exactly half a revolution apart (`implementations_agree_iff`).
-/

namespace TimeHelper

open CircularTime

/-- `LAST`. -/
def last : UInt32 := 0xFFFFFFFF

/-- `HALF`. -/
def half : UInt32 := 0x80000000

/-- A time of the monotonic clock, as a `struct timespec`. -/
structure Timespec where
  sec : ℕ
  nsec : ℕ
  nsec_lt : nsec < 1000000000

/-- The whole milliseconds of a time. -/
def Timespec.millis (ts : Timespec) : ℕ :=
  (ts.sec * 1000000000 + ts.nsec) / 1000000

/-- `TimeHelper::Time`, for POSIX. -/
def time (ts : Timespec) : UInt32 :=
  UInt32.ofNat (ts.sec * 1000 + ts.nsec / 1000000)

/-- What `TimeAfter` asserts. -/
def Accepts (elapsed : Int32) : Prop :=
  0 ≤ elapsed ∧ elapsed.toUInt32 < half

instance : DecidablePred Accepts := fun _ => inferInstanceAs (Decidable (_ ∧ _))

/-- `TimeHelper::TimeAfter`; an assertion that fails is logged and has no other effect. -/
def timeAfter (ts : Timespec) (elapsed : Int32) : UInt32 :=
  time ts + elapsed.toUInt32

/-- `TimeHelper::TimeIsBetween`. -/
def timeIsBetween (earlier middle later : UInt32) : Bool :=
  if earlier ≤ later then earlier ≤ middle ∧ middle ≤ later
  else ¬ (later < middle ∧ middle < earlier)

/-- `static_cast<long>`, for a `long` of 64 bits. -/
def toLong (n : UInt32) : Int64 :=
  n.toUInt64.toInt64

/-- `TimeHelper::TimeIsLaterOrEqual`. -/
def timeIsLaterOrEqual (efficientImplementation : Bool) (earlier later : UInt32) : Bool :=
  if efficientImplementation then
    let diff := (later - earlier).toInt32
    0 ≤ diff ∧ diff.toUInt32 < half
  else
    timeIsBetween earlier later (earlier + half)

/-- `TimeHelper::TimeIsLater`. -/
def timeIsLater (efficientImplementation : Bool) (earlier later : UInt32) : Bool :=
  if efficientImplementation then
    let diff := (later - earlier).toInt32
    0 < diff ∧ diff.toUInt32 < half
  else
    !timeIsBetween later earlier (later + half)

/-- `TimeHelper::TimeDiff`. -/
def timeDiff (efficientImplementation : Bool) (later earlier : UInt32) : Int32 :=
  if efficientImplementation then
    (later - earlier).toInt32
  else if timeIsBetween earlier later (earlier + half) then
    if earlier ≤ later then (toLong (later - earlier)).toInt32
    else (toLong (later + (last - earlier) + 1)).toInt32
  else
    if later ≤ earlier then (-toLong (earlier - later)).toInt32
    else (-toLong (earlier + (last - later) + 1)).toInt32

/-! ### Readings -/

theorem Timespec.millis_eq (ts : Timespec) :
  ts.millis = ts.sec * 1000 + ts.nsec / 1000000
  := by
  rw [millis]
  omega

theorem toBitVec_time (ts : Timespec) :
  (time ts).toBitVec = reading 32 ts.millis
  := by
  rw [ts.millis_eq]
  rfl

/-- The difference of two readings is that of the times. -/
theorem toInt_time_sub {s t : Timespec} (h : ((t.millis : ℤ) - s.millis).natAbs < 2147483648) :
  (time t - time s).toInt32.toInt = t.millis - s.millis
  := by
  have hsub := toInt_reading_sub (w := 32) (s := s.millis) (t := t.millis) (by omega)
  rw [← toBitVec_time, ← toBitVec_time] at hsub
  apply hsub

/-! ### Differences -/

/-- A difference is negative when it is half a revolution or more. -/
theorem toInt_toInt32 (d : UInt32) :
  d.toInt32.toInt = if d < half then (d.toNat : ℤ) else d.toNat - 4294967296
  := by
  have hd : d.toInt32.toInt = d.toBitVec.toInt := rfl
  have hnat : d.toBitVec.toNat = d.toNat := rfl
  have hhalf : half.toNat = 2147483648 := rfl
  have hlt := d.toNat_lt
  rw [hd, BitVec.toInt_eq_toNat_cond, hnat]
  simp only [UInt32.lt_iff_toNat_lt]
  split_ifs
  all_goals omega

theorem timeIsLaterOrEqual_efficient (earlier later : UInt32) :
  timeIsLaterOrEqual true earlier later = true ↔ later - earlier < half
  := by
  have hdiff := toInt_toInt32 (later - earlier)
  have hlt := (later - earlier).toNat_lt
  simp only [timeIsLaterOrEqual, if_true, decide_eq_true_eq, Int32.le_iff_toInt_le,
    Int32.toInt_zero, UInt32.toUInt32_toInt32]
  constructor
  · apply And.right
  · intro h
    rw [if_pos h] at hdiff
    constructor
    · omega
    · apply h

theorem timeIsLater_efficient (earlier later : UInt32) :
  timeIsLater true earlier later = true ↔ later ≠ earlier ∧ later - earlier < half
  := by
  have hdiff := toInt_toInt32 (later - earlier)
  simp only [timeIsLater, if_true, decide_eq_true_eq, Int32.lt_iff_toInt_lt,
    Int32.toInt_zero, UInt32.toUInt32_toInt32]
  apply and_congr_left
  intro h
  rw [if_pos h, UInt32.toNat_sub] at hdiff
  rw [hdiff, ne_eq, ← UInt32.toNat_inj]
  have hlater := later.toNat_lt
  have hearlier := earlier.toNat_lt
  omega

theorem timeIsBetween_iff (earlier middle later : UInt32) :
  timeIsBetween earlier middle later = true ↔ middle - earlier ≤ later - earlier
  := by
  apply Iff.trans _ (between_iff earlier.toBitVec middle.toBitVec later.toBitVec)
  rw [timeIsBetween, Between]
  simp only [← UInt32.le_iff_toBitVec_le, ← UInt32.lt_iff_toBitVec_lt]
  split
  · simp
  · simp [or_iff_not_imp_left]

/-- The distance of two readings, as a number modulo `2 ^ 32`. -/
theorem toNat_sub_eq_emod (later earlier : UInt32) :
  ((later - earlier).toNat : ℤ) = ((later.toNat : ℤ) - earlier.toNat) % 4294967296
  := by
  have hlater := later.toNat_lt
  have hearlier := earlier.toNat_lt
  rw [UInt32.toNat_sub]
  omega

/-- `TimeIsBetween` decides whether a reading is on the way around the circle from `earlier` to
`later`; where on the circle the readings stand does not matter. -/
theorem timeIsBetween_circular (earlier middle later : UInt32) :
  (timeIsBetween earlier middle later = true
      ↔ ((middle.toNat : ℤ) - earlier.toNat) % 4294967296
        ≤ ((later.toNat : ℤ) - earlier.toNat) % 4294967296)
    ∧ ∀ k, timeIsBetween (earlier + k) (middle + k) (later + k)
      = timeIsBetween earlier middle later
  := by
  constructor
  · rw [timeIsBetween_iff, UInt32.le_iff_toNat_le, ← toNat_sub_eq_emod, ← toNat_sub_eq_emod,
      Int.ofNat_le]
  · intro k
    have hshift : ∀ reading : UInt32, reading + k - (earlier + k) = reading - earlier := by
      intro reading
      have hreading := reading.toNat_lt
      have hearlier := earlier.toNat_lt
      rw [← UInt32.toNat_inj, UInt32.toNat_sub, UInt32.toNat_sub, UInt32.toNat_add,
        UInt32.toNat_add]
      omega
    rw [Bool.eq_iff_iff, timeIsBetween_iff, timeIsBetween_iff, hshift, hshift]

theorem toInt32_toLong (n : UInt32) :
  (toLong n).toInt32 = n.toInt32
  := by
  apply Int32.toBitVec_inj.mp
  simp [toLong, BitVec.signExtend_eq_setWidth_of_le]

/-- Both implementations of `TimeDiff` compute the same difference. -/
theorem timeDiff_eq (efficientImplementation : Bool) (later earlier : UInt32) :
  timeDiff efficientImplementation later earlier = (later - earlier).toInt32
  := by
  have hwrap : ∀ x y : UInt32, x + (last - y) + 1 = x - y := by
    intro x y
    have hlast : last.toNat = 4294967295 := rfl
    have hx := x.toNat_lt
    have hy := y.toNat_lt
    rw [← UInt32.toNat_inj, UInt32.toNat_add, UInt32.toNat_add, UInt32.toNat_sub, UInt32.toNat_sub,
      hlast, UInt32.toNat_one]
    omega
  rw [timeDiff]
  simp only [Int64.toInt32_neg, toInt32_toLong, hwrap, ← UInt32.toInt32_neg, UInt32.neg_sub,
    ite_self]

/-! ### The implementations -/

theorem timeIsLaterOrEqual_inefficient (earlier later : UInt32) :
  timeIsLaterOrEqual false earlier later = true ↔ later - earlier ≤ half
  := by
  rw [timeIsLaterOrEqual, if_neg Bool.false_ne_true, timeIsBetween_iff, UInt32.add_comm,
    UInt32.add_sub_cancel]

/-- The implementations of `TimeIsLaterOrEqual` differ on readings that are exactly half a
revolution apart. -/
theorem timeIsLaterOrEqual_eq_iff (earlier later : UInt32) :
  timeIsLaterOrEqual true earlier later = timeIsLaterOrEqual false earlier later
    ↔ later - earlier ≠ half
  := by
  rw [Bool.eq_iff_iff, timeIsLaterOrEqual_efficient, timeIsLaterOrEqual_inefficient,
    ne_eq, ← UInt32.toNat_inj, UInt32.lt_iff_toNat_lt, UInt32.le_iff_toNat_le]
  omega

/-- Both implementations of `TimeIsLater` decide the same. -/
theorem timeIsLater_eq (efficientImplementation : Bool) (earlier later : UInt32) :
  timeIsLater efficientImplementation earlier later = timeIsLater true earlier later
  := by
  cases efficientImplementation with
  | true => rfl
  | false =>
    have hlater := later.toNat_lt
    have hearlier := earlier.toNat_lt
    have hhalf : half.toNat = 2147483648 := rfl
    rw [Bool.eq_iff_iff, timeIsLater_efficient, timeIsLater, if_neg Bool.false_ne_true,
      Bool.not_eq_true', ← Bool.not_eq_true, timeIsBetween_iff, UInt32.add_comm,
      UInt32.add_sub_cancel, UInt32.not_le, ne_eq, ← UInt32.toNat_inj, UInt32.lt_iff_toNat_lt,
      UInt32.lt_iff_toNat_lt, UInt32.toNat_sub, UInt32.toNat_sub, hhalf]
    omega

/-- The two implementations of the comparisons agree on two readings exactly when these are
not half a revolution apart. -/
theorem implementations_agree_iff (earlier later : UInt32) :
  (timeIsLaterOrEqual true earlier later = timeIsLaterOrEqual false earlier later
      ∧ timeIsLater true earlier later = timeIsLater false earlier later
      ∧ timeDiff true later earlier = timeDiff false later earlier)
    ↔ later - earlier ≠ half
  := by
  rw [timeIsLaterOrEqual_eq_iff, timeIsLater_eq false, timeDiff_eq, timeDiff_eq]
  simp only [and_true]

/-- The implementations disagree on whether the reading `half` is later than the reading
`0`. -/
theorem not_implementations_agree :
  timeIsLaterOrEqual true 0 half = false ∧ timeIsLaterOrEqual false 0 half = true
  := by decide

/-! ### Order -/

/-- Whichever implementation is built, `TimeIsLaterOrEqual` finds out that less than half a
revolution has passed. -/
theorem timeIsLaterOrEqual_iff_of_ne
    (efficientImplementation : Bool) {earlier later : UInt32} (h : later - earlier ≠ half) :
  timeIsLaterOrEqual efficientImplementation earlier later = true ↔ later - earlier < half
  := by
  cases efficientImplementation with
  | true => apply timeIsLaterOrEqual_efficient
  | false =>
    rw [← (timeIsLaterOrEqual_eq_iff earlier later).mpr h]
    apply timeIsLaterOrEqual_efficient

/-- For times less than half a revolution apart, the difference of the readings is within half
a revolution when the first time is not the later one. -/
theorem time_sub_lt_half_iff
    {s t : Timespec} (h : ((t.millis : ℤ) - s.millis).natAbs < 2147483648) :
  (time t - time s < half ↔ s.millis ≤ t.millis) ∧ time t - time s ≠ half
  := by
  have hsplit := (toInt_time_sub h).symm.trans (toInt_toInt32 (time t - time s))
  have hlt := (time t - time s).toNat_lt
  have hhalf : half.toNat = 2147483648 := rfl
  simp only [UInt32.lt_iff_toNat_lt, ne_eq, ← UInt32.toNat_inj, hhalf] at hsplit ⊢
  split_ifs at hsplit
  · omega
  · omega

/-- A reading is the same as another one less than half a revolution away exactly when the
times are. -/
theorem time_eq_iff {s t : Timespec} (h : ((t.millis : ℤ) - s.millis).natAbs < 2147483648) :
  time t = time s ↔ t.millis = s.millis
  := by
  constructor
  · intro heq
    have hdiff := toInt_time_sub h
    rw [heq, UInt32.sub_self] at hdiff
    have hzero : UInt32.toInt32 0 = 0 := rfl
    rw [hzero, Int32.toInt_zero] at hdiff
    omega
  · intro heq
    rw [← UInt32.toBitVec_inj, toBitVec_time, toBitVec_time, heq]

/-- Readings are ordered like the times they were taken at, whichever implementation is built
and however often the clock has wrapped: for two times less than half a revolution apart, and
for a time and the reading that `TimeAfter` returns at it. -/
theorem readings_ordered
    (efficientImplementation : Bool) (s t : Timespec)
    (h : ((t.millis : ℤ) - s.millis).natAbs < 2147483648) (elapsed : Int32)
    (helapsed : Accepts elapsed) :
  (timeDiff efficientImplementation (time t) (time s)).toInt = t.millis - s.millis
    ∧ (timeIsLater efficientImplementation (time s) (time t) = true ↔ s.millis < t.millis)
    ∧ (timeIsLaterOrEqual efficientImplementation (time s) (time t) = true
      ↔ s.millis ≤ t.millis)
    ∧ timeDiff efficientImplementation (timeAfter s elapsed) (time s) = elapsed
    ∧ timeIsLaterOrEqual efficientImplementation (time s) (timeAfter s elapsed) = true
  := by
  obtain ⟨hle, hne⟩ := time_sub_lt_half_iff h
  have hafter : timeAfter s elapsed - time s = elapsed.toUInt32 := by
    rw [timeAfter, UInt32.add_comm, UInt32.add_sub_cancel]
  constructor
  · rw [timeDiff_eq]
    apply toInt_time_sub h
  · constructor
    · rw [timeIsLater_eq, timeIsLater_efficient, hle, ne_eq, time_eq_iff h]
      omega
    · constructor
      · rw [timeIsLaterOrEqual_iff_of_ne efficientImplementation hne]
        apply hle
      · constructor
        · rw [timeDiff_eq, hafter]
          rfl
        · rw [timeIsLaterOrEqual_iff_of_ne, hafter]
          · apply helapsed.2
          · rw [hafter]
            apply UInt32.ne_of_lt helapsed.2

/-- The hypotheses of `readings_ordered` are met by two times between which the clock wraps,
and by a day. -/
theorem readings_ordered_across_wrap :
  let s : Timespec := ⟨4294967, 295000000, by decide⟩
  let t : Timespec := ⟨4294967, 296000000, by decide⟩
  (timeDiff true (time t) (time s)).toInt = t.millis - s.millis
    ∧ (timeIsLater true (time s) (time t) = true ↔ s.millis < t.millis)
    ∧ (timeIsLaterOrEqual true (time s) (time t) = true ↔ s.millis ≤ t.millis)
    ∧ timeDiff true (timeAfter s 86400000) (time s) = 86400000
    ∧ timeIsLaterOrEqual true (time s) (timeAfter s 86400000) = true
  := by
  apply readings_ordered
  · decide
  · decide

end TimeHelper
