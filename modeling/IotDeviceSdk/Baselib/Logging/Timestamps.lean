import IotDeviceSdk.Baselib.Logging.Basic
import IotDeviceSdk.Baselib.TimeHelper
import Mathlib.Data.Prod.Lex

/-!
# The timestamps of log messages

A timestamp shows the second of the wall clock and, after a dot, the milliseconds of the time
that has passed since `start`.  These run through their thousand values out of step with the
seconds of the wall clock: see `stamp_le_stamp_iff` for when two timestamps are in order, and
`stamps_ordered_iff` for when all of them are.
-/

namespace LogMessage

open CString StringHelper TimeHelper

/-- The clocks of a machine, each of which is ahead of real time by a fixed number of
milliseconds. -/
structure Clocks where
  wall : ℤ
  monotonic : ℕ

/-- The wall clock at the time `t`, in seconds. -/
def Clocks.second (k : Clocks) (t : ℕ) : ℤ :=
  (t + k.wall) / 1000

/-- The monotonic clock at the time `t`, in milliseconds. -/
def Clocks.reading (k : Clocks) (t : ℕ) : UInt32 :=
  UInt32.ofNat (t + k.monotonic)

/-- The number of milliseconds in the timestamp of a message that is constructed when the
monotonic clock shows `time`. -/
def millis (time start : UInt32) : ℕ :=
  ((timeDiff true time start).toUInt32 % 1000).toNat

/-- The second and the milliseconds in the timestamp of a message that is constructed at the
time `t`, when `start` was stored at the time `t₀`. -/
def Clocks.stamp (k : Clocks) (t₀ t : ℕ) : ℤ ×ₗ ℕ :=
  toLex (k.second t, millis (k.reading t) (k.reading t₀))

/-- What a message finds around it when it is constructed at the time `t`. -/
def Clocks.env (k : Clocks) (localtime : ℤ → Tm) (threadId : Int64)
    (strerror : Int32 → List UInt8) (t : ℕ) : Env where
  time := k.reading t
  tm := localtime (k.second t)
  threadId := threadId
  strerror := strerror

/-- A message begins with its timestamp. -/
theorem header_of_timestamp
    {s : State} (hs : s.timestamp = true) (k : Clocks) {t₀ : ℕ} (hstart : s.start = k.reading t₀)
    (localtime : ℤ → Tm) (threadId : Int64) (strerror : Int32 → List UInt8) (t : ℕ)
    (m : Statement) :
  ascii "[" ++ timeString (localtime (ofLex (k.stamp t₀ t)).1) ++ ascii "."
      ++ (valueOf (ofLex (k.stamp t₀ t)).2).leftpad 3 48 ++ ascii "]"
    <+: header s (k.env localtime threadId strerror t) m
  := by
  rw [header, if_pos hs, hstart]
  apply (List.prefix_append _ _).trans
  apply List.prefix_append

/-- Within a revolution of the monotonic clock since `start`, the milliseconds are those of the
time that has passed. -/
theorem millis_reading (k : Clocks) {t₀ t : ℕ} (hle : t₀ ≤ t) (h : t - t₀ < 4294967296) :
  millis (k.reading t) (k.reading t₀) = (t - t₀) % 1000
  := by
  have hsub : (k.reading t - k.reading t₀).toNat = t + k.monotonic - (t₀ + k.monotonic) :=
    CircularTime.toNat_reading_sub (Nat.add_le_add_right hle k.monotonic) (by omega)
  rw [millis, timeDiff_eq, UInt32.toUInt32_toInt32, UInt32.toNat_mod, hsub,
    Nat.add_sub_add_right]
  rfl

/-- Two timestamps are in order exactly when the seconds of the wall clock tell the messages
apart, or these are in the same second since `start`. -/
theorem stamp_le_stamp_iff
    (k : Clocks) {t₀ t₁ t₂ : ℕ} (h₁ : t₀ ≤ t₁) (h₂ : t₁ ≤ t₂) (h : t₂ - t₀ < 4294967296) :
  k.stamp t₀ t₁ ≤ k.stamp t₀ t₂
    ↔ k.second t₁ ≠ k.second t₂ ∨ (t₁ - t₀) / 1000 = (t₂ - t₀) / 1000
  := by
  have hmono : k.second t₁ ≤ k.second t₂ := by
    rw [Clocks.second, Clocks.second]
    omega
  rw [Clocks.stamp, Clocks.stamp, Prod.Lex.toLex_le_toLex', millis_reading k h₁ (by omega),
    millis_reading k (h₁.trans h₂) h, and_iff_right hmono, ne_eq, ← imp_iff_not_or]
  apply imp_congr_right
  intro hsecond
  rw [Clocks.second, Clocks.second] at hsecond
  omega

/-- Two timestamps are in order exactly when the seconds of the wall clock tell the messages
apart, or these are in the same second since `start`.  All timestamps are in order exactly when
`start` was stored at the start of a second of the wall clock. -/
theorem stamps_ordered_iff
    (k : Clocks) (t₀ t₁ t₂ : ℕ) (h₁ : t₀ ≤ t₁) (h₂ : t₁ ≤ t₂) (h : t₂ - t₀ < 4294967296) :
  (k.stamp t₀ t₁ ≤ k.stamp t₀ t₂
      ↔ k.second t₁ ≠ k.second t₂ ∨ (t₁ - t₀) / 1000 = (t₂ - t₀) / 1000)
    ∧ ((∀ s₁ s₂, t₀ ≤ s₁ → s₁ ≤ s₂ → s₂ - t₀ < 4294967296 → k.stamp t₀ s₁ ≤ k.stamp t₀ s₂)
      ↔ (1000 : ℤ) ∣ t₀ + k.wall)
  := by
  constructor
  · apply stamp_le_stamp_iff k h₁ h₂ h
  · constructor
    · intro hall
      have hlast := hall (t₀ + 999) (t₀ + 1000) (by omega) (by omega) (by omega)
      rw [stamp_le_stamp_iff k (by omega) (by omega) (by omega), Clocks.second,
        Clocks.second] at hlast
      omega
    · intro hdvd s₁ s₂ hs₁ hs₂ hs
      rw [stamp_le_stamp_iff k hs₁ hs₂ hs, Clocks.second, Clocks.second]
      omega

/-- The hypotheses of `stamps_ordered_iff` are met by two messages that are a second apart. -/
theorem stamps_second_apart_ordered_iff :
  let k : Clocks := ⟨1533516600000, 0⟩
  (k.stamp 500 1400 ≤ k.stamp 500 2400
      ↔ k.second 1400 ≠ k.second 2400 ∨ (1400 - 500) / 1000 = (2400 - 500) / 1000)
    ∧ ((∀ s₁ s₂, 500 ≤ s₁ → s₁ ≤ s₂ → s₂ - 500 < 4294967296 →
        k.stamp 500 s₁ ≤ k.stamp 500 s₂)
      ↔ (1000 : ℤ) ∣ (500 : ℕ) + k.wall)
  := by
  apply stamps_ordered_iff
  · decide
  · decide
  · decide

/-- Of two messages that are a tenth of a second apart, the later one shows the earlier time,
when `start` was stored half a second into a second.  These are the times that they begin with. -/
theorem not_stamps_ordered :
  let k : Clocks := ⟨1533516600000, 0⟩
  k.stamp 500 1400 = toLex (1533516601, 900) ∧ k.stamp 500 1500 = toLex (1533516601, 0)
    ∧ ¬ k.stamp 500 1400 ≤ k.stamp 500 1500
    ∧ ∀ (s : State) (localtime : ℤ → Tm) (threadId : Int64) (strerror : Int32 → List UInt8)
        (m : Statement), s.timestamp = true → s.start = k.reading 500 →
      ascii "[" ++ timeString (localtime 1533516601) ++ ascii ".900]"
          <+: header s (k.env localtime threadId strerror 1400) m
        ∧ ascii "[" ++ timeString (localtime 1533516601) ++ ascii ".000]"
          <+: header s (k.env localtime threadId strerror 1500) m
  := by
  intro k
  have hfirst : k.stamp 500 1400 = toLex (1533516601, 900) := by decide
  have hsecond : k.stamp 500 1500 = toLex (1533516601, 0) := by decide
  use hfirst, hsecond
  constructor
  · rw [hfirst, hsecond]
    decide
  · intro s localtime threadId strerror m hs hstart
    constructor
    · have hbegins := header_of_timestamp hs k hstart localtime threadId strerror 1400 m
      rw [hfirst, List.append_assoc, List.append_assoc] at hbegins
      exact hbegins
    · have hbegins := header_of_timestamp hs k hstart localtime threadId strerror 1500 m
      rw [hsecond, List.append_assoc, List.append_assoc] at hbegins
      exact hbegins

end LogMessage
