import IotDeviceSdk.Baselib.RollingFileLogger.SizeCounter
import IotDeviceSdk.Foundation.Backlog
import IotDeviceSdk.Foundation.CircularTime
import Mathlib.Data.List.Chain

/-!
# How long log data stays buffered

`LogData` flushes when the last call was more than 5000 ms ago, not when the last flush was.  So
messages that follow each other closely stay in the buffer of the stream until the log file is
rotated, however long that takes: see `flushed_in_time_iff`.
-/

namespace RollingFileLogger

open CString

/-- A call of `LogData` with the true times, in milliseconds, at which it reads the clock. -/
structure TimedCall where
  data : List UInt8
  time : ℕ
  tick : ℕ
  fwrite : ℕ
  remove : Bool
  rename : Bool
  fopen : Bool
  time_le : time ≤ tick

namespace TimedCall

/-- The call with what the clock shows. -/
def call (c : TimedCall) : LogCall where
  data := c.data
  outcomes := {
    time := UInt32.ofNat c.time
    tick := UInt32.ofNat c.tick
    fwrite := c.fwrite
    remove := c.remove
    rename := c.rename
    fopen := c.fopen }

/-- The bytes that the call hands over to the stream. -/
def handedOver (c : TimedCall) : List UInt8 :=
  c.data.take c.fwrite

/-- `c` comes more than 5000 ms after `a`. -/
def Late (a c : TimedCall) : Prop :=
  a.time + 5000 < c.time

/-- The calls are in order, with less than `2 ^ 31` ms from one to the next. -/
def Ordered (cs : List TimedCall) : Prop :=
  cs.IsChain fun a b => a.tick ≤ b.time ∧ b.time - a.time < 2 ^ 31

/-- More than 5000 ms have passed since the last call before `b`; or, if there is none, since the
clock showed zero. -/
def Gap (pre : List TimedCall) (b : TimedCall) : Prop :=
  match pre.getLast? with
  | none => 5000 < b.time % 2 ^ 32
  | some a => a.tick + 5000 < b.time

end TimedCall

open TimedCall

/-- A timed call of `LogData`. -/
def timedStep (s : Session) (c : TimedCall) : Session :=
  step s c.call

/-- The timed calls in order, after the constructor. -/
def timedRun (name : List UInt8) (o : OpenOutcomes) (files : List UInt8 → Option (List UInt8))
    (cs : List TimedCall) : Session :=
  cs.foldl timedStep (construct (some name) o (Stdio.Fs.boot files))

/-- What has been handed over, but not pushed to the log file. -/
def pending (s : Session) : List UInt8 :=
  (s.1.pfLogFile.map s.2.buffered).getD []

/-- The call flushes the log file or rotates it away. -/
def Pushes (s : Session) (c : TimedCall) : Prop :=
  5000 < UInt32.ofNat c.time - s.1.nLogTick.toUInt32 ∨ maxLogFileSize < s.1.sizeAfter c.data

/-! ### What a call does to the buffer -/

/-- Nothing is pending for an empty log, or one that is not open. -/
theorem pending_eq_nil {s : Session} (h : openLog s = none ∨ openLog s = some []) :
  pending s = []
  := by
  rw [pending]
  cases hf : s.1.pfLogFile with
  | none => rfl
  | some f =>
    rw [openLog, hf, Option.bind_some] at h
    rw [Option.map_some, Option.getD_some, Stdio.Fs.buffered]
    cases hs : s.2.streams f with
    | none => rfl
    | some t =>
      have hnil : s.2.data t.inode = [] ∧ t.buffer = [] := by
        simpa [Stdio.Fs.written, hs] using h
      apply hnil.2

/-- Writing leaves the accepted bytes in the buffer, unless it flushes. -/
theorem buffered_write
    {w : Disk} {f : Stdio.Handle} {d : List UInt8} (h : w.written f = some d)
    (l : RollingFileLogger) (data : List UInt8) (o : LogOutcomes) :
  (l.write f data o w).2.buffered f
    = if 5000 < o.time - l.nLogTick.toUInt32 then [] else w.buffered f ++ data.take o.fwrite
  := by
  rw [write]
  split
  · apply Stdio.Fs.buffered_fflush
  · apply Stdio.Fs.buffered_fwrite h

/-- What is pending after a call that stays within the limit. -/
theorem pending_timedStep_of_not_over
    {s : Session} (hopen : openLog s ≠ none) {c : TimedCall}
    (hover : ¬ maxLogFileSize < s.1.sizeAfter c.data) :
  pending (timedStep s c)
    = if 5000 < UInt32.ofNat c.time - s.1.nLogTick.toUInt32 then []
      else pending s ++ c.handedOver
  := by
  obtain ⟨d, hd⟩ := Option.ne_none_iff_exists'.mp hopen
  obtain ⟨f, hf, hwritten⟩ := Option.bind_eq_some_iff.mp hd
  have hstep : timedStep s c = s.1.write f c.data c.call.outcomes s.2 := by
    rw [timedStep, step]
    exact (logData_of_open hf c.data c.call.outcomes s.2).trans (if_neg hover)
  rw [hstep, pending, write_pfLogFile, pending, hf]
  apply buffered_write hwritten

/-- The buffer of the log file: a call pushes all that is pending, or adds its data. -/
theorem buffer_timedStep :
  Backlog.Buffer timedStep pending handedOver (fun s => openLog s ≠ none) Pushes
  where
  of_pushes := by
    intro s c hopen hpush
    by_cases hover : maxLogFileSize < s.1.sizeAfter c.data
    · apply pending_eq_nil
      apply (openLog_step_of_over (c := c.call) hover).imp_right And.left
    · rw [pending_timedStep_of_not_over hopen hover, if_pos (hpush.resolve_right hover)]
  of_not_pushes := by
    intro s c hopen hpush
    rw [Pushes, not_or] at hpush
    rw [pending_timedStep_of_not_over hopen hpush.2, if_neg hpush.1]

/-- The constructor leaves nothing in the buffer, and a tick of zero. -/
theorem pending_construct (name : List UInt8) (o : OpenOutcomes) (w : Disk) :
  pending (construct (some name) o w) = [] ∧ (construct (some name) o w).1.nLogTick = 0
  := by
  rw [construct]
  simp only
  split
  · exact ⟨rfl, rfl⟩
  · next f hf =>
    split
    · exact ⟨Stdio.Fs.buffered_of_fopen hf, rfl⟩
    · refine ⟨?_, rfl⟩
      rw [pending]
      cases o.reopen with
      | false => rfl
      | true => apply Stdio.Fs.buffered_of_fopen rfl

/-! ### The tick -/

/-- A call on an open log stores its tick. -/
theorem nLogTick_timedStep
    {s : Session} (hopen : openLog s ≠ none) (c : TimedCall) :
  (timedStep s c).1.nLogTick = (UInt32.ofNat c.tick).toInt32
  := by
  obtain ⟨d, hd⟩ := Option.ne_none_iff_exists'.mp hopen
  obtain ⟨f, hf, hwritten⟩ := Option.bind_eq_some_iff.mp hd
  rw [timedStep, step]
  rw [logData_of_open hf]
  split
  · rw [rotate]
    simp only
    split
    · rfl
    · rfl
  · rfl

/-- The difference to the tick tells whether more than 5000 ms have passed. -/
theorem lt_reading_sub_iff {t₀ t : ℕ} (hle : t₀ ≤ t) (h : t - t₀ < 2 ^ 32) :
  5000 < UInt32.ofNat t - (UInt32.ofNat t₀).toInt32.toUInt32 ↔ t₀ + 5000 < t
  := by
  have hsub : (UInt32.ofNat t - UInt32.ofNat t₀).toNat = t - t₀ :=
    CircularTime.toNat_reading_sub hle h
  rw [UInt32.toUInt32_toInt32, UInt32.lt_iff_toNat_lt, hsub,
    show (5000 : UInt32).toNat = 5000 from rfl]
  omega

/-- Whether a call flushes depends on the true times only. -/
theorem flushes_iff
    (name : List UInt8) (o : OpenOutcomes) (files : List UInt8 → Option (List UInt8))
    {pre : List TimedCall} {b : TimedCall} (hordered : Ordered (pre ++ [b]))
    (hopen : Run.Guarded timedStep (fun s _ => openLog s ≠ none)
      (construct (some name) o (Stdio.Fs.boot files)) pre) :
  5000 < UInt32.ofNat b.time - (timedRun name o files pre).1.nLogTick.toUInt32 ↔ Gap pre b
  := by
  induction pre using List.reverseRecOn with
  | nil =>
    have htick : (timedRun name o files []).1.nLogTick = 0 :=
      (pending_construct name o (Stdio.Fs.boot files)).2
    rw [htick, Gap, show (0 : Int32).toUInt32 = 0 from rfl, UInt32.sub_zero, UInt32.lt_iff_toNat_lt,
      UInt32.toNat_ofNat']
    rfl
  | append_singleton pre a =>
    obtain ⟨-, hopen, -⟩ := Run.guarded_append.mp hopen
    have hchain : a.tick ≤ b.time ∧ b.time - a.time < 2 ^ 31 := by
      rw [Ordered, List.append_assoc] at hordered
      apply (List.isChain_append_cons_cons.mp hordered).2.1
    have hle := a.time_le
    rw [timedRun, List.foldl_concat, nLogTick_timedStep hopen, Gap, List.getLast?_concat]
    apply lt_reading_sub_iff hchain.1
    omega

/-! ### Runs -/

/-- A call that is late for a call is late for all calls before that. -/
theorem TimedCall.Ordered.late {cs : List TimedCall} (h : Ordered cs) :
  cs.Pairwise fun a b => ∀ c, Late b c → Late a c
  := by
  have hchain : (cs.map TimedCall.time).IsChain (· ≤ ·) := by
    rw [List.isChain_map]
    apply List.IsChain.imp _ h
    intro a b hab
    apply a.time_le.trans hab.1
  have hpairwise := List.pairwise_map.mp hchain.pairwise
  apply hpairwise.imp
  intro a b hle c hlate
  rw [Late] at hlate ⊢
  omega

/-- A part of a run pushes when some call came more than 5000 ms after the one before it, or
exceeded the limit. -/
theorem not_quiet_iff
    (name : List UInt8) (o : OpenOutcomes) (files : List UInt8 → Option (List UInt8))
    {pre cs post : List TimedCall} (hordered : Ordered (pre ++ (cs ++ post)))
    (hopen : Run.Guarded timedStep (fun s _ => openLog s ≠ none)
      (construct (some name) o (Stdio.Fs.boot files)) (pre ++ (cs ++ post))) :
  ¬ Run.Guarded timedStep (fun s c => ¬ Pushes s c) (timedRun name o files pre) cs
    ↔ ∃ pre' b post', cs = pre' ++ b :: post'
      ∧ (Gap (pre ++ pre') b
        ∨ maxLogFileSize < (timedRun name o files (pre ++ pre')).1.sizeAfter b.data)
  := by
  rw [Run.not_guarded_not_iff]
  apply exists_congr; intro pre'
  apply exists_congr; intro b
  apply exists_congr; intro post'
  apply and_congr_right
  rintro rfl
  have hsplit : pre ++ (pre' ++ b :: post' ++ post)
      = (pre ++ pre') ++ ([b] ++ (post' ++ post)) := by
    simp
  have hflushes : 5000 < UInt32.ofNat b.time
      - (timedRun name o files (pre ++ pre')).1.nLogTick.toUInt32 ↔ Gap (pre ++ pre') b := by
    apply flushes_iff
    · rw [Ordered, hsplit, ← List.append_assoc] at hordered
      apply hordered.left_of_append
    · rw [hsplit] at hopen
      apply (Run.guarded_append.mp hopen).1
  rw [← hflushes, timedRun, timedRun, ← List.foldl_append]
  rfl

/-- When a call returns on an open log, all bytes that were handed over by a call more than
5000 ms earlier have been pushed, exactly when in between, wherever some bytes were handed over
by such a call, some call came more than 5000 ms after the one before it, or exceeded the
limit. -/
theorem flushed_in_time_iff
    (name : List UInt8) (o : OpenOutcomes) (files : List UInt8 → Option (List UInt8))
    (cs : List TimedCall) (hordered : Ordered cs)
    (hopen : ∀ pre c post, cs = pre ++ c :: post → openLog (timedRun name o files pre) ≠ none) :
  (∀ pre a mid c post, cs = pre ++ a :: (mid ++ c :: post) → Late a c →
      pending (timedRun name o files (pre ++ a :: (mid ++ [c])))
        <:+ (mid ++ [c]).flatMap handedOver)
    ↔ ∀ pre a mid c post, cs = pre ++ a :: (mid ++ c :: post) → Late a c → a.handedOver ≠ [] →
      ∃ pre' b post', a :: (mid ++ [c]) = pre' ++ b :: post'
        ∧ (Gap (pre ++ pre') b
          ∨ maxLogFileSize < (timedRun name o files (pre ++ pre')).1.sizeAfter b.data)
  := by
  have hguarded : Run.Guarded timedStep (fun s _ => openLog s ≠ none)
      (construct (some name) o (Stdio.Fs.boot files)) cs := Run.guarded_iff.mpr hopen
  have hnil := (pending_construct name o (Stdio.Fs.boot files)).1
  apply (buffer_timedStep.aged_iff hguarded hnil hordered.late).trans
  apply forall₅_congr
  intro pre a mid c post
  apply imp_congr_right; intro hsplit
  apply imp_congr_right; intro _
  apply imp_congr_right; intro _
  have hcs : cs = pre ++ (a :: (mid ++ [c]) ++ post) := by simp [hsplit]
  rw [hcs] at hordered hguarded
  apply not_quiet_iff name o files hordered hguarded

/-- A message of one byte at the time `t`. -/
def byteAt (t : ℕ) (b : UInt8) : TimedCall where
  data := [b]
  time := t
  tick := t
  fwrite := 1
  remove := true
  rename := true
  fopen := true
  time_le := le_rfl

/-- A message every three seconds. -/
def steadyStream : List TimedCall :=
  [byteAt 10000 1, byteAt 13000 2, byteAt 16000 3, byteAt 19000 4]

/-- The hypotheses of `flushed_in_time_iff` are met by a message every three seconds. -/
theorem steadyStream_flushed_in_time_iff :
  let run := timedRun (ascii "test.log") ⟨true, true, true, true, true⟩ fun _ => none
  (∀ pre a mid c post, steadyStream = pre ++ a :: (mid ++ c :: post) → Late a c →
      pending (run (pre ++ a :: (mid ++ [c]))) <:+ (mid ++ [c]).flatMap handedOver)
    ↔ ∀ pre a mid c post, steadyStream = pre ++ a :: (mid ++ c :: post) → Late a c →
      a.handedOver ≠ [] →
      ∃ pre' b post', a :: (mid ++ [c]) = pre' ++ b :: post'
        ∧ (Gap (pre ++ pre') b ∨ maxLogFileSize < (run (pre ++ pre')).1.sizeAfter b.data)
  := by
  apply flushed_in_time_iff (ascii "test.log") ⟨true, true, true, true, true⟩ fun _ => none
  · rw [Ordered]
    decide
  · have hguarded : Run.Guarded timedStep (fun s _ => openLog s ≠ none)
        (construct (some (ascii "test.log")) ⟨true, true, true, true, true⟩
          (Stdio.Fs.boot fun _ => none)) steadyStream :=
      ⟨by decide, by decide, by decide, by decide, trivial⟩
    apply Run.guarded_iff.mp hguarded

/-- Of messages that come every three seconds, the one of six seconds ago has not been
pushed. -/
theorem not_flushed_in_time :
  steadyStream = [byteAt 10000 1] ++ byteAt 13000 2 :: ([byteAt 16000 3] ++ byteAt 19000 4 :: [])
    ∧ Late (byteAt 13000 2) (byteAt 19000 4)
    ∧ pending (timedRun (ascii "test.log") ⟨true, true, true, true, true⟩ (fun _ => none)
        steadyStream) = [2, 3, 4]
    ∧ ¬ [2, 3, 4] <:+ ([byteAt 16000 3] ++ [byteAt 19000 4]).flatMap handedOver
  := by
  constructor
  · rfl
  · constructor
    · rw [Late]
      decide
    · constructor
      · decide
      · decide

end RollingFileLogger
