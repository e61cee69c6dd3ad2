import IotDeviceSdk.Baselib.RollingFileLogger.Basic

/-!
# The handle of the rolling file logger

Over its lifetime a logger touches a handle only while the handle is open, and closes
every handle it opened exactly once, as long as no rotation fails to rename the log file.
A rotation that fails leaves a closed handle in `pfLogFile`; whatever comes next touches
it, if only the destructor.
-/

namespace RollingFileLogger

open HandleTrace CString

/-- The file system that is left after a logger was constructed, received the calls `cs`
and was destructed. -/
def lifetime (pszFilename : Option (List UInt8)) (o : OpenOutcomes) (cs : List LogCall)
    (w : Disk) : Disk :=
  let s := run (construct pszFilename o w) cs
  s.1.destruct s.2

/-- The call takes an open log past its limit, and the log file cannot be renamed. -/
def RotationFails (s : Session) (c : LogCall) : Prop :=
  s.1.pfLogFile ≠ none ∧ maxLogFileSize < s.1.sizeAfter c.data ∧ c.outcomes.rename = false

/-- The handle of the logger, if there is one, is its only live handle, and its stream is
open on the log file. -/
structure Tidy (s : Session) : Prop where
  owns : Owns s.2.trace s.1.pfLogFile
  openOn : ∀ f, s.1.pfLogFile = some f → s.2.OpenOn f s.1.strFilename

/-! ### Opening a file -/

/-- Whether or not a file can be opened, the result of `fopen` is the handle held. -/
theorem owns_fopen {w : Disk} (h : Owns w.trace none) (name : List UInt8) (ok : Bool) :
  Owns (w.fopen name ok).2.trace (w.fopen name ok).1
  := by
  rw [Stdio.Fs.trace_fopen]
  cases ok with
  | false => simpa [Stdio.Fs.fopen] using h
  | true => apply h.acquire w.acquire_nextHandle_notMem

theorem Tidy.of_fopen
    {w : Disk} (h : Owns w.trace none) (name : List UInt8) (ok : Bool) (tick : Int32)
    (size : UInt32) :
  Tidy (⟨name, (w.fopen name ok).1, tick, size⟩, (w.fopen name ok).2)
  where
  owns := owns_fopen h name ok
  openOn _ hf := Stdio.Fs.OpenOn.of_fopen hf

/-- The constructor leaves a tidy state, whatever the outcomes of its calls. -/
theorem tidy_construct
    (pszFilename : Option (List UInt8)) (o : OpenOutcomes) {w : Disk} (h : Owns w.trace none) :
  Tidy (construct pszFilename o w)
  := by
  cases pszFilename with
  | none =>
    constructor
    · apply h
    · nofun
  | some name =>
    rw [construct]
    simp only
    have hfopen := owns_fopen h name o.fopen
    split
    · next hnull =>
      constructor
      · rw [← hnull]
        apply hfopen
      · nofun
    · next f hf =>
      rw [hf] at hfopen
      split
      · constructor
        · rw [Stdio.Fs.trace_ftell, Stdio.Fs.trace_fseek]
          apply hfopen.use.use
        · rintro g hg
          obtain rfl := Option.some.inj hg
          apply Stdio.Fs.OpenOn.of_fopen hf
      · apply Tidy.of_fopen
        rw [Stdio.Fs.trace_remove, Stdio.Fs.trace_fclose, Stdio.Fs.trace_fseek]
        apply hfopen.use.release

/-! ### Writing and rotating -/

/-- Writing uses the handle. -/
theorem trace_write (l : RollingFileLogger) (f : Stdio.Handle) (data : List UInt8)
    (o : LogOutcomes) (w : Disk) :
  (l.write f data o w).2.trace = w.trace ++ [.use f]
    ∨ (l.write f data o w).2.trace = w.trace ++ [.use f] ++ [.use f]
  := by
  rw [write]
  split
  · right
    simp
  · left
    simp

theorem owns_write
    {w : Disk} {f : Stdio.Handle} (h : Owns w.trace (some f)) (l : RollingFileLogger)
    (data : List UInt8) (o : LogOutcomes) :
  Owns (l.write f data o w).2.trace (some f)
  := by
  rcases l.trace_write f data o w with ht | ht
  · rw [ht]
    apply h.use
  · rw [ht]
    apply h.use.use

/-- Up to the renaming, a rotation closes the handle and touches no other. -/
theorem trace_renameLog (l : RollingFileLogger) (f : Stdio.Handle) (o : LogOutcomes) (w : Disk) :
  (l.renameLog f o w).2.trace = w.trace ++ [.release f]
  := by
  rw [renameLog, Stdio.Fs.trace_rename, Stdio.Fs.trace_remove, Stdio.Fs.trace_fclose]

/-- A rotation that can rename the log file leaves a tidy state. -/
theorem tidy_rotate
    {l : RollingFileLogger} {f : Stdio.Handle} {o : LogOutcomes} {w : Disk}
    (howns : Owns w.trace (some f)) (hrename : (l.renameLog f o w).1 = true) :
  Tidy (l.rotate f o w)
  := by
  rw [rotate_of_renamed hrename]
  apply Tidy.of_fopen
  rw [trace_renameLog]
  apply howns.release

/-! ### The lifetime of a logger -/

/-- A call keeps a tidy state tidy, unless its rotation fails. -/
theorem tidy_step {s : Session} {c : LogCall} (h : Tidy s) (hc : ¬ RotationFails s c) :
  Tidy (step s c)
  := by
  rw [step]
  cases hf : s.1.pfLogFile with
  | none =>
    rw [logData_of_null hf]
    apply h
  | some f =>
    have howns := h.owns
    rw [hf] at howns
    have hwrite := owns_write howns s.1 c.data c.outcomes
    have hopen := openOn_write (h.openOn f hf) s.1 c.data c.outcomes
    rw [logData_of_open hf]
    split
    · next hover =>
      apply tidy_rotate hwrite
      apply Eq.trans (renameLog_fst_of_openOn hopen c.outcomes)
      by_contra hfails
      apply hc
      simpa [RotationFails, hf, hover] using hfails
    · constructor
      · rw [write_pfLogFile, hf]
        apply hwrite
      · intro g hg
        rw [write_pfLogFile, hf] at hg
        obtain rfl := Option.some.inj hg
        apply hopen

/-- A rotation that fails leaves a dead handle in the logger. -/
theorem dead_of_rotationFails {s : Session} {c : LogCall} (h : RotationFails s c) :
  ∃ f, (step s c).1.pfLogFile = some f ∧ ¬ Live (step s c).2.trace f
  := by
  obtain ⟨hnull, hover, hrename⟩ := h
  obtain ⟨f, hf⟩ := Option.ne_none_iff_exists'.mp hnull
  use f
  rw [step]
  rw [logData_of_open hf, if_pos hover,
    rotate_of_not_renamed (renameLog_fst_of_fails hrename _ f _), trace_renameLog]
  constructor
  · apply hf
  · simp [live_concat_iff]

/-- A call adds to the trace, and starts by using the handle if there is one. -/
theorem trace_step (s : Session) (c : LogCall) :
  ∃ u, (step s c).2.trace = s.2.trace ++ u
    ∧ ∀ f, s.1.pfLogFile = some f → ∃ v, u = .use f :: v
  := by
  rw [step]
  cases hf : s.1.pfLogFile with
  | none =>
    rw [logData_of_null hf]
    use []
    simp
  | some f =>
    obtain ⟨u, hu⟩ : ∃ u, (s.1.write f c.data c.outcomes s.2).2.trace
        = s.2.trace ++ .use f :: u := by
      rcases s.1.trace_write f c.data c.outcomes s.2 with ht | ht
      · exact ⟨[], ht⟩
      · exact ⟨[.use f], by simpa using ht⟩
    rw [logData_of_open hf]
    split
    · obtain ⟨v, hv⟩ : ∃ v, ((s.1.write f c.data c.outcomes s.2).1.rotate f c.outcomes
          (s.1.write f c.data c.outcomes s.2).2).2.trace = s.2.trace ++ .use f :: v := by
        rw [rotate]
        simp only
        split
        · rw [Stdio.Fs.trace_fopen, trace_renameLog, hu]
          simp
        · rw [trace_renameLog, hu]
          simp
      use .use f :: v
      simp [hv]
    · use .use f :: u
      simp [hu]

/-- The calls and the destructor add to the trace. -/
theorem trace_destruct_run (s : Session) (cs : List LogCall) :
  ∃ u, ((run s cs).1.destruct (run s cs).2).trace = s.2.trace ++ u
  := by
  induction cs generalizing s with
  | nil =>
    rw [destruct]
    split
    · use []
      simp [run]
    · simp [run]
  | cons c cs ih =>
    obtain ⟨u, hu, -⟩ := trace_step s c
    obtain ⟨v, hv⟩ := ih (step s c)
    use u ++ v
    rw [← List.append_assoc, ← hu]
    apply hv

/-- A logger with a dead handle will touch it. -/
theorem not_usesLive_of_dead
    {s : Session} {f : Stdio.Handle} (hf : s.1.pfLogFile = some f) (hd : ¬ Live s.2.trace f)
    (cs : List LogCall) :
  ¬ UsesLive ((run s cs).1.destruct (run s cs).2).trace
  := by
  cases cs with
  | nil =>
    simp only [run, List.foldl_nil, destruct, hf, Stdio.Fs.trace_fclose]
    apply HandleTrace.not_usesLive_of_dead (Or.inr rfl) hd
  | cons c cs =>
    obtain ⟨u, hu, hhead⟩ := trace_step s c
    obtain ⟨v, hv⟩ := trace_destruct_run (step s c) cs
    obtain ⟨u, rfl⟩ := hhead f hf
    rw [show run s (c :: cs) = run (step s c) cs from rfl, hv, hu, List.append_assoc]
    apply HandleTrace.not_usesLive_of_dead (Or.inl rfl) hd

/-- From a tidy state on, handles are used well exactly when no rotation fails. -/
theorem Tidy.disciplined_iff {s : Session} (h : Tidy s) (cs : List LogCall) :
  Disciplined ((run s cs).1.destruct (run s cs).2).trace
    ↔ Run.Guarded step (fun s c => ¬ RotationFails s c) s cs
  := by
  induction cs generalizing s with
  | nil =>
    have howns := h.owns
    simp only [Run.Guarded, iff_true]
    apply Owns.disciplined
    rw [destruct]
    split
    · next hnull =>
      rw [show (run s []).1.pfLogFile = s.1.pfLogFile from rfl] at hnull
      rw [hnull] at howns
      apply howns
    · next f hf =>
      rw [show (run s []).1.pfLogFile = s.1.pfLogFile from rfl] at hf
      rw [hf] at howns
      rw [Stdio.Fs.trace_fclose]
      apply howns.release
  | cons c cs ih =>
    rw [show run s (c :: cs) = run (step s c) cs from rfl, Run.Guarded]
    by_cases hc : RotationFails s c
    · obtain ⟨f, hf, hd⟩ := dead_of_rotationFails hc
      simp only [hc, not_true_eq_false, false_and, iff_false]
      intro hdisc
      apply not_usesLive_of_dead hf hd cs hdisc.1
    · simp only [hc, not_false_eq_true, true_and]
      apply ih (tidy_step h hc)

/-- Over the lifetime of a logger, `fwrite`, `fflush` and `fclose` act on open handles only
and every handle opened is closed exactly once, exactly when no call takes an open log past
its limit while the log file cannot be renamed. -/
theorem lifetime_disciplined_iff
    (pszFilename : Option (List UInt8)) (o : OpenOutcomes)
    (files : List UInt8 → Option (List UInt8)) (cs : List LogCall) :
  Disciplined (lifetime pszFilename o cs (Stdio.Fs.boot files)).trace
    ↔ ∀ pre c post, cs = pre ++ c :: post →
        ¬ RotationFails (run (construct pszFilename o (Stdio.Fs.boot files)) pre) c
  := by
  have htidy := tidy_construct pszFilename o (w := Stdio.Fs.boot files) owns_nil
  apply (htidy.disciplined_iff cs).trans
  apply Run.guarded_iff

/-- A message of `maxLogFileSize + 1` bytes whose rotation cannot rename the log file. -/
def oversizedCall : LogCall where
  data := List.replicate 2097153 0
  outcomes := {
    time := 0, tick := 0, fwrite := 2097153, remove := true, rename := false, fopen := true }

/-- A logger on a new file that receives one oversized message and is destructed closes its
handle twice when the log file cannot be renamed. -/
theorem not_disciplined_oversizedCall :
  ¬ Disciplined (lifetime (some (ascii "test.log")) ⟨true, true, true, true, true⟩
      [oversizedCall] (Stdio.Fs.boot fun _ => none)).trace
  := by
  have htidy := tidy_construct (some (ascii "test.log")) ⟨true, true, true, true, true⟩
    (w := Stdio.Fs.boot fun _ => none) owns_nil
  intro h
  obtain ⟨hc, -⟩ := (htidy.disciplined_iff [oversizedCall]).mp h
  apply hc
  constructor
  · decide
  · constructor
    · rw [sizeAfter, oversizedCall, List.length_replicate]
      decide
    · rfl

end RollingFileLogger
