import IotDeviceSdk.Baselib.RollingFileLogger.Basic
import IotDeviceSdk.Foundation.RollingLog
import Mathlib.Algebra.Ring.Nat

/-!
# What the rolling file logger retains

A logger whose file operations all succeed refines a rolling log with the limit
`maxLogFileSize`: `logData` appends a message, and a restart changes nothing.  So after
every call the two files hold what `RollingLog.Retained` says.
-/

namespace RollingFileLogger

open CString

/-- The outcomes of the constructor when all its calls succeed. -/
def OpenOutcomes.success : OpenOutcomes where
  fopen := true
  fseek := true
  ftell := true
  remove := true
  reopen := true

/-- The outcomes of `LogData` when all its calls succeed. -/
def LogOutcomes.success (data : List UInt8) (time tick : UInt32) : LogOutcomes where
  time := time
  tick := tick
  fwrite := data.length
  remove := true
  rename := true
  fopen := true

/-- What happens to a log file: a message is logged, or the logger is destructed and a new
one is constructed on the file. -/
inductive Action where
  | logData (data : List UInt8) (time tick : UInt32)
  | restart

/-- The message that an action logs. -/
def Action.message : Action → Option (List UInt8)
  | .logData data _ _ => some data
  | .restart => none

/-- The messages that are logged, in order. -/
def messages (as : List Action) : List (List UInt8) :=
  as.filterMap Action.message

/-- One action, all of whose file operations succeed. -/
def act (name : List UInt8) (s : Session) : Action → Session
  | .logData data time tick => s.1.logData data (.success data time tick) s.2
  | .restart => construct (some name) .success (s.1.destruct s.2)

/-- The actions in order, from the first start of a logger on. -/
def lifetimes (name : List UInt8) (files : List UInt8 → Option (List UInt8))
    (as : List Action) : Session :=
  as.foldl (act name) (construct (some name) .success (Stdio.Fs.boot files))

/-- The content of the log file, the part still buffered by its stream included. -/
def logContent (s : Session) : List UInt8 :=
  (s.1.pfLogFile.bind s.2.written).getD []

/-- The content of the old file; nothing when there is none. -/
def oldContent (name : List UInt8) (w : Disk) : List UInt8 :=
  (w.content (oldFile name)).getD []

/-- A rotation has happened: the log file has been renamed to be the old file. -/
def Rotated (name : List UInt8) (w : Disk) : Prop :=
  .rename name (oldFile name) true ∈ w.calls

/-! ### Whether a rotation has happened -/

theorem rotated_iff_of_calls
    {name : List UInt8} {v w : Disk} {c : Stdio.Call (List UInt8) UInt8}
    (h : v.calls = w.calls ++ [c]) (hc : c ≠ .rename name (oldFile name) true) :
  Rotated name v ↔ Rotated name w
  := by
  simp [Rotated, h, hc.symm]

theorem rotated_fclose (name : List UInt8) (w : Disk) (f : Stdio.Handle) :
  Rotated name (w.fclose f) ↔ Rotated name w
  := rotated_iff_of_calls (w.calls_fclose f) (by simp)

theorem rotated_fopen (name : List UInt8) (w : Disk) (n : List UInt8) (ok : Bool) :
  Rotated name (w.fopen n ok).2 ↔ Rotated name w
  := rotated_iff_of_calls (w.calls_fopen n ok) (by simp)

theorem rotated_write (name : List UInt8) (l : RollingFileLogger) (f : Stdio.Handle)
    (data : List UInt8) (o : LogOutcomes) (w : Disk) :
  Rotated name (l.write f data o w).2 ↔ Rotated name w
  := by
  have hfwrite : Rotated name (w.fwrite f data o.fwrite) ↔ Rotated name w :=
    rotated_iff_of_calls (w.calls_fwrite f data o.fwrite) (by simp)
  rw [write]
  split
  · apply Iff.trans _ hfwrite
    apply rotated_iff_of_calls (Stdio.Fs.calls_fflush _ f) (by simp)
  · apply hfwrite

/-! ### The refinement -/

/-- The logger and the disk represent a state of a rolling log. -/
structure Represents (name : List UInt8) (s : Session) (t : RollingLog.State UInt8) : Prop where
  strFilename : s.1.strFilename = name
  pfLogFile : ∃ f, s.1.pfLogFile = some f ∧ s.2.OpenOn f name ∧ s.2.written f = some t.log
  nFileSize : s.1.nFileSize.toNat = t.log.length
  old : oldContent name s.2 = t.old
  rotated : Rotated name s.2 ↔ t.rotated = true

theorem Represents.logContent
    {name : List UInt8} {s : Session} {t : RollingLog.State UInt8} (h : Represents name s t) :
  logContent s = t.log
  := by
  obtain ⟨f, hf, -, hw⟩ := h.pfLogFile
  rw [RollingFileLogger.logContent, hf, Option.bind_some, hw]
  rfl

/-- The constructor opens the log file and takes its size. -/
theorem represents_construct
    (name : List UInt8) (w : Disk) (rotated : Bool) (hrotated : Rotated name w ↔ rotated = true)
    (hlen : ((w.content name).getD []).length < 2 ^ 31) :
  Represents name (construct (some name) .success w)
    ⟨oldContent name w, (w.content name).getD [], rotated⟩
  := by
  obtain ⟨hnext, hopen, hwritten⟩ := w.fopen_true name
  constructor
  · rfl
  · exact ⟨w.nextHandle, rfl, hopen, hwritten⟩
  · apply Eq.trans (congrArg (fun d : Option (List UInt8) =>
      (UInt32.ofInt (d.getD []).length).toNat) hwritten)
    rw [Option.getD_some, UInt32.ofInt, UInt32.toNat_ofNat']
    simp only
    omega
  · apply congrArg (Option.getD · [])
    apply w.content_fopen_of_ne (oldFile_ne name) true
  · apply Iff.trans _ hrotated
    apply Iff.trans _ (rotated_fopen name w name true)
    apply Iff.trans (rotated_iff_of_calls (Stdio.Fs.calls_ftell _ _ true) (by simp))
    apply rotated_iff_of_calls (Stdio.Fs.calls_fseek _ _ true) (by simp)

/-- A restart changes nothing. -/
theorem Represents.restart
    {name : List UInt8} {s : Session} {t : RollingLog.State UInt8} (h : Represents name s t)
    (hlog : t.log.length < 2 ^ 31) :
  Represents name (act name s .restart) t
  := by
  obtain ⟨f, hf, hopen, hwritten⟩ := h.pfLogFile
  have hdestruct : s.1.destruct s.2 = s.2.fclose f := by
    rw [destruct, hf]
  have hcontent : ((s.2.fclose f).content name).getD [] = t.log := by
    rw [Stdio.Fs.content_fclose, hopen.content_push, hwritten]
    rfl
  have hold : oldContent name (s.2.fclose f) = t.old := by
    rw [oldContent, Stdio.Fs.content_fclose, hopen.content_push_of_ne (oldFile_ne name)]
    apply h.old
  have hconstruct := represents_construct name (s.2.fclose f) t.rotated
    ((rotated_fclose name s.2 f).trans h.rotated)
  rw [hcontent, hold] at hconstruct
  rw [act, hdestruct]
  apply hconstruct hlog

/-- The size counter does not wrap. -/
theorem Represents.sizeAfter
    {name : List UInt8} {s : Session} {t : RollingLog.State UInt8} (h : Represents name s t)
    (hlog : t.log.length < 2 ^ 31) {data : List UInt8} (hdata : data.length < 2 ^ 31) :
  (s.1.sizeAfter data).toNat = t.log.length + data.length
  := by
  rw [RollingFileLogger.sizeAfter, UInt32.toNat_add, UInt32.toNat_ofNat', h.nFileSize]
  omega

/-- A rotation makes the log file the old file, and starts an empty one. -/
theorem represents_rotate
    {l : RollingFileLogger} {f : Stdio.Handle} {w : Disk} {log : List UInt8}
    (hopen : w.OpenOn f l.strFilename) (hwritten : w.written f = some log)
    {o : LogOutcomes} (hrename : o.rename = true) (hfopen : o.fopen = true) :
  Represents l.strFilename (l.rotate f o w) ⟨log, [], true⟩
  := by
  have hrenamed := (renameLog_fst_of_openOn hopen o).trans hrename
  have hfiles := content_renameLog_of_renamed hopen hrename
  have hcalls := Stdio.Fs.calls_rename ((w.fclose f).remove (oldFile l.strFilename) o.remove).2
    l.strFilename (oldFile l.strFilename) o.rename
  rw [rotate_of_renamed hrenamed, hfopen]
  obtain ⟨hnext, hopen', hwritten'⟩ := (l.renameLog f o w).2.fopen_true l.strFilename
  constructor
  · rfl
  · use (l.renameLog f o w).2.nextHandle, hnext, hopen'
    apply hwritten'.trans
    rw [hfiles, if_neg (oldFile_ne _).symm, if_pos rfl]
    rfl
  · rfl
  · apply Eq.trans (congrArg (Option.getD · [])
      (Stdio.Fs.content_fopen_of_ne _ (oldFile_ne l.strFilename) true))
    rw [hfiles, if_pos rfl, hwritten]
    rfl
  · apply Iff.trans (rotated_fopen _ _ _ true)
    apply iff_of_true _ rfl
    apply List.mem_of_mem_getLast?
    apply Eq.trans (congrArg List.getLast? hcalls)
    rw [List.getLast?_concat]
    apply congrArg (fun ok => some (Stdio.Call.rename _ _ ok)) hrenamed

/-- A message that is logged is appended. -/
theorem Represents.logData
    {name : List UInt8} {s : Session} {t : RollingLog.State UInt8} (h : Represents name s t)
    (hlog : t.log.length < 2 ^ 31) {data : List UInt8} (hdata : data.length < 2 ^ 31)
    (time tick : UInt32) :
  Represents name (act name s (.logData data time tick))
    (RollingLog.append maxLogFileSize.toNat t data)
  := by
  obtain ⟨f, hf, hopen, hwritten⟩ := h.pfLogFile
  obtain rfl := h.strFilename
  let o := LogOutcomes.success data time tick
  let r := s.1.write f data o s.2
  have hsize := h.sizeAfter hlog hdata
  have hopen' : r.2.OpenOn f s.1.strFilename := openOn_write hopen s.1 data o
  have hwritten' : r.2.written f = some (t.log ++ data) := by
    apply Eq.trans (s.1.written_write f data o s.2)
    rw [hwritten, Option.map_some]
    apply congrArg (fun d => some (t.log ++ d)) List.take_length
  rw [act, logData_of_open hf, RollingLog.append]
  have hover : maxLogFileSize < s.1.sizeAfter data
      ↔ maxLogFileSize.toNat < t.log.length + data.length := by
    rw [UInt32.lt_iff_toNat_lt, hsize]
  by_cases hfull : maxLogFileSize < s.1.sizeAfter data
  · rw [if_pos hfull, if_pos (hover.mp hfull)]
    apply represents_rotate (l := r.1) hopen' hwritten' rfl rfl
  · rw [if_neg hfull, if_neg (hover.not.mp hfull)]
    constructor
    · rfl
    · use f, hf, hopen', hwritten'
    · rw [write_nFileSize, hsize, List.length_append]
    · rw [oldContent, content_write_of_ne hopen (oldFile_ne _)]
      apply h.old
    · apply (rotated_write _ s.1 f data _ s.2).trans h.rotated

/-! ### Runs -/

theorem messages_concat (as : List Action) (a : Action) :
  messages (as ++ [a]) = messages as ++ a.message.toList
  := by
  rw [messages, List.filterMap_append]
  cases a with
  | logData data time tick => rfl
  | restart => rfl

/-- Any run represents the run of the rolling log on the messages, with a log that is
short enough to be measured. -/
theorem represents_lifetimes
    (name : List UInt8) (files : List UInt8 → Option (List UInt8)) (as : List Action)
    (hinit : ((files name).getD []).length < 2 ^ 31)
    (hmessages : ∀ m ∈ messages as, m.length < 2 ^ 31) :
  let t := RollingLog.run maxLogFileSize.toNat
    ⟨(files (oldFile name)).getD [], (files name).getD [], false⟩ (messages as)
  Represents name (lifetimes name files as) t ∧ t.log.length < 2 ^ 31
  := by
  induction as using List.reverseRecOn with
  | nil =>
    constructor
    · have hcontent := Stdio.Fs.content_boot files
      rw [← hcontent name] at hinit
      have hconstruct := represents_construct name (Stdio.Fs.boot files) false
        (by simp [Rotated, Stdio.Fs.boot]) hinit
      rw [oldContent, hcontent, hcontent] at hconstruct
      apply hconstruct
    · apply hinit
  | append_singleton as a ih =>
    rw [messages_concat] at hmessages ⊢
    obtain ⟨hrep, hlog⟩ := ih (fun m hm => hmessages m (List.mem_append_left _ hm))
    rw [lifetimes, List.foldl_concat]
    cases a with
    | logData data time tick =>
      have hdata := hmessages data (List.mem_append_right _ (List.mem_singleton_self data))
      rw [Action.message, Option.toList_some, RollingLog.run, List.foldl_concat]
      constructor
      · apply hrep.logData hlog hdata
      · apply Nat.lt_of_le_of_lt (RollingLog.length_log_append _ _ data)
        decide
    | restart =>
      rw [Action.message, Option.toList_none, List.append_nil]
      constructor
      · apply hrep.restart hlog
      · apply hlog

/-- After every call of `logData`, in any run of calls and restarts, the old file and the
log file retain the last part of the history of the log: of what the log file held at the
first start and all messages since. -/
theorem retained_after_logData
    (name : List UInt8) (files : List UInt8 → Option (List UInt8)) (as : List Action)
    (data : List UInt8) (time tick : UInt32)
    (hinit : ((files name).getD []).length < 2 ^ 31)
    (hmessages : ∀ m ∈ messages (as ++ [.logData data time tick]), m.length < 2 ^ 31) :
  let s := lifetimes name files (as ++ [.logData data time tick])
  RollingLog.Retained (2 * 1024 * 1024) ((files (oldFile name)).getD []) ((files name).getD [])
    (messages (as ++ [.logData data time tick])) (oldContent name s.2) (logContent s)
    (Rotated name s.2)
  := by
  intro s
  obtain ⟨hrep, -⟩ := represents_lifetimes name files _ hinit hmessages
  rw [hrep.old, hrep.logContent, hrep.rotated]
  apply RollingLog.run_retained
  rw [messages_concat]
  apply List.append_ne_nil_of_right_ne_nil
  apply List.cons_ne_nil

/-- There is a log file of one byte, but no old file. -/
def logOnly : List UInt8 → Option (List UInt8) :=
  fun n => if n = ascii "test.log" then some [1] else none

/-- The hypotheses of `retained_after_logData` are met by a log of one byte, a restart and
a message of two bytes. -/
theorem retained_after_restart :
  let s := lifetimes (ascii "test.log") logOnly ([.restart] ++ [.logData [2, 3] 0 0])
  RollingLog.Retained (2 * 1024 * 1024) ((logOnly (oldFile (ascii "test.log"))).getD [])
    ((logOnly (ascii "test.log")).getD []) (messages ([.restart] ++ [.logData [2, 3] 0 0]))
    (oldContent (ascii "test.log") s.2) (logContent s) (Rotated (ascii "test.log") s.2)
  := by
  apply retained_after_logData (ascii "test.log") logOnly [.restart] [2, 3] 0 0
  · decide
  · decide

end RollingFileLogger
