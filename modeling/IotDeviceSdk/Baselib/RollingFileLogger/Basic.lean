import IotDeviceSdk.Foundation.CString
import IotDeviceSdk.Foundation.Run
import IotDeviceSdk.Foundation.Stdio

/-!
# The rolling file logger

`RollingFileLogger` appends log data to a file.  When the file has grown past
`maxLogFileSize` bytes, it is renamed to have the suffix `.old`, in place of an older file
of that name, and a new file is started.

The calls to the file system take their outcomes from `OpenOutcomes` and `LogOutcomes`,
one record for each call of the constructor and of `LogData`; the readings of the clock
are part of the latter.
-/

open CString

/-- The file system under the logger: names and files are byte strings. -/
abbrev Disk := Stdio.Fs (List UInt8) UInt8

/-- The fields of a `RollingFileLogger`. -/
structure RollingFileLogger where
  strFilename : List UInt8
  pfLogFile : Option Stdio.Handle
  nLogTick : Int32
  nFileSize : UInt32

namespace RollingFileLogger

/-- `MAX_LOG_FILE_SIZE`. -/
def maxLogFileSize : UInt32 := 2 * 1024 * 1024

/-- The outcomes of the calls that the constructor makes. -/
structure OpenOutcomes where
  fopen : Bool
  fseek : Bool
  ftell : Bool
  remove : Bool
  reopen : Bool

/-- The readings of the clock and the outcomes of the calls that `LogData` makes. -/
structure LogOutcomes where
  /-- `TimeHelper::Time()` when the flush is decided -/
  time : UInt32
  /-- `TimeHelper::Time()` when the tick is stored -/
  tick : UInt32
  /-- the number of bytes that `fwrite` is ready to accept -/
  fwrite : ℕ
  remove : Bool
  rename : Bool
  fopen : Bool

/-- `strFilename + ".old"`. -/
def oldFile (name : List UInt8) : List UInt8 :=
  name ++ ascii ".old"

theorem oldFile_ne (name : List UInt8) :
  oldFile name ≠ name
  := by
  intro h
  have hlen := congrArg List.length h
  simp [oldFile, ascii] at hlen

/-- `RollingFileLogger::RollingFileLogger`.  A file that cannot be measured is removed, and opened
again. -/
def construct (pszFilename : Option (List UInt8)) (o : OpenOutcomes) (w : Disk) :
    RollingFileLogger × Disk :=
  match pszFilename with
  | none => (⟨[], none, 0, 0⟩, w)
  | some name =>
    let r := w.fopen name o.fopen
    match r.1 with
    | none => (⟨name, none, 0, 0⟩, r.2)
    | some f =>
      let nResult := r.2.fseek f o.fseek
      if nResult.1 then
        let size := nResult.2.ftell f o.ftell
        (⟨name, some f, 0, UInt32.ofInt size.1⟩, size.2)
      else
        let w := (nResult.2.fclose f).remove name o.remove
        let r := w.2.fopen name o.reopen
        (⟨name, r.1, 0, 0⟩, r.2)

/-- `RollingFileLogger::~RollingFileLogger`. -/
def destruct (l : RollingFileLogger) (w : Disk) : Disk :=
  match l.pfLogFile with
  | none => w
  | some f => w.fclose f

/-- The part of `LogData` that writes: append the data to the open file `f`, count it, and
flush if the last call was more than 5000 ms ago. -/
def write (l : RollingFileLogger) (f : Stdio.Handle) (data : List UInt8) (o : LogOutcomes)
    (w : Disk) : RollingFileLogger × Disk :=
  let w := w.fwrite f data o.fwrite
  let w := if 5000 < o.time - l.nLogTick.toUInt32 then w.fflush f else w
  ({ l with nFileSize := l.nFileSize + UInt32.ofNat data.length, nLogTick := o.tick.toInt32 }, w)

/-- The first part of a rotation: close the open file `f`, remove the old file and rename
the log file; the result is whether the log file was renamed. -/
def renameLog (l : RollingFileLogger) (f : Stdio.Handle) (o : LogOutcomes) (w : Disk) :
    Bool × Disk :=
  let strOldFile := oldFile l.strFilename
  let w := (w.fclose f).remove strOldFile o.remove
  w.2.rename l.strFilename strOldFile o.rename

/-- The part of `LogData` that rotates the file away.  When the file cannot be renamed,
the handle `f` stays in place although it has been closed. -/
def rotate (l : RollingFileLogger) (f : Stdio.Handle) (o : LogOutcomes) (w : Disk) :
    RollingFileLogger × Disk :=
  let r := l.renameLog f o w
  if r.1 then
    let r := r.2.fopen l.strFilename o.fopen
    ({ l with pfLogFile := r.1, nFileSize := 0 }, r.2)
  else
    (l, r.2)

/-- `RollingFileLogger::LogData`. -/
def logData (l : RollingFileLogger) (data : List UInt8) (o : LogOutcomes) (w : Disk) :
    RollingFileLogger × Disk :=
  match l.pfLogFile with
  | none => (l, w)
  | some f =>
    let r := l.write f data o w
    if maxLogFileSize < r.1.nFileSize then r.1.rotate f o r.2 else r

/-! ### Runs -/

/-- A call of `LogData`: its data, and what happens during the call. -/
structure LogCall where
  data : List UInt8
  outcomes : LogOutcomes

/-- A logger and the file system it works on. -/
abbrev Session := RollingFileLogger × Disk

/-- One call of `LogData`. -/
def step (s : Session) (c : LogCall) : Session :=
  s.1.logData c.data c.outcomes s.2

/-- The calls of `LogData` in order. -/
def run (s : Session) (cs : List LogCall) : Session :=
  cs.foldl step s

/-- The size that the counter of a logger takes when `data` is written. -/
def sizeAfter (l : RollingFileLogger) (data : List UInt8) : UInt32 :=
  l.nFileSize + UInt32.ofNat data.length

@[simp]
theorem write_nFileSize (l : RollingFileLogger) (f : Stdio.Handle) (data : List UInt8)
    (o : LogOutcomes) (w : Disk) :
  (l.write f data o w).1.nFileSize = l.sizeAfter data
  := rfl

@[simp]
theorem write_pfLogFile (l : RollingFileLogger) (f : Stdio.Handle) (data : List UInt8)
    (o : LogOutcomes) (w : Disk) :
  (l.write f data o w).1.pfLogFile = l.pfLogFile
  := rfl

/-- A logger without a file ignores the data. -/
theorem logData_of_null {l : RollingFileLogger} (hf : l.pfLogFile = none) (data : List UInt8)
    (o : LogOutcomes) (w : Disk) :
  l.logData data o w = (l, w)
  := by
  rw [logData, hf]

/-- `LogData` writes, and rotates when the file has become too large. -/
theorem logData_of_open
    {l : RollingFileLogger} {f : Stdio.Handle} (hf : l.pfLogFile = some f) (data : List UInt8)
    (o : LogOutcomes) (w : Disk) :
  l.logData data o w = if maxLogFileSize < l.sizeAfter data then
      (l.write f data o w).1.rotate f o (l.write f data o w).2
    else l.write f data o w
  := by
  rw [logData, hf]
  rfl

/-- A rotation that renames the log file starts a new one. -/
theorem rotate_of_renamed
    {l : RollingFileLogger} {f : Stdio.Handle} {o : LogOutcomes} {w : Disk}
    (h : (l.renameLog f o w).1 = true) :
  l.rotate f o w
    = ({ l with
          pfLogFile := ((l.renameLog f o w).2.fopen l.strFilename o.fopen).1, nFileSize := 0 },
        ((l.renameLog f o w).2.fopen l.strFilename o.fopen).2)
  := by
  rw [rotate, if_pos h]

/-- A rotation that cannot rename the log file leaves the logger as it is. -/
theorem rotate_of_not_renamed
    {l : RollingFileLogger} {f : Stdio.Handle} {o : LogOutcomes} {w : Disk}
    (h : (l.renameLog f o w).1 = false) :
  l.rotate f o w = (l, (l.renameLog f o w).2)
  := by
  rw [rotate, h, if_neg Bool.false_ne_true]

/-! ### The files -/

/-- Writing leaves an open stream open on its file. -/
theorem openOn_write
    {w : Disk} {f : Stdio.Handle} {name : List UInt8} (h : w.OpenOn f name)
    (l : RollingFileLogger) (data : List UInt8) (o : LogOutcomes) :
  (l.write f data o w).2.OpenOn f name
  := by
  rw [write]
  split
  · apply (h.fwrite data o.fwrite).fflush
  · apply h.fwrite data o.fwrite

/-- Writing adds the bytes that `fwrite` accepts to what was written. -/
theorem written_write (l : RollingFileLogger) (f : Stdio.Handle) (data : List UInt8)
    (o : LogOutcomes) (w : Disk) :
  (l.write f data o w).2.written f = (w.written f).map (· ++ data.take o.fwrite)
  := by
  rw [write]
  split
  · rw [Stdio.Fs.written_fflush, Stdio.Fs.written_fwrite]
  · rw [Stdio.Fs.written_fwrite]

/-- Writing leaves all other files as they are. -/
theorem content_write_of_ne
    {w : Disk} {f : Stdio.Handle} {name n : List UInt8} (h : w.OpenOn f name) (hn : n ≠ name)
    (l : RollingFileLogger) (data : List UInt8) (o : LogOutcomes) :
  (l.write f data o w).2.content n = w.content n
  := by
  rw [write]
  split
  · rw [Stdio.Fs.content_fflush, (h.fwrite data o.fwrite).content_push_of_ne hn,
      Stdio.Fs.content_fwrite]
  · rfl

/-- Writing to a closed stream leaves all files as they are. -/
theorem content_write_of_closed
    {w : Disk} {f : Stdio.Handle} (h : w.written f = none) (l : RollingFileLogger)
    (data : List UInt8) (o : LogOutcomes) (n : List UInt8) :
  (l.write f data o w).2.content n = w.content n
  := by
  have hstream : (w.fwrite f data o.fwrite).streams f = none := by
    have hwritten := w.written_fwrite f data o.fwrite
    rw [h] at hwritten
    apply Option.map_eq_none_iff.mp hwritten
  rw [write]
  split
  · rw [Stdio.Fs.content_fflush, Stdio.Fs.push_of_closed hstream, Stdio.Fs.content_fwrite]
  · rfl

/-- A rotation renames the log file if that is allowed to succeed and there is one. -/
theorem renameLog_fst (l : RollingFileLogger) (f : Stdio.Handle) (o : LogOutcomes) (w : Disk) :
  (l.renameLog f o w).1 = (o.rename && (w.content l.strFilename).isSome)
  := by
  rw [renameLog, Stdio.Fs.rename_fst, Stdio.Fs.content_remove, Stdio.Fs.content_fclose,
    if_neg fun h => (oldFile_ne _).symm h.1, Stdio.Fs.isSome_content_push]

/-- A rotation that renames the log file gives the old file what the log file holds once it is
closed. -/
theorem content_oldFile_renameLog
    {l : RollingFileLogger} {f : Stdio.Handle} {o : LogOutcomes} {w : Disk}
    (h : (l.renameLog f o w).1 = true) :
  (l.renameLog f o w).2.content (oldFile l.strFilename) = (w.push f).content l.strFilename
  := by
  unfold renameLog at h ⊢
  simp only at h ⊢
  rw [Stdio.Fs.content_rename _ (oldFile_ne _).symm, if_pos h, if_pos rfl,
    Stdio.Fs.content_remove, if_neg fun h => (oldFile_ne _).symm h.1, Stdio.Fs.content_fclose]

/-- The log file is there to be renamed when a rotation gets to it. -/
theorem renameLog_fst_of_openOn
    {l : RollingFileLogger} {f : Stdio.Handle} {w : Disk} (h : w.OpenOn f l.strFilename)
    (o : LogOutcomes) :
  (l.renameLog f o w).1 = o.rename
  := by
  obtain ⟨s, -, hdir⟩ := h
  rw [renameLog_fst, Stdio.Fs.content, hdir]
  apply Bool.and_true

/-- A renaming that is bound to fail does. -/
theorem renameLog_fst_of_fails
    {o : LogOutcomes} (ho : o.rename = false) (l : RollingFileLogger) (f : Stdio.Handle)
    (w : Disk) :
  (l.renameLog f o w).1 = false
  := by
  rw [renameLog, Stdio.Fs.rename_fst, ho]
  rfl

/-- Up to the renaming, a rotation closes the file it writes to. -/
theorem written_renameLog (l : RollingFileLogger) (f : Stdio.Handle) (o : LogOutcomes)
    (w : Disk) :
  (l.renameLog f o w).2.written f = none
  := by
  rw [renameLog, Stdio.Fs.written_rename, Stdio.Fs.written_remove, Stdio.Fs.written_fclose]

/-- The files when the old file has been removed and the log file is about to be renamed:
all that was written to the log file is in it. -/
theorem content_remove_fclose
    {w : Disk} {f : Stdio.Handle} {name : List UInt8} (h : w.OpenOn f name) (ok : Bool)
    (n : List UInt8) :
  ((w.fclose f).remove (oldFile name) ok).2.content n
    = if n = name then w.written f
      else if n = oldFile name ∧ ok then none
      else w.content n
  := by
  rw [Stdio.Fs.content_remove, Stdio.Fs.content_fclose]
  rcases eq_or_ne n name with rfl | hn
  · simp [(oldFile_ne n).symm, h.content_push]
  · rw [h.content_push_of_ne hn, if_neg hn]

/-- The files after the log file was renamed. -/
theorem content_renameLog_of_renamed
    {l : RollingFileLogger} {f : Stdio.Handle} {o : LogOutcomes} {w : Disk}
    (h : w.OpenOn f l.strFilename) (ho : o.rename = true) (n : List UInt8) :
  (l.renameLog f o w).2.content n
    = if n = oldFile l.strFilename then w.written f
      else if n = l.strFilename then none
      else w.content n
  := by
  have hrenamed := renameLog_fst_of_openOn h o
  rw [ho] at hrenamed
  unfold renameLog at hrenamed ⊢
  simp only at hrenamed ⊢
  rw [Stdio.Fs.content_rename _ (oldFile_ne l.strFilename).symm, hrenamed,
    content_remove_fclose h, content_remove_fclose h, if_pos rfl, if_pos rfl]
  rcases eq_or_ne n (oldFile l.strFilename) with rfl | hold
  · simp
  · rcases eq_or_ne n l.strFilename with rfl | hlog
    · simp
    · simp [hold, hlog]

/-- The files after the log file could not be renamed. -/
theorem content_renameLog_of_fails
    {l : RollingFileLogger} {f : Stdio.Handle} {o : LogOutcomes} {w : Disk}
    (h : w.OpenOn f l.strFilename) (ho : o.rename = false) (n : List UInt8) :
  (l.renameLog f o w).2.content n
    = if n = l.strFilename then w.written f
      else if n = oldFile l.strFilename ∧ o.remove then none
      else w.content n
  := by
  have hfails := renameLog_fst_of_fails ho l f w
  unfold renameLog at hfails ⊢
  simp only at hfails ⊢
  rw [Stdio.Fs.content_rename _ (oldFile_ne l.strFilename).symm, hfails,
    if_neg Bool.false_ne_true]
  apply content_remove_fclose h

end RollingFileLogger
