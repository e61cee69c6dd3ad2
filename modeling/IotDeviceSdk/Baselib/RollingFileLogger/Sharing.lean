import IotDeviceSdk.Baselib.RollingFileLogger.Retention
import IotDeviceSdk.Baselib.RollingFileLogger.SizeCounter
import IotDeviceSdk.Foundation.Stdio.Frame

/-!
# Loggers that share a disk

Whatever a logger does, see `Evolves`, the other ones stay on their files (`Evolves.file_eq`).
Loggers with different filenames have different files, even if one of them rotates its log file
to the name of another one (`Evolves.apart`).  As long as all file operations succeed, no logger
takes a name away, so each one finds its log file when it rotates and goes on to work
(`Works.logData`).
-/

namespace RollingFileLogger

open Stdio

/-- The file that the stream of a logger is open on. -/
def file (l : RollingFileLogger) (w : Disk) : Option (Inode (List UInt8)) :=
  l.pfLogFile.bind w.inodeOf

/-- The handle of the logger has been given out. -/
def GivenOut (w : Disk) (l : RollingFileLogger) : Prop :=
  ∀ f, l.pfLogFile = some f → f < w.nextHandle

/-- The loggers have different handles. -/
def OtherHandle (l m : RollingFileLogger) : Prop :=
  ∀ f, l.pfLogFile = some f → m.pfLogFile ≠ some f

/-- The file of the logger has no name but that of the logger. -/
def Holds (w : Disk) (l : RollingFileLogger) : Prop :=
  ∀ n i, l.file w = some i → w.dir n = some i → n = l.strFilename

/-- The loggers have different filenames and files. -/
structure Apart (w : Disk) (l m : RollingFileLogger) : Prop where
  strFilename : l.strFilename ≠ m.strFilename
  file : ∀ i, l.file w = some i → m.file w ≠ some i

theorem OtherHandle.symm {l m : RollingFileLogger} (h : OtherHandle l m) :
  OtherHandle m l
  := fun f hm hl => h f hl hm

theorem Apart.symm {w : Disk} {l m : RollingFileLogger} (h : Apart w l m) :
  Apart w m l
  where
  strFilename := h.strFilename.symm
  file i hm hl := h.file i hl hm

/-- A handle that has been given out stays so. -/
theorem GivenOut.of_frame
    {v w : Disk} {l m : RollingFileLogger} (h : GivenOut v l) {name : List UInt8} {f : Handle}
    (hframe : Fs.Frame name f v w) (hm : m.pfLogFile = l.pfLogFile) :
  GivenOut w m
  := by
  intro g hg
  rw [hm] at hg
  apply Nat.lt_of_lt_of_le (h g hg) hframe.nextHandle_le

theorem lt_of_file {w : Disk} {l : RollingFileLogger} {i : Inode (List UInt8)}
    (h : l.file w = some i) :
  i.2 < w.nextInode
  := by
  obtain ⟨f, -, hf⟩ := Option.bind_eq_some_iff.mp h
  apply Fs.inodeOf_lt hf

/-- What a logger does to itself and to the disk: it uses its own handle or new ones, and its
file is the one it had, a new one, or the one of its filename. -/
structure Evolves (s t : Session) : Prop where
  strFilename : t.1.strFilename = s.1.strFilename
  handle : ∀ g, t.1.pfLogFile = some g → s.1.pfLogFile = some g ∨ s.2.nextHandle ≤ g
  file : ∀ i, t.1.file t.2 = some i →
    s.1.file s.2 = some i ∨ s.2.nextInode ≤ i.2 ∨ s.2.dir s.1.strFilename = some i
  frame : ∃ f, (s.1.pfLogFile = some f ∨ s.2.nextHandle ≤ f)
    ∧ Fs.Frame s.1.strFilename f s.2 t.2
  givenOut : GivenOut s.2 s.1 → GivenOut t.2 t.1
  holds : Holds s.2 s.1 → Holds t.2 t.1

/-- Handles stay given out. -/
theorem Evolves.givenOut_other
    {s t : Session} (h : Evolves s t) {m : RollingFileLogger} (hm : GivenOut s.2 m) :
  GivenOut t.2 m
  := by
  obtain ⟨f, -, hframe⟩ := h.frame
  apply hm.of_frame hframe rfl

/-- A logger does not get the handles of the other ones. -/
theorem Evolves.otherHandle
    {s t : Session} (h : Evolves s t) {m : RollingFileLogger} (hm : GivenOut s.2 m)
    (hne : OtherHandle s.1 m) :
  OtherHandle t.1 m
  := by
  intro g hg hmg
  rcases h.handle g hg with hsame | hnew
  · apply hne g hsame hmg
  · apply Nat.not_lt.mpr hnew (hm g hmg)

/-- A logger leaves the other ones on their files. -/
theorem Evolves.file_eq
    {s t : Session} (h : Evolves s t) {m : RollingFileLogger} (hm : GivenOut s.2 m)
    (hne : OtherHandle s.1 m) :
  m.file t.2 = m.file s.2
  := by
  obtain ⟨f, hf, hframe⟩ := h.frame
  rw [RollingFileLogger.file, RollingFileLogger.file]
  cases hg : m.pfLogFile with
  | none => rfl
  | some g =>
    have hlt := hm g hg
    apply hframe.inodeOf_eq g _ hlt
    rintro rfl
    rcases hf with hf | hle
    · apply hne g hf hg
    · apply Nat.not_lt.mpr hle hlt

/-- A logger does not give away the names of the other ones. -/
theorem Evolves.holds_other
    {s t : Session} (h : Evolves s t) {m : RollingFileLogger} (hfile : m.file t.2 = m.file s.2)
    (hm : Holds s.2 m) (ha : Apart s.2 s.1 m) :
  Holds t.2 m
  := by
  obtain ⟨f, -, hframe⟩ := h.frame
  intro n i hi hn
  rw [hfile] at hi
  rcases hframe.dir_of n i hn with hnew | hsame | hname
  · apply absurd (lt_of_file hi) (Nat.not_lt.mpr hnew)
  · apply hm n i hi hsame
  · apply absurd (hm _ i hi hname) ha.strFilename

/-- A logger stays apart from the other ones. -/
theorem Evolves.apart
    {s t : Session} (h : Evolves s t) {m : RollingFileLogger} (hfile : m.file t.2 = m.file s.2)
    (hm : Holds s.2 m) (ha : Apart s.2 s.1 m) :
  Apart t.2 t.1 m
  where
  strFilename := by
    rw [h.strFilename]
    apply ha.strFilename
  file := by
    intro i hi hmi
    rw [hfile] at hmi
    rcases h.file i hi with hsame | hnew | hname
    · apply ha.file i hsame hmi
    · apply absurd (lt_of_file hmi) (Nat.not_lt.mpr hnew)
    · apply ha.strFilename (hm _ i hmi hname)

/-- Loggers that stay on their files stay apart. -/
theorem Apart.of_file_eq
    {v w : Disk} {l m : RollingFileLogger} (h : Apart v l m) (hl : l.file w = l.file v)
    (hm : m.file w = m.file v) :
  Apart w l m
  where
  strFilename := h.strFilename
  file := by
    rw [hl, hm]
    apply h.file

/-! ### What `LogData` does -/

theorem evolves_refl (s : Session) :
  Evolves s s
  where
  strFilename := rfl
  handle _ h := Or.inl h
  file _ h := Or.inl h
  frame := ⟨s.2.nextHandle, Or.inr (Nat.le_refl _), Fs.frame_refl _ _ _⟩
  givenOut h := h
  holds h := h

/-- Writing does not touch the files and names of any stream. -/
theorem inodeOf_write (l : RollingFileLogger) (f : Handle) (data : List UInt8) (o : LogOutcomes)
    (w : Disk) (g : Handle) :
  (l.write f data o w).2.inodeOf g = w.inodeOf g
  := by
  rw [write]
  split
  · rw [Fs.inodeOf_fflush, Fs.inodeOf_fwrite]
  · rw [Fs.inodeOf_fwrite]

theorem dir_write (l : RollingFileLogger) (f : Handle) (data : List UInt8) (o : LogOutcomes)
    (w : Disk) :
  (l.write f data o w).2.dir = w.dir
  := by
  rw [write]
  split
  · apply Fs.dir_push
  · rfl

theorem frame_write (l : RollingFileLogger) (f : Handle) (data : List UInt8) (o : LogOutcomes)
    (w : Disk) :
  Fs.Frame l.strFilename f w (l.write f data o w).2
  := by
  rw [write]
  split
  · apply (Fs.frame_fwrite _ w f data o.fwrite).trans
    apply Fs.frame_fflush
  · apply Fs.frame_fwrite

theorem frame_renameLog (l : RollingFileLogger) (f : Handle) (o : LogOutcomes) (w : Disk) :
  Fs.Frame l.strFilename f w (l.renameLog f o w).2
  := by
  rw [renameLog]
  apply (Fs.frame_fclose _ w f).trans
  apply (Fs.frame_remove _ _ f _ _).trans
  apply Fs.frame_rename

/-- A rotation that cannot rename the log file leaves no open stream. -/
theorem inodeOf_renameLog (l : RollingFileLogger) (f : Handle) (o : LogOutcomes) (w : Disk) :
  (l.renameLog f o w).2.inodeOf f = none
  := by
  have hwritten := l.written_renameLog f o w
  rw [Fs.written, Option.map_eq_none_iff] at hwritten
  rw [Fs.inodeOf, hwritten]
  rfl

/-- The file of a logger that has opened its filename. -/
theorem locate_of_file_fopen
    {name : List UInt8} {ok : Bool} {tick : Int32} {size : UInt32} {v : Disk}
    {i : Inode (List UInt8)}
    (h : file ⟨name, (v.fopen name ok).1, tick, size⟩ (v.fopen name ok).2 = some i) :
  v.locate name = i
  := by
  obtain ⟨g, hg, hi⟩ := Option.bind_eq_some_iff.mp h
  obtain ⟨-, -, hlocate⟩ := Fs.inodeOf_of_fopen hg
  exact Option.some.inj (hlocate.symm.trans hi)

/-- A logger that opens its filename after some calls. -/
theorem evolves_fopen
    {l : RollingFileLogger} {f : Handle} {w v : Disk}
    (hf : l.pfLogFile = some f ∨ w.nextHandle ≤ f) (hframe : Fs.Frame l.strFilename f w v)
    (ok : Bool) (tick : Int32) (size : UInt32) :
  Evolves (l, w)
    (⟨l.strFilename, (v.fopen l.strFilename ok).1, tick, size⟩, (v.fopen l.strFilename ok).2)
  where
  strFilename := rfl
  handle := by
    intro g hg
    obtain ⟨rfl, -, -⟩ := Fs.inodeOf_of_fopen hg
    right
    apply hframe.nextHandle_le
  file := by
    intro i hi
    obtain rfl := locate_of_file_fopen hi
    right
    rw [Fs.locate]
    cases hdir : v.dir l.strFilename with
    | none =>
      left
      apply hframe.nextInode_le
    | some j =>
      rcases hframe.dir_of _ j hdir with hnew | hname | hname
      · left
        apply hnew
      · right
        apply hname
      · right
        apply hname
  frame := ⟨f, hf, hframe.trans (v.frame_fopen f l.strFilename ok)⟩
  givenOut := by
    intro _ g hg
    obtain ⟨-, hnext, -⟩ := Fs.inodeOf_of_fopen hg
    rw [hnext]
    apply Nat.lt_succ_self
  holds := by
    intro _ n i hi hn
    obtain rfl := locate_of_file_fopen hi
    apply Fs.eq_of_dir_fopen hn

/-- What writing does to the logger and to the disk. -/
theorem evolves_write
    {l : RollingFileLogger} {f : Handle} (hf : l.pfLogFile = some f) (data : List UInt8)
    (o : LogOutcomes) (w : Disk) :
  Evolves (l, w) (l.write f data o w)
  := by
  have hfile : (l.write f data o w).1.file (l.write f data o w).2 = l.file w := by
    rw [file, write_pfLogFile, hf, file, hf]
    apply l.inodeOf_write f data o w f
  have hframe := l.frame_write f data o w
  constructor
  · rfl
  · intro g hg
    left
    apply hg
  · intro i hi
    left
    rw [← hi, hfile]
  · exact ⟨f, Or.inl hf, hframe⟩
  · intro h
    apply h.of_frame hframe rfl
  · intro h n i hi hn
    rw [hfile] at hi
    rw [dir_write] at hn
    apply h n i hi hn

/-- What a rotation that cannot rename the log file does to the logger and to the disk. -/
theorem evolves_of_not_renamed
    {l : RollingFileLogger} {f : Handle} (hf : l.pfLogFile = some f) (data : List UInt8)
    (o : LogOutcomes) (w : Disk) :
  Evolves (l, w)
    ((l.write f data o w).1, ((l.write f data o w).1.renameLog f o (l.write f data o w).2).2)
  := by
  have hframe := (l.frame_write f data o w).trans
    ((l.write f data o w).1.frame_renameLog f o (l.write f data o w).2)
  have hfile : (l.write f data o w).1.file
      ((l.write f data o w).1.renameLog f o (l.write f data o w).2).2 = none := by
    rw [file, write_pfLogFile, hf]
    apply inodeOf_renameLog
  constructor
  · rfl
  · intro g hg
    left
    apply hg
  · intro i hi
    rw [hfile] at hi
    contradiction
  · exact ⟨f, Or.inl hf, hframe⟩
  · intro h
    apply h.of_frame hframe rfl
  · intro _ n i hi
    rw [hfile] at hi
    contradiction

/-- What `LogData` does to the logger and to the disk. -/
theorem evolves_logData (l : RollingFileLogger) (data : List UInt8) (o : LogOutcomes) (w : Disk) :
  Evolves (l, w) (l.logData data o w)
  := by
  cases hf : l.pfLogFile with
  | none =>
    rw [logData_of_null hf]
    apply evolves_refl
  | some f =>
    rw [logData_of_open hf]
    split
    · cases h : ((l.write f data o w).1.renameLog f o (l.write f data o w).2).1 with
      | true =>
        have hframe := (l.frame_write f data o w).trans
          ((l.write f data o w).1.frame_renameLog f o (l.write f data o w).2)
        rw [rotate_of_renamed h]
        exact evolves_fopen (Or.inl hf) hframe o.fopen o.tick.toInt32 0
      | false =>
        rw [rotate_of_not_renamed h]
        apply evolves_of_not_renamed hf
    · apply evolves_write hf

/-- `LogData` appends once, to the file of the logger, what `fwrite` accepts of the data. -/
theorem writes_logData (l : RollingFileLogger) (data : List UInt8) (o : LogOutcomes) (w : Disk) :
  w.writes (l.logData data o w).2 = ((l.file w).map fun i => (i, data.take o.fwrite)).toList
  := by
  cases hf : l.pfLogFile with
  | none => simp [logData_of_null hf, Fs.writes, file, hf]
  | some f =>
    obtain ⟨u, hu, hflush⟩ := l.calls_write f data o w
    have hnone : ∀ c ∈ u, c.writesTo = none := by
      intro c hc
      rw [hflush c hc]
      rfl
    rw [logData_of_open hf, file, hf, Option.bind_some]
    split
    · obtain ⟨v, hv, -, hrotate⟩ := (l.write f data o w).1.calls_rotate f o (l.write f data o w).2
      rw [hu, List.append_assoc, List.cons_append] at hv
      apply Fs.writes_of_calls hv
      intro c hc
      rcases List.mem_append.mp hc with hc | hc
      · apply hnone c hc
      · apply hrotate c hc
    · apply Fs.writes_of_calls hu hnone

/-- What the constructor does to the disk. -/
theorem evolves_construct (name : List UInt8) (w : Disk) :
  Evolves (⟨name, none, 0, 0⟩, w) (construct (some name) .success w)
  := by
  have h := evolves_fopen (l := ⟨name, none, 0, 0⟩) (Or.inr (Nat.le_refl _))
    (w.frame_refl name w.nextHandle) true 0 (construct (some name) .success w).1.nFileSize
  obtain ⟨f, hf, hframe⟩ := h.frame
  constructor
  · rfl
  · apply h.handle
  · apply h.file
  · exact ⟨f, hf, hframe.trans (Fs.Frame.of_eq rfl rfl rfl fun _ => rfl)⟩
  · apply h.givenOut
  · apply h.holds

/-! ### Loggers that work -/

/-- The stream of the logger is open, and there is a file of its filename. -/
structure Works (w : Disk) (l : RollingFileLogger) : Prop where
  file : (l.file w).isSome
  named : (w.content l.strFilename).isSome

/-- All names of files stay so. -/
def KeepsNames (v w : Disk) : Prop :=
  ∀ n, (v.content n).isSome → (w.content n).isSome

/-- A logger that opens its filename works. -/
theorem works_fopen (w : Disk) (name : List UInt8) (tick : Int32) (size : UInt32) :
  Works (w.fopen name true).2 ⟨name, (w.fopen name true).1, tick, size⟩
  where
  file := by
    obtain ⟨-, -, hinode⟩ := Fs.inodeOf_of_fopen (w.fopen_true name).1
    rw [RollingFileLogger.file, (w.fopen_true name).1, Option.bind_some, hinode]
    rfl
  named := w.isSome_content_of_fopen name

theorem works_construct (name : List UInt8) (w : Disk) :
  Works (construct (some name) .success w).2 (construct (some name) .success w).1
    ∧ KeepsNames w (construct (some name) .success w).2
  := by
  have h := works_fopen w name 0 (construct (some name) .success w).1.nFileSize
  constructor
  · constructor
    · apply h.file
    · apply h.named
  · intro n hn
    apply Fs.isSome_content_fopen hn

theorem keepsNames_write (l : RollingFileLogger) (f : Handle) (data : List UInt8) (o : LogOutcomes)
    (w : Disk) :
  KeepsNames w (l.write f data o w).2
  := by
  intro n hn
  rw [Fs.content, Option.isSome_map] at hn ⊢
  rw [dir_write]
  apply hn

/-- A renamed log file leaves no name without a file but its own. -/
theorem isSome_content_renameLog
    {l : RollingFileLogger} {f : Handle} {o : LogOutcomes} {w : Disk}
    (hrename : (l.renameLog f o w).1 = true) {n : List UInt8} (hn : (w.content n).isSome)
    (hne : n ≠ l.strFilename) :
  ((l.renameLog f o w).2.content n).isSome
  := by
  have hlog : (w.content l.strFilename).isSome := by
    rw [renameLog_fst, Bool.and_eq_true] at hrename
    apply hrename.2
  rcases eq_or_ne n (oldFile l.strFilename) with rfl | hold
  · rw [content_oldFile_renameLog hrename, Fs.isSome_content_push]
    apply hlog
  · unfold renameLog at hrename ⊢
    simp only at hrename ⊢
    rw [Fs.content_rename _ (oldFile_ne _).symm, if_pos hrename, if_neg hold, if_neg hne,
      Fs.content_remove, if_neg fun h => hold h.1, Fs.content_fclose, Fs.isSome_content_push]
    apply hn

/-- A rotation that renames the log file and opens a new one leaves a logger that works. -/
theorem works_rotate
    {l : RollingFileLogger} {f : Handle} {o : LogOutcomes} {w : Disk}
    (hrename : (l.renameLog f o w).1 = true) (hfopen : o.fopen = true) :
  Works (l.rotate f o w).2 (l.rotate f o w).1 ∧ KeepsNames w (l.rotate f o w).2
  := by
  rw [rotate_of_renamed hrename, hfopen]
  constructor
  · apply works_fopen
  · intro n hn
    rcases eq_or_ne n l.strFilename with rfl | hne
    · apply Fs.isSome_content_of_fopen
    · apply Fs.isSome_content_fopen
      apply isSome_content_renameLog hrename hn hne

/-- A logger whose operations succeed goes on to work, and leaves all names in place. -/
theorem Works.logData
    {w : Disk} {l : RollingFileLogger} (h : Works w l) (data : List UInt8) (time tick : UInt32) :
  let r := l.logData data (.success data time tick) w
  Works r.2 r.1 ∧ KeepsNames w r.2
  := by
  intro r
  obtain ⟨i, hi⟩ := Option.isSome_iff_exists.mp h.file
  obtain ⟨f, hf, hinode⟩ := Option.bind_eq_some_iff.mp hi
  have hkeeps := l.keepsNames_write f data (.success data time tick) w
  have hnamed := hkeeps _ h.named
  have hr : r = l.logData data (.success data time tick) w := rfl
  rw [logData_of_open hf] at hr
  rw [hr]
  split
  · obtain ⟨hworks, hrotate⟩ := works_rotate (f := f) (o := .success data time tick)
      (l := (l.write f data (.success data time tick) w).1)
      (w := (l.write f data (.success data time tick) w).2)
      (by rw [renameLog_fst]; apply hnamed) rfl
    use hworks
    intro n hn
    apply hrotate n (hkeeps n hn)
  · constructor
    · constructor
      · rw [RollingFileLogger.file, write_pfLogFile, hf, Option.bind_some, inodeOf_write, hinode]
        rfl
      · apply hnamed
    · apply hkeeps

/-- A logger stays at work when other ones leave it on its file and all names in place. -/
theorem Works.of_file_eq {v w : Disk} {l : RollingFileLogger} (h : Works v l)
    (hfile : l.file w = l.file v) (hkeeps : KeepsNames v w) :
  Works w l
  where
  file := by
    rw [hfile]
    apply h.file
  named := hkeeps _ h.named

end RollingFileLogger
