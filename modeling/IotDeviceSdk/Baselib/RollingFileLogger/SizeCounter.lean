import IotDeviceSdk.Baselib.RollingFileLogger.FailedRotation
import Mathlib.Algebra.Ring.Nat

/-!
# The size counter

`nFileSize` should be the number of bytes in the log file, so that the log file replaces the
old file only when it has really grown past `maxLogFileSize`.  The counter is wrong once
`fwrite` has accepted a part of a message only, or the constructor could not measure the file:
see `counter_true_iff`.
-/

namespace RollingFileLogger

open CString

/-- What has been written to the log file, if the handle of the logger is open. -/
def openLog (s : Session) : Option (List UInt8) :=
  s.1.pfLogFile.bind s.2.written

/-- The counter of an open log is the number of bytes in it. -/
def CounterTrue (s : Session) : Prop :=
  ∀ d, openLog s = some d → s.1.nFileSize.toNat = d.length

/-- What has been written to a log once `fwrite` has accepted its part of a message. -/
def accepted (d : List UInt8) (c : LogCall) : List UInt8 :=
  d ++ c.data.take c.outcomes.fwrite

/-- The call lets the log file replace the old file. -/
def Replaces (s : Session) (c : LogCall) : Prop :=
  .rename s.1.strFilename (oldFile s.1.strFilename) true
    ∈ (step s c).2.calls.drop s.2.calls.length

/-- The counter is right after the call, and the call lets the log file replace the old file only
when it exceeds the limit. -/
structure CallTrue (s : Session) (c : LogCall) : Prop where
  counter : CounterTrue (step s c)
  replaces : Replaces s c → ∃ d, (step s c).2.content (oldFile s.1.strFilename) = some d
    ∧ maxLogFileSize.toNat < d.length

/-- If the log is open, `fwrite` accepts all of the message, or enough to exceed the limit; or
the message would exceed the limit and the log file cannot be renamed.  If the logger was left with
a closed handle, the call does not get to rename a log file that is within the limit. -/
structure CountsRight (s : Session) (c : LogCall) : Prop where
  opened : ∀ d, openLog s = some d →
    c.data.length ≤ c.outcomes.fwrite
      ∨ maxLogFileSize.toNat < (accepted d c).length
      ∨ (maxLogFileSize.toNat < d.length + c.data.length ∧ c.outcomes.rename = false)
  closed : s.1.pfLogFile ≠ none → openLog s = none → maxLogFileSize < s.1.sizeAfter c.data →
    c.outcomes.rename = true → ∀ d, s.2.content s.1.strFilename = some d →
      maxLogFileSize.toNat < d.length

/-- A log file that is opened can be measured; or if it cannot be positioned and is opened
again, it can be removed or was empty anyway. -/
def MeasuresRight (o : OpenOutcomes) (content : Option (List UInt8)) : Prop :=
  o.fopen = true →
    if o.fseek then o.ftell = true
    else o.reopen = true → o.remove = true ∨ content.getD [] = []

/-! ### The log after a call -/

/-- A rotation that renames the log file leaves none of its name. -/
theorem content_renameLog_self
    {l : RollingFileLogger} {f : Stdio.Handle} {o : LogOutcomes} {w : Disk}
    (h : (l.renameLog f o w).1 = true) :
  (l.renameLog f o w).2.content l.strFilename = none
  := by
  unfold renameLog at h ⊢
  simp only at h ⊢
  rw [Stdio.Fs.content_rename _ (oldFile_ne _).symm, if_pos h, if_neg (oldFile_ne _).symm,
    if_pos rfl]

/-- A rotation leaves a new log, or none that is open. -/
theorem openLog_rotate
    {l : RollingFileLogger} {f : Stdio.Handle} (hf : l.pfLogFile = some f) (o : LogOutcomes)
    (w : Disk) :
  openLog (l.rotate f o w) = none
    ∨ (openLog (l.rotate f o w) = some [] ∧ (l.rotate f o w).1.nFileSize = 0)
  := by
  cases hrename : (l.renameLog f o w).1 with
  | true =>
    rw [rotate_of_renamed hrename, openLog]
    cases o.fopen with
    | false =>
      left
      rfl
    | true =>
      obtain ⟨hnext, -, hwritten⟩ := (l.renameLog f o w).2.fopen_true l.strFilename
      right
      constructor
      · simp only
        rw [hnext, Option.bind_some, hwritten, content_renameLog_self hrename]
        rfl
      · rfl
  | false =>
    rw [rotate_of_not_renamed hrename, openLog, hf, Option.bind_some, written_renameLog]
    left
    rfl

/-- A call that exceeds the limit leaves a new log, or none that is open. -/
theorem openLog_step_of_over
    {s : Session} {c : LogCall} (h : maxLogFileSize < s.1.sizeAfter c.data) :
  openLog (step s c) = none
    ∨ (openLog (step s c) = some [] ∧ (step s c).1.nFileSize = 0)
  := by
  rw [step]
  cases hf : s.1.pfLogFile with
  | none =>
    rw [logData_of_null hf, openLog, hf]
    left
    rfl
  | some f =>
    rw [logData_of_open hf, if_pos h]
    apply openLog_rotate ((write_pfLogFile s.1 f c.data c.outcomes s.2).trans hf)

/-- A call that stays within the limit appends what is accepted. -/
theorem openLog_step_of_not_over
    {s : Session} {c : LogCall} (h : ¬ maxLogFileSize < s.1.sizeAfter c.data) :
  openLog (step s c) = (openLog s).map (accepted · c)
  := by
  rw [step, openLog]
  cases hf : s.1.pfLogFile with
  | none =>
    rw [logData_of_null hf, openLog, hf]
    rfl
  | some f =>
    rw [logData_of_open hf, if_neg h, write_pfLogFile, openLog, hf, Option.bind_some, written_write]
    rfl

/-- A call that stays within the limit counts all of its message. -/
theorem nFileSize_step_of_not_over
    {s : Session} {c : LogCall} (h : ¬ maxLogFileSize < s.1.sizeAfter c.data) {d : List UInt8}
    (hd : openLog s = some d) :
  (step s c).1.nFileSize = s.1.sizeAfter c.data
  := by
  obtain ⟨f, hf, -⟩ := Option.bind_eq_some_iff.mp hd
  rw [step]
  rw [logData_of_open hf, if_neg h, write_nFileSize]

/-! ### Whether the log file is renamed -/

/-- Writing calls `fwrite` once, and `fflush` if at all. -/
theorem calls_write (l : RollingFileLogger) (f : Stdio.Handle) (data : List UInt8)
    (o : LogOutcomes) (w : Disk) :
  ∃ u, (l.write f data o w).2.calls = w.calls ++ .fwrite f (data.take o.fwrite) :: u
    ∧ ∀ c ∈ u, c = .fflush f
  := by
  rw [write]
  split
  · use [.fflush f]
    simp [Stdio.Fs.calls_fflush, Stdio.Fs.calls_fwrite]
  · use []
    simp [Stdio.Fs.calls_fwrite]

theorem calls_renameLog (l : RollingFileLogger) (f : Stdio.Handle) (o : LogOutcomes) (w : Disk) :
  ∃ ok, (l.renameLog f o w).2.calls
    = w.calls ++ [.fclose f, .remove (oldFile l.strFilename) ok,
        .rename l.strFilename (oldFile l.strFilename) (l.renameLog f o w).1]
  := by
  use ((w.fclose f).remove (oldFile l.strFilename) o.remove).1
  have hrename := Stdio.Fs.calls_rename ((w.fclose f).remove (oldFile l.strFilename) o.remove).2
    l.strFilename (oldFile l.strFilename) o.rename
  apply hrename.trans
  rw [Stdio.Fs.calls_remove, Stdio.Fs.calls_fclose]
  simp [renameLog]

/-- A rotation renames the log file if it can, and does not write. -/
theorem calls_rotate (l : RollingFileLogger) (f : Stdio.Handle) (o : LogOutcomes) (w : Disk) :
  ∃ u, (l.rotate f o w).2.calls = w.calls ++ u
    ∧ (.rename l.strFilename (oldFile l.strFilename) true ∈ u ↔ (l.renameLog f o w).1 = true)
    ∧ ∀ c ∈ u, c.writesTo = none
  := by
  obtain ⟨ok, hcalls⟩ := l.calls_renameLog f o w
  cases hrename : (l.renameLog f o w).1 with
  | true =>
    rw [rotate_of_renamed hrename]
    simp only
    rw [Stdio.Fs.calls_fopen, hcalls, List.append_assoc]
    refine ⟨_, rfl, ?_⟩
    simp [hrename, Stdio.Call.writesTo]
  | false =>
    rw [rotate_of_not_renamed hrename, hcalls]
    refine ⟨_, rfl, ?_⟩
    simp [hrename, Stdio.Call.writesTo]

/-- The log file replaces the old file in a call that exceeds the limit, if it can be
renamed. -/
theorem replaces_iff
    {s : Session} {f : Stdio.Handle} (hf : s.1.pfLogFile = some f) (c : LogCall) :
  Replaces s c ↔ maxLogFileSize < s.1.sizeAfter c.data
    ∧ ((s.1.write f c.data c.outcomes s.2).1.renameLog f c.outcomes
        (s.1.write f c.data c.outcomes s.2).2).1 = true
  := by
  obtain ⟨u, hu, hflush⟩ := s.1.calls_write f c.data c.outcomes s.2
  have hno : .rename s.1.strFilename (oldFile s.1.strFilename) true
      ∉ .fwrite f (c.data.take c.outcomes.fwrite) :: u := by
    intro hmem
    rcases List.mem_cons.mp hmem with heq | hmem
    · contradiction
    · have heq := hflush _ hmem
      contradiction
  rw [Replaces, step]
  rw [logData_of_open hf]
  split
  · next hover =>
    obtain ⟨v, hv, hrename, -⟩ := (s.1.write f c.data c.outcomes s.2).1.calls_rotate f c.outcomes
      (s.1.write f c.data c.outcomes s.2).2
    rw [hv, hu, List.append_assoc, List.drop_left, List.mem_append, or_iff_right hno,
      and_iff_right hover]
    apply hrename
  · next hover =>
    rw [hu, List.drop_left]
    apply iff_of_false
    · apply hno
    · intro hand
      apply hover hand.1

/-- When the log file replaces the old file in a call on an open log. -/
theorem replaces_iff_of_open {s : Session} (h : Placed s) {d : List UInt8}
    (hd : openLog s = some d) (c : LogCall) :
  Replaces s c ↔ maxLogFileSize < s.1.sizeAfter c.data ∧ c.outcomes.rename = true
  := by
  obtain ⟨f, hf, hwritten⟩ := Option.bind_eq_some_iff.mp hd
  have hopen := openOn_write (h f d hf hwritten) s.1 c.data c.outcomes
  rw [replaces_iff hf,
    renameLog_fst_of_openOn (l := (s.1.write f c.data c.outcomes s.2).1) hopen]

/-- When the log file replaces the old file in a call on a closed handle. -/
theorem replaces_iff_of_closed
    {s : Session} {f : Stdio.Handle} (hf : s.1.pfLogFile = some f) (hclosed : openLog s = none)
    (c : LogCall) :
  Replaces s c ↔ maxLogFileSize < s.1.sizeAfter c.data ∧ c.outcomes.rename = true
    ∧ (s.2.content s.1.strFilename).isSome
  := by
  rw [openLog, hf, Option.bind_some] at hclosed
  rw [replaces_iff hf, renameLog_fst, content_write_of_closed hclosed, Bool.and_eq_true]
  apply Iff.rfl

/-- What replaces the old file: the log file as it is after writing. -/
theorem content_oldFile_of_replaces
    {s : Session} {f : Stdio.Handle} (hf : s.1.pfLogFile = some f) {c : LogCall}
    (h : Replaces s c) :
  (step s c).2.content (oldFile s.1.strFilename)
    = ((s.1.write f c.data c.outcomes s.2).2.push f).content s.1.strFilename
  := by
  obtain ⟨hover, hrename⟩ := (replaces_iff hf c).mp h
  rw [step]
  rw [logData_of_open hf, if_pos hover, rotate_of_renamed hrename]
  simp only
  rw [Stdio.Fs.content_fopen_of_ne]
  · apply content_oldFile_renameLog hrename
  · apply oldFile_ne

theorem content_oldFile_of_open {s : Session} (h : Placed s) {d : List UInt8}
    (hd : openLog s = some d) {c : LogCall} (hrep : Replaces s c) :
  (step s c).2.content (oldFile s.1.strFilename) = some (accepted d c)
  := by
  obtain ⟨f, hf, hwritten⟩ := Option.bind_eq_some_iff.mp hd
  have hopen := openOn_write (h f d hf hwritten) s.1 c.data c.outcomes
  rw [content_oldFile_of_replaces hf hrep, hopen.content_push, written_write, hwritten]
  rfl

theorem content_oldFile_of_closed
    {s : Session} {f : Stdio.Handle} (hf : s.1.pfLogFile = some f) (hclosed : openLog s = none)
    {c : LogCall} (hrep : Replaces s c) :
  (step s c).2.content (oldFile s.1.strFilename) = s.2.content s.1.strFilename
  := by
  rw [openLog, hf, Option.bind_some] at hclosed
  have hwritten := s.1.written_write f c.data c.outcomes s.2
  rw [hclosed, Option.map_none] at hwritten
  rw [content_oldFile_of_replaces hf hrep,
    Stdio.Fs.push_of_closed (Option.map_eq_none_iff.mp hwritten), content_write_of_closed hclosed]

/-! ### Calls -/

/-- The logger is placed, and the counter of an open log is right and far from wrapping. -/
structure Counted (s : Session) : Prop where
  placed : Placed s
  counter : CounterTrue s
  short : ∀ d, openLog s = some d → d.length < 2 ^ 31

theorem Counted.sizeAfter
    {s : Session} (h : Counted s) {d : List UInt8} (hd : openLog s = some d)
    {data : List UInt8} (hdata : data.length < 2 ^ 31) :
  (s.1.sizeAfter data).toNat = d.length + data.length
  := by
  have hshort := h.short d hd
  rw [RollingFileLogger.sizeAfter, UInt32.toNat_add, UInt32.toNat_ofNat', h.counter d hd]
  omega

theorem length_accepted (d : List UInt8) (c : LogCall) :
  (accepted d c).length = d.length + min c.outcomes.fwrite c.data.length
  := by
  rw [accepted, List.length_append, List.length_take]

/-- The counter is right after a call that exceeds the limit. -/
theorem counterTrue_step_of_over
    {s : Session} {c : LogCall} (h : maxLogFileSize < s.1.sizeAfter c.data) :
  CounterTrue (step s c)
  := by
  intro d hd
  rcases openLog_step_of_over h with hnone | ⟨hnew, hsize⟩
  · rw [hnone] at hd
    contradiction
  · obtain rfl := Option.some.inj (hnew.symm.trans hd)
    rw [hsize]
    rfl

theorem Counted.over_iff
    {s : Session} (h : Counted s) {d : List UInt8} (hd : openLog s = some d)
    {data : List UInt8} (hdata : data.length < 2 ^ 31) :
  maxLogFileSize < s.1.sizeAfter data ↔ maxLogFileSize.toNat < d.length + data.length
  := by
  rw [UInt32.lt_iff_toNat_lt, h.sizeAfter hd hdata]

/-- The counter is right after a call that stays within the limit exactly when all of its
message was accepted. -/
theorem Counted.counterTrue_step_iff
    {s : Session} (h : Counted s) {d : List UInt8} (hd : openLog s = some d) {c : LogCall}
    (hdata : c.data.length < 2 ^ 31) (hover : ¬ maxLogFileSize < s.1.sizeAfter c.data) :
  CounterTrue (step s c) ↔ c.data.length ≤ c.outcomes.fwrite
  := by
  have hstep : openLog (step s c) = some (accepted d c) := by
    rw [openLog_step_of_not_over hover, hd, Option.map_some]
  have hsize : (step s c).1.nFileSize.toNat = d.length + c.data.length := by
    rw [nFileSize_step_of_not_over hover hd, h.sizeAfter hd hdata]
  have hlen := length_accepted d c
  constructor
  · intro hcounter
    have heq := hcounter _ hstep
    omega
  · intro hfull d' hd'
    obtain rfl := Option.some.inj (hstep.symm.trans hd')
    omega

/-- A logger without a handle replaces nothing. -/
theorem not_replaces_of_null {s : Session} (hf : s.1.pfLogFile = none) (c : LogCall) :
  ¬ Replaces s c
  := by
  rw [Replaces, step]
  rw [logData_of_null hf, List.drop_length]
  apply List.not_mem_nil

/-- Without an open log, there is nothing to count. -/
theorem counterTrue_step_of_closed {s : Session} (hclosed : openLog s = none) (c : LogCall) :
  CounterTrue (step s c)
  := by
  by_cases hover : maxLogFileSize < s.1.sizeAfter c.data
  · apply counterTrue_step_of_over hover
  · intro d hd
    rw [openLog_step_of_not_over hover, hclosed] at hd
    contradiction

/-- When a call without an open log goes well. -/
theorem callTrue_iff_of_closed {s : Session} (hclosed : openLog s = none) (c : LogCall) :
  CallTrue s c ↔ CountsRight s c
  := by
  constructor
  · intro htrue
    constructor
    · intro d hd
      rw [hclosed] at hd
      contradiction
    · intro hnull _ hover hrename d hd
      obtain ⟨f, hf⟩ := Option.ne_none_iff_exists'.mp hnull
      have hrep := (replaces_iff_of_closed hf hclosed c).mpr
        ⟨hover, hrename, by rw [hd, Option.isSome_some]⟩
      obtain ⟨d', hd', hlimit⟩ := htrue.replaces hrep
      rw [content_oldFile_of_closed hf hclosed hrep, hd] at hd'
      obtain rfl := Option.some.inj hd'
      apply hlimit
  · intro hright
    use counterTrue_step_of_closed hclosed c
    intro hrep
    cases hf : s.1.pfLogFile with
    | none => apply absurd hrep (not_replaces_of_null hf c)
    | some f =>
      obtain ⟨hover, hrename, hlog⟩ := (replaces_iff_of_closed hf hclosed c).mp hrep
      obtain ⟨d, hd⟩ := Option.isSome_iff_exists.mp hlog
      use d
      constructor
      · rw [content_oldFile_of_closed hf hclosed hrep, hd]
      · apply hright.closed (by simp [hf]) hclosed hover hrename d hd

/-- When a call that exceeds the limit goes well. -/
theorem Counted.callTrue_iff_of_over
    {s : Session} (h : Counted s) {d : List UInt8} (hd : openLog s = some d) {c : LogCall}
    (hover : maxLogFileSize < s.1.sizeAfter c.data) :
  CallTrue s c ↔ maxLogFileSize.toNat < (accepted d c).length ∨ c.outcomes.rename = false
  := by
  have hreplaces := replaces_iff_of_open h.placed hd c
  constructor
  · intro htrue
    cases hrename : c.outcomes.rename with
    | true =>
      left
      have hrep := hreplaces.mpr ⟨hover, hrename⟩
      obtain ⟨d', hd', hlimit⟩ := htrue.replaces hrep
      rw [content_oldFile_of_open h.placed hd hrep] at hd'
      obtain rfl := Option.some.inj hd'
      apply hlimit
    | false =>
      right
      rfl
  · intro hright
    use counterTrue_step_of_over hover
    intro hrep
    use accepted d c, content_oldFile_of_open h.placed hd hrep
    rcases hright with haccepted | hrename
    · apply haccepted
    · rw [(hreplaces.mp hrep).2] at hrename
      contradiction

/-- When a call that stays within the limit goes well. -/
theorem Counted.callTrue_iff_of_not_over
    {s : Session} (h : Counted s) {d : List UInt8} (hd : openLog s = some d) {c : LogCall}
    (hdata : c.data.length < 2 ^ 31) (hover : ¬ maxLogFileSize < s.1.sizeAfter c.data) :
  CallTrue s c ↔ c.data.length ≤ c.outcomes.fwrite
  := by
  rw [← h.counterTrue_step_iff hd hdata hover]
  constructor
  · apply CallTrue.counter
  · intro hcounter
    use hcounter
    intro hrep
    apply absurd ((replaces_iff_of_open h.placed hd c).mp hrep).1 hover

/-- On an open log, only what is said of open logs matters. -/
theorem countsRight_iff_of_open {s : Session} {d : List UInt8} (hd : openLog s = some d)
    (c : LogCall) :
  CountsRight s c ↔ c.data.length ≤ c.outcomes.fwrite
    ∨ maxLogFileSize.toNat < (accepted d c).length
    ∨ (maxLogFileSize.toNat < d.length + c.data.length ∧ c.outcomes.rename = false)
  := by
  constructor
  · intro h
    apply h.opened d hd
  · intro h
    constructor
    · intro d' hd'
      obtain rfl := Option.some.inj (hd.symm.trans hd')
      apply h
    · intro _ hclosed
      rw [hd] at hclosed
      contradiction

/-- When a call goes well. -/
theorem Counted.callTrue_iff
    {s : Session} (h : Counted s) {c : LogCall} (hdata : c.data.length < 2 ^ 31) :
  CallTrue s c ↔ CountsRight s c
  := by
  cases hd : openLog s with
  | none => apply callTrue_iff_of_closed hd
  | some d =>
    have hlen := length_accepted d c
    have hiff := h.over_iff hd hdata
    rw [countsRight_iff_of_open hd]
    by_cases hover : maxLogFileSize < s.1.sizeAfter c.data
    · rw [h.callTrue_iff_of_over hd hover]
      have hexceeds := hiff.mp hover
      constructor
      · rintro (haccepted | hrename)
        · exact Or.inr (Or.inl haccepted)
        · exact Or.inr (Or.inr ⟨hexceeds, hrename⟩)
      · rintro (hfull | haccepted | ⟨-, hrename⟩)
        · left
          omega
        · exact Or.inl haccepted
        · exact Or.inr hrename
    · rw [h.callTrue_iff_of_not_over hd hdata hover]
      have hwithin := hiff.not.mp hover
      constructor
      · apply Or.inl
      · rintro (hfull | haccepted | ⟨hexceeds, -⟩)
        · apply hfull
        · omega
        · contradiction

/-- A call that goes well leaves the counter right and far from wrapping. -/
theorem Counted.step
    {s : Session} (h : Counted s) {c : LogCall} (hdata : c.data.length < 2 ^ 31)
    (hc : CountsRight s c) :
  Counted (step s c)
  where
  placed := h.placed.step c
  counter := ((h.callTrue_iff hdata).mpr hc).counter
  short := by
    intro d hd
    by_cases hover : maxLogFileSize < s.1.sizeAfter c.data
    · rcases openLog_step_of_over hover with hnone | ⟨hnew, -⟩
      · rw [hnone] at hd
        contradiction
      · obtain rfl := Option.some.inj (hnew.symm.trans hd)
        decide
    · rw [openLog_step_of_not_over hover] at hd
      obtain ⟨d, hd', rfl⟩ := Option.map_eq_some_iff.mp hd
      have hwithin := (h.over_iff hd' hdata).not.mp hover
      have hlimit : maxLogFileSize.toNat = 2097152 := rfl
      rw [length_accepted]
      omega

/-! ### The constructor -/

/-- What the constructor has opened, and how it counts, when the log file can be opened and
positioned. -/
theorem construct_of_fseek (name : List UInt8) {o : OpenOutcomes} (hfopen : o.fopen = true)
    (hfseek : o.fseek = true) (w : Disk) :
  openLog (construct (some name) o w) = some ((w.content name).getD [])
    ∧ (construct (some name) o w).1.nFileSize
      = UInt32.ofInt (if o.ftell then ((w.content name).getD []).length else -1)
  := by
  obtain ⟨-, -, hwritten⟩ := w.fopen_true name
  have hopened : ((w.fopen name true).2.fseek w.nextHandle true).2.written w.nextHandle
      = some ((w.content name).getD []) := hwritten
  have hconstruct : construct (some name) o w
      = (⟨name, some w.nextHandle, 0, UInt32.ofInt
            (((w.fopen name true).2.fseek w.nextHandle true).2.ftell w.nextHandle o.ftell).1⟩,
          (((w.fopen name true).2.fseek w.nextHandle true).2.ftell w.nextHandle o.ftell).2) := by
    rw [construct, hfopen, hfseek]
    rfl
  rw [hconstruct]
  constructor
  · apply hwritten
  · simp only [Stdio.Fs.ftell, hopened, Option.getD_some]

/-- What the constructor has opened, and how it counts, when the log file can be opened but
not positioned. -/
theorem construct_of_not_fseek (name : List UInt8) {o : OpenOutcomes} (hfopen : o.fopen = true)
    (hfseek : o.fseek = false) (w : Disk) :
  openLog (construct (some name) o w)
      = (if o.reopen then some (if o.remove then [] else (w.content name).getD []) else none)
    ∧ (construct (some name) o w).1.nFileSize = 0
  := by
  obtain ⟨-, hopen, hwritten⟩ := w.fopen_true name
  let u := ((w.fopen name true).2.fseek w.nextHandle false).2
  let v := (u.fclose w.nextHandle).remove name o.remove
  have hopen' : u.OpenOn w.nextHandle name := hopen
  have hwritten' : u.written w.nextHandle = some ((w.content name).getD []) := hwritten
  have hcontent : (v.2.content name).getD []
      = if o.remove then [] else (w.content name).getD [] := by
    rw [Stdio.Fs.content_remove, Stdio.Fs.content_fclose, hopen'.content_push, hwritten']
    cases o.remove with
    | false => simp
    | true => simp
  have hconstruct : construct (some name) o w
      = (⟨name, (v.2.fopen name o.reopen).1, 0, 0⟩, (v.2.fopen name o.reopen).2) := by
    rw [construct, hfopen, hfseek]
    rfl
  rw [hconstruct]
  cases hreopen : o.reopen with
  | false => exact ⟨rfl, rfl⟩
  | true =>
    obtain ⟨hnext, -, hnew⟩ := v.2.fopen_true name
    constructor
    · rw [openLog]
      simp only
      rw [hnext, Option.bind_some, hnew, hcontent]
      rfl
    · rfl

/-- The constructor opens the log file as it is, or an empty one. -/
theorem eq_of_openLog_construct
    {name : List UInt8} {o : OpenOutcomes} {w : Disk} {d : List UInt8}
    (hd : openLog (construct (some name) o w) = some d) :
  d = (w.content name).getD [] ∨ d = []
  := by
  cases hfopen : o.fopen with
  | false =>
    rw [construct, hfopen] at hd
    contradiction
  | true =>
    cases hfseek : o.fseek with
    | true =>
      rw [(construct_of_fseek name hfopen hfseek w).1] at hd
      left
      exact (Option.some.inj hd).symm
    | false =>
      rw [(construct_of_not_fseek name hfopen hfseek w).1] at hd
      split_ifs at hd
      · right
        exact (Option.some.inj hd).symm
      · left
        exact (Option.some.inj hd).symm

theorem toNat_ofInt_of_lt {n : ℕ} (h : n < 2 ^ 31) :
  (UInt32.ofInt n).toNat = n
  := by
  rw [UInt32.ofInt, UInt32.toNat_ofNat']
  omega

/-- The constructor counts the log file that it could position exactly when `ftell` succeeds. -/
theorem counterTrue_construct_iff_of_fseek
    (name : List UInt8) {o : OpenOutcomes} (hfopen : o.fopen = true) (hfseek : o.fseek = true)
    {w : Disk} (hlen : ((w.content name).getD []).length < 2 ^ 31) :
  CounterTrue (construct (some name) o w) ↔ o.ftell = true
  := by
  obtain ⟨hopen, hsize⟩ := construct_of_fseek name hfopen hfseek w
  rw [CounterTrue, hopen, hsize]
  cases o.ftell with
  | false =>
    apply iff_of_false
    · intro h
      have heq := h _ rfl
      rw [if_neg Bool.false_ne_true, show (UInt32.ofInt (-1)).toNat = 4294967295 from rfl] at heq
      omega
    · exact Bool.false_ne_true
  | true =>
    apply iff_of_true
    · intro d hd
      obtain rfl := Option.some.inj hd
      rw [if_pos rfl, toNat_ofInt_of_lt hlen]
    · rfl

/-- The constructor counts the log file that it could not position exactly when the file is new,
or was empty. -/
theorem counterTrue_construct_iff_of_not_fseek
    (name : List UInt8) {o : OpenOutcomes} (hfopen : o.fopen = true) (hfseek : o.fseek = false)
    (w : Disk) :
  CounterTrue (construct (some name) o w)
    ↔ (o.reopen = true → o.remove = true ∨ (w.content name).getD [] = [])
  := by
  obtain ⟨hopen, hsize⟩ := construct_of_not_fseek name hfopen hfseek w
  rw [CounterTrue, hopen, hsize]
  cases o.reopen with
  | false => simp
  | true =>
    cases o.remove with
    | false => simp [eq_comm (a := 0)]
    | true => simp

/-- The constructor leaves the counter right exactly when it can measure the log file. -/
theorem counterTrue_construct_iff
    (name : List UInt8) (o : OpenOutcomes) {w : Disk}
    (hlen : ((w.content name).getD []).length < 2 ^ 31) :
  CounterTrue (construct (some name) o w) ↔ MeasuresRight o (w.content name)
  := by
  rw [MeasuresRight]
  cases hfopen : o.fopen with
  | false =>
    apply iff_of_true
    · intro d hd
      rw [construct, hfopen] at hd
      contradiction
    · intro h
      contradiction
  | true =>
    rw [imp_iff_right rfl]
    cases hfseek : o.fseek with
    | true =>
      rw [if_pos rfl]
      apply counterTrue_construct_iff_of_fseek name hfopen hfseek hlen
    | false =>
      rw [if_neg Bool.false_ne_true]
      apply counterTrue_construct_iff_of_not_fseek name hfopen hfseek

/-- After the constructor and any calls, the counter of an open log has been the number of bytes
in it all the time, and the log file has replaced the old file only when it exceeded the limit,
exactly when the constructor could measure the file and every call counted right. -/
theorem counter_true_iff
    (name : List UInt8) (o : OpenOutcomes) (files : List UInt8 → Option (List UInt8))
    (cs : List LogCall) (hinit : ((files name).getD []).length < 2 ^ 31)
    (hdata : ∀ c ∈ cs, c.data.length < 2 ^ 31) :
  let s := construct (some name) o (Stdio.Fs.boot files)
  (CounterTrue s ∧ ∀ pre c post, cs = pre ++ c :: post → CallTrue (run s pre) c)
    ↔ MeasuresRight o (files name)
      ∧ ∀ pre c post, cs = pre ++ c :: post → CountsRight (run s pre) c
  := by
  intro s
  have hcontent := Stdio.Fs.content_boot files name
  have hconstruct : CounterTrue s ↔ MeasuresRight o (files name) := by
    rw [← hcontent] at hinit ⊢
    apply counterTrue_construct_iff name o hinit
  rw [hconstruct, and_congr_right_iff]
  intro hmeasures
  have hcounted : Counted s := by
    constructor
    · apply placed_construct
    · apply hconstruct.mpr hmeasures
    · intro d hd
      rcases eq_of_openLog_construct hd with rfl | rfl
      · rw [hcontent]
        apply hinit
      · decide
  apply Iff.trans Run.guarded_iff.symm
  apply Iff.trans _ Run.guarded_iff
  apply Run.guarded_iff_guarded (I := Counted)
  · intro t c hc ht
    apply ht.callTrue_iff (hdata c hc)
  · intro t c hc ht
    apply ht.step (hdata c hc)
  · apply hcounted

/-- A message of two bytes, of which `fwrite` accepts one. -/
def shortWrite : LogCall where
  data := [1, 2]
  outcomes := { time := 0, tick := 0, fwrite := 1, remove := true, rename := true, fopen := true }

/-- The hypotheses of `counter_true_iff` are met by a new log and one short write. -/
theorem shortWrite_counter_true_iff :
  let s := construct (some (ascii "test.log")) ⟨true, true, true, true, true⟩
    (Stdio.Fs.boot fun _ => none)
  (CounterTrue s ∧ ∀ pre c post, [shortWrite] = pre ++ c :: post → CallTrue (run s pre) c)
    ↔ MeasuresRight ⟨true, true, true, true, true⟩ none
      ∧ ∀ pre c post, [shortWrite] = pre ++ c :: post → CountsRight (run s pre) c
  := by
  apply counter_true_iff (ascii "test.log") ⟨true, true, true, true, true⟩ fun _ => none
  · decide
  · decide

/-- After a write that accepts one byte of two, the counter of a new log is two. -/
theorem not_counterTrue_shortWrite :
  let s := step (construct (some (ascii "test.log")) ⟨true, true, true, true, true⟩
    (Stdio.Fs.boot fun _ => none)) shortWrite
  openLog s = some [1] ∧ s.1.nFileSize = 2 ∧ ¬ CounterTrue s
  := by
  intro s
  have hopen : openLog s = some [1] := by decide
  have hsize : s.1.nFileSize = 2 := by decide
  use hopen, hsize
  intro h
  have heq := h [1] hopen
  rw [hsize] at heq
  contradiction

end RollingFileLogger
