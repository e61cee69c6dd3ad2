import IotDeviceSdk.Baselib.Logging.Delivery
import IotDeviceSdk.Baselib.Logging.Parameters
import IotDeviceSdk.Baselib.RollingFileLogger.Sharing
import IotDeviceSdk.Foundation.Mutual
import Mathlib.Data.List.Nodup

/-!
# The log service

`ConfigureLog` constructs a `RollingFileLogger` for the filename it is given, and each statement
that is logged is handed over to all of them.  Nothing keeps a file from having two loggers, so
a text is appended twice once a filename was given twice.  But each logger that a statement reaches
has an open file and appends the text once, and as long as the filenames are different, no two of
them append it to the same file: see `written_once`.
-/

namespace LogMessage

open CString RollingFileLogger Mutual

/-- The logging of a program: the static variables, the rolling file loggers in the order of
their construction, and the disk. -/
structure Service where
  state : State
  loggers : List RollingFileLogger
  disk : Disk

/-- A use of the log service. -/
inductive Use where
  | configureLog (params filename : Option (List UInt8))
  /-- `LOG`; `clock k` is what the `k`-th logger reads from the clock -/
  | log (e : Env) (m : Statement) (clock : ℕ → UInt32 × UInt32)

/-- The filename that a use gives. -/
def Use.filename : Use → Option (List UInt8)
  | .configureLog _ filename => filename
  | .log _ _ _ => none

namespace Service

/-- The log service when the program starts. -/
def init (debug : Bool) (start : UInt32) (files : List UInt8 → Option (List UInt8)) :
    Service where
  state := State.init debug start
  loggers := []
  disk := Stdio.Fs.boot files

/-- `ConfigureLog` with its effect on the disk. -/
def configureLog (params filename : Option (List UInt8)) (v : Service) : Service :=
  match LogMessage.configureLog params filename v.state with
  | none => v
  | some state =>
    match filename with
    | none => { v with state := state }
    | some filename =>
      let r := construct (some filename) .success v.disk
      ⟨state, v.loggers ++ [r.1], r.2⟩

/-- The call of `LogData` on a stream. -/
def logData (clock : ℕ → UInt32 × UInt32) (v : Service) (c : Stream × List UInt8) : Service :=
  match c.1 with
  | .own _ => v
  | .rollingFile k =>
    match v.loggers[k]? with
    | none => v
    | some l =>
      let r := l.logData c.2 (.success c.2 (clock k).1 (clock k).2) v.disk
      { v with loggers := v.loggers.set k r.1, disk := r.2 }

/-- One use, all of whose file operations succeed. -/
def step (v : Service) : Use → Service
  | .configureLog params filename => v.configureLog params filename
  | .log e m clock => (logDataCalls (log v.state e m)).foldl (logData clock) v

/-- What is appended by calls of `LogData`, with the files. -/
def writes (clock : ℕ → UInt32 × UInt32) :
    Service → List (Stream × List UInt8) → List (Stdio.Inode (List UInt8) × List UInt8)
  | _, [] => []
  | v, c :: cs => v.disk.writes (logData clock v c).disk ++ writes clock (logData clock v c) cs

/-- The file that a registered stream is on. -/
def file (v : Service) : Stream → Option (Stdio.Inode (List UInt8))
  | .own _ => none
  | .rollingFile k => v.loggers[k]?.bind fun l => l.file v.disk

/-! ### The loggers -/

/-- The streams that are registered are the loggers, which have handles of their own. -/
structure Registered (v : Service) : Prop where
  rollingFiles : v.state.rollingFiles = v.loggers.map RollingFileLogger.strFilename
  streams : v.state.streamList.map Prod.fst
    = (List.range v.loggers.length).map Stream.rollingFile
  givenOut : ∀ (k : ℕ) l, v.loggers[k]? = some l → GivenOut v.disk l
  otherHandle : Mutually OtherHandle v.loggers

/-- The loggers have files of their own. -/
structure Separate (v : Service) : Prop where
  holds : ∀ (k : ℕ) l, v.loggers[k]? = some l → Holds v.disk l
  apart : Mutually (Apart v.disk) v.loggers

/-- The loggers are at work. -/
def AtWork (v : Service) : Prop :=
  ∀ (k : ℕ) l, v.loggers[k]? = some l → Works v.disk l

/-- Whatever one logger does, the other ones stay on their files. -/
theorem Registered.file_eq
    {v : Service} (h : Registered v) {k : ℕ} {l : RollingFileLogger}
    (hk : v.loggers[k]? = some l) {r : Session} (hr : Evolves (l, v.disk) r) {j : ℕ}
    {m : RollingFileLogger} (hj : v.loggers[j]? = some m) (hne : j ≠ k) :
  m.file r.2 = m.file v.disk
  := by
  apply hr.file_eq (h.givenOut j m hj)
  apply h.otherHandle k j l m hk hj hne.symm

/-- Whatever a logger does, the loggers keep handles of their own. -/
theorem Registered.set
    {v : Service} (h : Registered v) {k : ℕ} {l : RollingFileLogger}
    (hk : v.loggers[k]? = some l) {r : Session} (hr : Evolves (l, v.disk) r) :
  Registered { v with loggers := v.loggers.set k r.1, disk := r.2 }
  where
  rollingFiles := by
    have hname : (v.loggers.map RollingFileLogger.strFilename)[k]? = some l.strFilename := by
      rw [List.getElem?_map, hk, Option.map_some]
    rw [h.rollingFiles, List.map_set, hr.strFilename]
    apply List.ext_getElem?
    intro j
    rw [List.getElem?_set]
    split_ifs with hkj hlt
    · rw [← hkj, hname]
    · rw [← hkj, List.getElem?_eq_none (Nat.not_lt.mp hlt)]
    · rfl
  streams := by
    rw [h.streams]
    simp only [List.length_set]
  givenOut := by
    intro j m hj
    rcases getElem?_set_cases hj with ⟨-, rfl⟩ | ⟨-, hj⟩
    · apply hr.givenOut (h.givenOut k l hk)
    · apply hr.givenOut_other (h.givenOut j m hj)
  otherHandle := by
    apply h.otherHandle.set fun _ _ => OtherHandle.symm
    · intro j m hj hne
      apply hr.otherHandle (h.givenOut j m hj)
      apply h.otherHandle k j l m hk hj hne.symm
    · intro i j m n _ _ _ _ hmn
      apply hmn

/-- Whatever a logger does, the loggers keep files of their own. -/
theorem Separate.set
    {v : Service} (h : Separate v) (hreg : Registered v) {k : ℕ} {l : RollingFileLogger}
    (hk : v.loggers[k]? = some l) {r : Session} (hr : Evolves (l, v.disk) r) :
  Separate { v with loggers := v.loggers.set k r.1, disk := r.2 }
  where
  holds := by
    intro j m hj
    rcases getElem?_set_cases hj with ⟨-, rfl⟩ | ⟨hne, hj⟩
    · apply hr.holds (h.holds k l hk)
    · apply hr.holds_other (hreg.file_eq hk hr hj hne) (h.holds j m hj)
      apply h.apart k j l m hk hj hne.symm
  apart := by
    apply h.apart.set fun _ _ => Apart.symm
    · intro j m hj hne
      apply hr.apart (hreg.file_eq hk hr hj hne) (h.holds j m hj)
      apply h.apart k j l m hk hj hne.symm
    · intro i j m n hi hj hik hjk hmn
      apply hmn.of_file_eq (hreg.file_eq hk hr hi hik) (hreg.file_eq hk hr hj hjk)

/-- A new logger has a handle of its own. -/
theorem Registered.concat
    {v : Service} (h : Registered v) {name : List UInt8} {r : Session}
    (hr : Evolves (⟨name, none, 0, 0⟩, v.disk) r) {state : State}
    (hfiles : state.rollingFiles = v.state.rollingFiles ++ [name])
    (hstreams : state.streamList.map Prod.fst
      = v.state.streamList.map Prod.fst ++ [.rollingFile v.loggers.length]) :
  Registered ⟨state, v.loggers ++ [r.1], r.2⟩
  where
  rollingFiles := by
    rw [hfiles, h.rollingFiles, List.map_append, List.map_singleton, hr.strFilename]
  streams := by
    rw [hstreams, h.streams, List.length_append, List.length_singleton, List.range_succ,
      List.map_append, List.map_singleton]
  givenOut := by
    intro j m hj
    rcases getElem?_concat_cases hj with ⟨-, rfl⟩ | hj
    · apply hr.givenOut
      intro f hf
      contradiction
    · apply hr.givenOut_other (h.givenOut j m hj)
  otherHandle := by
    apply h.otherHandle.concat fun _ _ => OtherHandle.symm
    · intro j m hj
      apply hr.otherHandle (h.givenOut j m hj)
      intro f hf
      contradiction
    · intro i j m n _ _ hmn
      apply hmn

/-- A new logger with a new filename has a file of its own. -/
theorem Separate.concat
    {v : Service} (h : Separate v) (hreg : Registered v) {name : List UInt8}
    (hnew : name ∉ v.state.rollingFiles) {r : Session}
    (hr : Evolves (⟨name, none, 0, 0⟩, v.disk) r) (state : State) :
  Separate ⟨state, v.loggers ++ [r.1], r.2⟩
  := by
  have hfile : ∀ (j : ℕ) m, v.loggers[j]? = some m → m.file r.2 = m.file v.disk := by
    intro j m hj
    apply hr.file_eq (hreg.givenOut j m hj)
    intro f hf
    contradiction
  have hapart : ∀ (j : ℕ) m, v.loggers[j]? = some m → Apart v.disk ⟨name, none, 0, 0⟩ m := by
    intro j m hj
    constructor
    · rintro rfl
      apply hnew
      rw [hreg.rollingFiles]
      apply List.mem_map_of_mem (List.mem_of_getElem? hj)
    · intro i hi
      contradiction
  constructor
  · intro j m hj
    rcases getElem?_concat_cases hj with ⟨-, rfl⟩ | hj
    · apply hr.holds
      intro n i hi
      contradiction
    · apply hr.holds_other (hfile j m hj) (h.holds j m hj) (hapart j m hj)
  · apply h.apart.concat fun _ _ => Apart.symm
    · intro j m hj
      apply hr.apart (hfile j m hj) (h.holds j m hj) (hapart j m hj)
    · intro i j m n hi hj hmn
      apply hmn.of_file_eq (hfile i m hi) (hfile j n hj)

/-- A logger that goes on to work and takes no name away leaves all loggers at work. -/
theorem AtWork.set
    {v : Service} (h : AtWork v) (hreg : Registered v) {k : ℕ} {l : RollingFileLogger}
    (hk : v.loggers[k]? = some l) {r : Session} (hr : Evolves (l, v.disk) r)
    (hworks : Works r.2 r.1) (hkeeps : KeepsNames v.disk r.2) :
  AtWork { v with loggers := v.loggers.set k r.1, disk := r.2 }
  := by
  intro j m hj
  rcases getElem?_set_cases hj with ⟨-, rfl⟩ | ⟨hne, hj⟩
  · apply hworks
  · apply (h j m hj).of_file_eq (hreg.file_eq hk hr hj hne) hkeeps

/-- A new logger that works and takes no name away leaves all loggers at work. -/
theorem AtWork.concat
    {v : Service} (h : AtWork v) (hreg : Registered v) {name : List UInt8} {r : Session}
    (hr : Evolves (⟨name, none, 0, 0⟩, v.disk) r) (hworks : Works r.2 r.1)
    (hkeeps : KeepsNames v.disk r.2) (state : State) :
  AtWork ⟨state, v.loggers ++ [r.1], r.2⟩
  := by
  intro j m hj
  rcases getElem?_concat_cases hj with ⟨-, rfl⟩ | hj
  · apply hworks
  · apply (h j m hj).of_file_eq _ hkeeps
    apply hr.file_eq (hreg.givenOut j m hj)
    intro f hf
    contradiction

/-! ### Uses of the log service -/

/-- A call of `LogData` on a stream is a step of one logger, if it does anything. -/
theorem logData_cases (clock : ℕ → UInt32 × UInt32) (v : Service) (c : Stream × List UInt8) :
  logData clock v c = v
    ∨ ∃ (k : ℕ) (l : RollingFileLogger) (r : Session), c.1 = .rollingFile k
      ∧ v.loggers[k]? = some l ∧ Evolves (l, v.disk) r
      ∧ (Works v.disk l → Works r.2 r.1 ∧ KeepsNames v.disk r.2)
      ∧ logData clock v c = { v with loggers := v.loggers.set k r.1, disk := r.2 }
  := by
  obtain ⟨stream, text⟩ := c
  cases stream with
  | own id =>
    left
    rfl
  | rollingFile k =>
    rw [logData]
    simp only
    cases hk : v.loggers[k]? with
    | none =>
      left
      rfl
    | some l =>
      right
      exact ⟨k, l, _, rfl, hk, evolves_logData l text _ v.disk,
        fun hworks => hworks.logData text (clock k).1 (clock k).2, rfl⟩

theorem Registered.logData
    {v : Service} (h : Registered v) (clock : ℕ → UInt32 × UInt32) (c : Stream × List UInt8) :
  Registered (logData clock v c)
  := by
  rcases logData_cases clock v c with hsame | ⟨k, l, r, -, hk, hr, -, hstep⟩
  · rw [hsame]
    apply h
  · rw [hstep]
    apply h.set hk hr

theorem Separate.logData
    {v : Service} (h : Separate v) (hreg : Registered v) (clock : ℕ → UInt32 × UInt32)
    (c : Stream × List UInt8) :
  Separate (logData clock v c)
  := by
  rcases logData_cases clock v c with hsame | ⟨k, l, r, -, hk, hr, -, hstep⟩
  · rw [hsame]
    apply h
  · rw [hstep]
    apply h.set hreg hk hr

theorem AtWork.logData
    {v : Service} (h : AtWork v) (hreg : Registered v) (clock : ℕ → UInt32 × UInt32)
    (c : Stream × List UInt8) :
  AtWork (logData clock v c)
  := by
  rcases logData_cases clock v c with hsame | ⟨k, l, r, -, hk, hr, hworks, hstep⟩
  · rw [hsame]
    apply h
  · obtain ⟨hworks, hkeeps⟩ := hworks (h k l hk)
    rw [hstep]
    apply h.set hreg hk hr hworks hkeeps

theorem state_logData (clock : ℕ → UInt32 × UInt32) (v : Service) (c : Stream × List UInt8) :
  (logData clock v c).state = v.state
  := by
  rw [logData]
  split
  · rfl
  · split
    · rfl
    · rfl

/-- A statement configures nothing. -/
theorem Registered.foldl_logData
    {v : Service} (h : Registered v) (clock : ℕ → UInt32 × UInt32)
    (cs : List (Stream × List UInt8)) :
  Registered (cs.foldl (Service.logData clock) v)
    ∧ (cs.foldl (Service.logData clock) v).state = v.state
    ∧ (AtWork v → AtWork (cs.foldl (Service.logData clock) v))
    ∧ (Separate v → Separate (cs.foldl (Service.logData clock) v))
  := by
  apply Run.invariant (I := fun u => Registered u ∧ u.state = v.state ∧ (AtWork v → AtWork u)
    ∧ (Separate v → Separate u))
  · rintro u c ⟨hu, hstate, hwork, hsep⟩
    use hu.logData clock c
    constructor
    · rw [state_logData, hstate]
    · constructor
      · intro hv
        apply (hwork hv).logData hu
      · intro hv
        apply (hsep hv).logData hu
  · exact ⟨h, rfl, id, id⟩

/-- `ConfigureLog` registers one logger if it is given a filename, and none otherwise. -/
theorem registered_of_configureLog
    {params filename : Option (List UInt8)} {s s' : State}
    (h : LogMessage.configureLog params filename s = some s') :
  s'.rollingFiles = s.rollingFiles ++ filename.toList
    ∧ s'.streamList.map Prod.fst = s.streamList.map Prod.fst
      ++ filename.toList.map fun _ => .rollingFile s.rollingFiles.length
  := by
  obtain ⟨paramsList, -, h⟩ := Option.bind_eq_some_iff.mp h
  rw [foldl_configureParam] at h
  cases filename with
  | none =>
    obtain rfl := Option.some.inj h
    simp [logContext, logToDebug]
  | some filename =>
    obtain rfl := Option.some.inj h
    simp [logContext, logToDebug, logToStream]

/-- `ConfigureLog` gives a new logger a handle of its own; and a file of its own, if its filename
is new. -/
theorem Registered.configureLog
    {v : Service} (h : Registered v) (params filename : Option (List UInt8)) :
  Registered (v.configureLog params filename)
    ∧ (AtWork v → AtWork (v.configureLog params filename))
    ∧ ((∀ name ∈ filename, name ∉ v.state.rollingFiles) → Separate v →
      Separate (v.configureLog params filename))
  := by
  rw [Service.configureLog]
  cases hs : LogMessage.configureLog params filename v.state with
  | none => exact ⟨h, id, fun _ hsep => hsep⟩
  | some s =>
    obtain ⟨hfiles, hstreams⟩ := registered_of_configureLog hs
    cases filename with
    | none =>
      rw [Option.toList_none, List.append_nil] at hfiles
      rw [Option.toList_none, List.map_nil, List.append_nil] at hstreams
      constructor
      · exact ⟨hfiles.trans h.rollingFiles, hstreams.trans h.streams, h.givenOut, h.otherHandle⟩
      · constructor
        · intro hwork
          apply hwork
        · intro _ hsep
          exact ⟨hsep.holds, hsep.apart⟩
    | some name =>
      have hlen : v.state.rollingFiles.length = v.loggers.length := by
        rw [h.rollingFiles, List.length_map]
      rw [hlen] at hstreams
      constructor
      · apply h.concat (evolves_construct name v.disk) hfiles hstreams
      · constructor
        · intro hwork
          obtain ⟨hworks, hkeeps⟩ := works_construct name v.disk
          apply hwork.concat h (evolves_construct name v.disk) hworks hkeeps
        · intro hnew hsep
          apply hsep.concat h (hnew name rfl) (evolves_construct name v.disk)

/-- A logger that is registered after `ConfigureLog` was so before, or has the filename that
was given. -/
theorem mem_rollingFiles_configureLog
    {v : Service} {params filename : Option (List UInt8)} {name : List UInt8}
    (h : name ∈ (v.configureLog params filename).state.rollingFiles) :
  name ∈ v.state.rollingFiles ∨ name ∈ filename
  := by
  rw [Service.configureLog] at h
  cases hs : LogMessage.configureLog params filename v.state with
  | none =>
    rw [hs] at h
    left
    apply h
  | some s =>
    obtain ⟨hfiles, -⟩ := registered_of_configureLog hs
    have hname : name ∈ s.rollingFiles := by
      rw [hs] at h
      cases filename with
      | none => apply h
      | some _ => apply h
    rw [hfiles] at hname
    apply (List.mem_append.mp hname).imp_right Option.mem_toList.mp

theorem registered_init (debug : Bool) (start : UInt32)
    (files : List UInt8 → Option (List UInt8)) :
  Registered (init debug start files)
  where
  rollingFiles := rfl
  streams := rfl
  givenOut _ _ h := by simp [init] at h
  otherHandle := mutually_nil

theorem separate_init (debug : Bool) (start : UInt32) (files : List UInt8 → Option (List UInt8)) :
  Separate (init debug start files)
  where
  holds _ _ h := by simp [init] at h
  apart := mutually_nil

/-- The loggers after uses that gave the filenames `names`: they have handles of their own and are
at work; and they have files of their own, as long as the filenames are different. -/
structure Invariant (names : List (List UInt8)) (v : Service) : Prop where
  registered : Registered v
  atWork : AtWork v
  mem : ∀ name ∈ v.state.rollingFiles, name ∈ names
  separate : names.Nodup → Separate v

theorem invariant_init (debug : Bool) (start : UInt32) (files : List UInt8 → Option (List UInt8)) :
  Invariant [] (init debug start files)
  where
  registered := registered_init debug start files
  atWork _ _ h := by simp [init] at h
  mem := by simp [init, State.init]
  separate _ := separate_init debug start files

theorem Invariant.step_log
    {names : List (List UInt8)} {v : Service} (h : Invariant names v) (e : Env) (m : Statement)
    (clock : ℕ → UInt32 × UInt32) :
  Invariant names (v.step (.log e m clock))
  := by
  obtain ⟨hreg, hstate, hwork, hsep⟩ :=
    h.registered.foldl_logData clock (logDataCalls (log v.state e m))
  constructor
  · apply hreg
  · apply hwork h.atWork
  · intro name hname
    apply h.mem name
    rw [← hstate]
    apply hname
  · intro hnames
    apply hsep (h.separate hnames)

theorem Invariant.step_configureLog
    {names : List (List UInt8)} {v : Service} (h : Invariant names v)
    (params filename : Option (List UInt8)) :
  Invariant (names ++ filename.toList) (v.step (.configureLog params filename))
  := by
  obtain ⟨hreg, hwork, hsep⟩ := h.registered.configureLog params filename
  constructor
  · apply hreg
  · apply hwork h.atWork
  · intro name hname
    rcases mem_rollingFiles_configureLog hname with hold | hnew
    · apply List.mem_append_left _ (h.mem name hold)
    · apply List.mem_append_right
      apply Option.mem_toList.mpr hnew
  · intro hnames
    obtain ⟨hold, -, hnew⟩ := List.nodup_append.mp hnames
    apply hsep _ (h.separate hold)
    intro name hname hin
    apply hnew name (h.mem name hin) name (Option.mem_toList.mpr hname) rfl

theorem Invariant.step
    {names : List (List UInt8)} {v : Service} (h : Invariant names v) (u : Use) :
  Invariant (names ++ u.filename.toList) (v.step u)
  := by
  cases u with
  | configureLog params filename => apply h.step_configureLog params filename
  | log e m clock =>
    rw [Use.filename, Option.toList_none, List.append_nil]
    apply h.step_log e m clock

theorem invariant_run
    (debug : Bool) (start : UInt32) (files : List UInt8 → Option (List UInt8))
    (uses : List Use) :
  Invariant (uses.filterMap Use.filename) (uses.foldl Service.step (init debug start files))
  := by
  induction uses using List.reverseRecOn with
  | nil => apply invariant_init
  | append_singleton uses u ih =>
    have hfilename : [u].filterMap Use.filename = u.filename.toList := by
      cases h : u.filename with
      | none => rw [List.filterMap_cons_none h]; rfl
      | some name => rw [List.filterMap_cons_some h]; rfl
    rw [List.foldl_concat, List.filterMap_append, hfilename]
    apply ih.step

/-! ### Statements -/

/-- The streams that a statement is handed over to are registered, and get its text. -/
theorem exists_streams (v : Service) (e : Env) (m : Statement) :
  ∃ streams : List Stream, logDataCalls (log v.state e m)
      = streams.map (fun stream => (stream, text v.state e m))
    ∧ streams.Sublist (v.state.streamList.map Prod.fst)
  := by
  rw [log]
  split
  · use (v.state.streamList.filter fun it => it.2 ≤ m.severity.toInt).map Prod.fst
    constructor
    · rw [(reaches_deliver v.state m.severity.toInt (text v.state e m)).streams, List.map_map]
      rfl
    · apply List.filter_sublist.map
  · use []
    exact ⟨rfl, List.nil_sublist _⟩

/-- The streams that are registered are different. -/
theorem Registered.nodup_streams {v : Service} (h : Registered v) :
  (v.state.streamList.map Prod.fst).Nodup
  := by
  rw [h.streams]
  apply List.nodup_range.map
  intro j k hjk
  apply Stream.rollingFile.inj hjk

/-- Loggers at work have open files. -/
theorem Registered.isSome_file {v : Service} (h : Registered v) (hwork : AtWork v) {stream : Stream}
    (hstream : stream ∈ v.state.streamList.map Prod.fst) :
  (v.file stream).isSome
  := by
  rw [h.streams, List.mem_map] at hstream
  obtain ⟨k, hk, rfl⟩ := hstream
  have hl := List.getElem?_eq_getElem (List.mem_range.mp hk)
  rw [file, hl, Option.bind_some]
  apply (hwork k _ hl).file

/-- A call of `LogData` appends its text once, to the file of its stream. -/
theorem writes_logData (clock : ℕ → UInt32 × UInt32) (v : Service) (c : Stream × List UInt8) :
  v.disk.writes (logData clock v c).disk = ((v.file c.1).map fun i => (i, c.2)).toList
  := by
  have hself : v.disk.writes v.disk = [] := by
    rw [Stdio.Fs.writes, List.drop_length]
    rfl
  obtain ⟨stream, text⟩ := c
  cases stream with
  | own id => apply hself
  | rollingFile k =>
    rw [logData, file]
    simp only
    cases v.loggers[k]? with
    | none => apply hself
    | some l =>
      have hwrites := l.writes_logData text (.success text (clock k).1 (clock k).2) v.disk
      rw [LogOutcomes.success, List.take_length] at hwrites
      apply hwrites

/-- A call of `LogData` leaves the other streams on their files. -/
theorem Registered.file_logData_of_ne
    {v : Service} (h : Registered v) (clock : ℕ → UInt32 × UInt32) {c : Stream × List UInt8}
    {stream : Stream} (hne : stream ≠ c.1) :
  (Service.logData clock v c).file stream = v.file stream
  := by
  rcases logData_cases clock v c with hsame | ⟨k, l, r, hc, hk, hr, -, hstep⟩
  · rw [hsame]
  · rw [hstep]
    cases stream with
    | own id => rfl
    | rollingFile j =>
      have hjk : j ≠ k := by
        rintro rfl
        apply hne hc.symm
      rw [file, file]
      simp only
      rw [List.getElem?_set_ne hjk.symm]
      cases hj : v.loggers[j]? with
      | none => rfl
      | some m => apply h.file_eq hk hr hj hjk

/-- Calls of `LogData` on different streams append once each, to the files of the streams. -/
theorem Registered.writes_eq
    {v : Service} (h : Registered v) (clock : ℕ → UInt32 × UInt32)
    {cs : List (Stream × List UInt8)} (hcs : (cs.map Prod.fst).Nodup) :
  writes clock v cs = cs.filterMap fun c => (v.file c.1).map fun i => (i, c.2)
  := by
  induction cs generalizing v with
  | nil => rfl
  | cons c cs ih =>
    obtain ⟨hc, hcs⟩ := List.nodup_cons.mp hcs
    have hlater : (cs.filterMap fun d =>
          ((Service.logData clock v c).file d.1).map fun i => (i, d.2))
        = cs.filterMap fun d => (v.file d.1).map fun i => (i, d.2) := by
      apply List.filterMap_congr
      intro d hd
      rw [h.file_logData_of_ne]
      intro heq
      apply hc
      rw [← heq]
      apply List.mem_map_of_mem hd
    rw [writes, writes_logData, ih (h.logData clock c) hcs, hlater, List.filterMap_cons]
    cases v.file c.1 with
    | none => rfl
    | some i => rfl

/-- Streams with the same file are the same. -/
theorem Separate.file_inj
    {v : Service} (h : Separate v) {s t : Stream} {i : Stdio.Inode (List UInt8)}
    (hs : v.file s = some i) (ht : v.file t = some i) :
  s = t
  := by
  cases s with
  | own id => contradiction
  | rollingFile j =>
    cases t with
    | own id => contradiction
    | rollingFile k =>
      obtain ⟨l, hl, hs⟩ := Option.bind_eq_some_iff.mp hs
      obtain ⟨m, hm, ht⟩ := Option.bind_eq_some_iff.mp ht
      by_contra hne
      have hjk : j ≠ k := by
        rintro rfl
        apply hne rfl
      apply (h.apart j k l m hl hm hjk).file i hs ht

/-- After any uses of the log service, a statement is handed over to each logger at most once, and
each logger that it is handed over to has an open file, to which it appends the text once.  If all
filenames were different, so are these files: the text is appended at most once to any file. -/
theorem written_once
    (debug : Bool) (start : UInt32) (files : List UInt8 → Option (List UInt8))
    (uses : List Use) (e : Env) (m : Statement) (clock : ℕ → UInt32 × UInt32) :
  let v := uses.foldl step (init debug start files)
  let cs := logDataCalls (log v.state e m)
  (cs.map Prod.fst).Nodup
    ∧ (∃ file : Stream → Stdio.Inode (List UInt8),
        (∀ stream ∈ cs.map Prod.fst, v.file stream = some (file stream))
          ∧ writes clock v cs
            = (cs.map Prod.fst).map fun stream => (file stream, text v.state e m))
    ∧ ((uses.filterMap Use.filename).Nodup → ((writes clock v cs).map Prod.fst).Nodup)
  := by
  intro v cs
  obtain ⟨hreg, hwork, -, hsep⟩ := invariant_run debug start files uses
  obtain ⟨streams, hcs, hsublist⟩ := exists_streams v e m
  have hfst : cs.map Prod.fst = streams := by
    rw [show cs = _ from hcs, List.map_map]
    apply List.map_id
  have hstreams : streams.Nodup := hsublist.nodup hreg.nodup_streams
  have hopen : ∀ stream ∈ streams, v.file stream = some ((v.file stream).getD ([], 0)) := by
    intro stream hstream
    obtain ⟨i, hi⟩ := Option.isSome_iff_exists.mp
      (hreg.isSome_file hwork (hsublist.subset hstream))
    change v.file stream = some i at hi
    rw [hi, Option.getD_some]
  have hwrites : writes clock v cs
      = streams.map fun stream => ((v.file stream).getD ([], 0), text v.state e m) := by
    rw [hreg.writes_eq clock (hfst.symm ▸ hstreams), show cs = _ from hcs, List.filterMap_map,
      ← List.filterMap_eq_map]
    apply List.filterMap_congr
    intro stream hstream
    simp only [Function.comp_apply]
    rw [hopen stream hstream]
    rfl
  rw [hfst]
  use hstreams
  constructor
  · use fun stream => (v.file stream).getD ([], 0)
  · intro hnames
    rw [hwrites, List.map_map]
    apply hstreams.map_on
    intro s hs t ht hst
    apply (hsep hnames).file_inj (hopen s hs)
    rw [hopen t ht]
    apply congrArg some hst.symm

/-- The filenames of the hypothesis of `written_once` are different for a file for errors and one
for everything. -/
theorem twoFiles_written_once :
  let v := [Use.configureLog (some (ascii "error")) (some (ascii "error.log")),
      .configureLog (some (ascii "sensitive")) (some (ascii "all.log"))].foldl step
    (init false 0 fun _ => none)
  ((writes (fun _ => (0, 0)) v (logDataCalls (log v.state epoch errorStatement))).map
    Prod.fst).Nodup
  := by
  apply (written_once false 0 (fun _ => none) _ epoch errorStatement fun _ => (0, 0)).2.2
  decide

/-- When `ConfigureLog` is called again with the filename of the first call, a statement appends
its text twice to the file. -/
theorem not_written_once :
  let v := [Use.configureLog (some (ascii "info")) (some (ascii "test.log")),
      .configureLog (some (ascii "error")) (some (ascii "test.log"))].foldl step
    (init false 0 fun _ => none)
  let w := writes (fun _ => (0, 0)) v (logDataCalls (log v.state epoch errorStatement))
  let line := text v.state epoch errorStatement
  w = [((ascii "test.log", 1), line), ((ascii "test.log", 1), line)] ∧ ¬ (w.map Prod.fst).Nodup
  := by
  intro v w line
  have hwrites : w = [((ascii "test.log", 1), line), ((ascii "test.log", 1), line)] := by
    decide
  use hwrites
  rw [hwrites]
  decide

end Service

end LogMessage
