import IotDeviceSdk.Baselib.Logging.Basic
import IotDeviceSdk.Foundation.Run
import Mathlib.Order.Defs.LinearOrder

/-!
# Where log messages go

A log message should reach the sinks whose thresholds it passes.  The threshold `minSev`
that is tested first does not know about the streams: it is the minimum of the threshold of
the debug output and of `noLogging`.  So a message that the debug output does not get is
withheld from the streams as well, see `log_reaches_iff`.
-/

namespace LogMessage

/-- A call that configures logging. -/
inductive Config where
  | logToDebug (minSev : ℤ)
  | logToStream (stream : Option Stream) (minSev : ℤ)
  | configureLog (params filename : Option (List UInt8))
  | terminateLogService

/-- The static variables after a call; one that throws leaves them as they are. -/
def configure (s : State) : Config → State
  | .logToDebug minSev => logToDebug minSev s
  | .logToStream stream minSev => logToStream stream minSev s
  | .configureLog params filename => (configureLog params filename s).getD s
  | .terminateLogService => (terminateLogService s).2

/-- The texts that are written to the debug output. -/
def debugTexts (deliveries : List Delivery) : List (List UInt8) :=
  deliveries.filterMap fun
    | .debug text => some text
    | .logData _ _ => none

/-- The calls of `LogData`, in order. -/
def logDataCalls (deliveries : List Delivery) : List (Stream × List UInt8) :=
  deliveries.filterMap fun
    | .debug _ => none
    | .logData stream text => some (stream, text)

/-- The text of a message is delivered to exactly the sinks that asked for its severity, once
for each registration and in the order of registration. -/
structure Reaches (s : State) (severity : ℤ) (text : List UInt8) (deliveries : List Delivery) :
    Prop where
  debug : debugTexts deliveries = if s.dbgSev ≤ severity then [text] else []
  streams : logDataCalls deliveries
    = (s.streamList.filter fun it => it.2 ≤ severity).map fun it => (it.1, text)

/-! ### The threshold that is tested first -/

/-- The invariant of the thresholds. -/
structure Thresholds (s : State) : Prop where
  streamSev : s.streamSev = noLogging
  minSev : s.minSev = min s.dbgSev noLogging

theorem thresholds_init (debug : Bool) (start : UInt32) :
  Thresholds (State.init debug start)
  where
  streamSev := rfl
  minSev := by
    cases debug with
    | false => rfl
    | true => rfl

theorem Thresholds.logToDebug {s : State} (h : Thresholds s) (minSev : ℤ) :
  Thresholds (logToDebug minSev s)
  where
  streamSev := h.streamSev
  minSev := congrArg (min minSev) h.streamSev

/-- Parameters do not touch the thresholds. -/
theorem Thresholds.configureParams
    {r : State × ℤ} (h : Thresholds r.1) (params : List (List UInt8)) :
  Thresholds (params.foldl configureParam r).1
  := by
  apply Run.invariant (I := fun r : State × ℤ => Thresholds r.1) _ h
  intro r param h
  rw [configureParam]
  split_ifs
  all_goals exact ⟨h.streamSev, h.minSev⟩

theorem Thresholds.configureLog
    {s s' : State} (h : Thresholds s) {params filename : Option (List UInt8)}
    (hs' : configureLog params filename s = some s') :
  Thresholds s'
  := by
  obtain ⟨paramsList, -, hs'⟩ := Option.bind_eq_some_iff.mp hs'
  have hparams := (h.configureParams (r := (s, LoggingSeverity.LS_SENSITIVE.toInt)) paramsList)
  have hdebug := hparams.logToDebug
    (paramsList.foldl configureParam (s, LoggingSeverity.LS_SENSITIVE.toInt)).2
  cases filename with
  | none =>
    obtain rfl := Option.some.inj hs'
    exact ⟨hdebug.streamSev, hdebug.minSev⟩
  | some filename =>
    obtain rfl := Option.some.inj hs'
    exact ⟨hdebug.streamSev, hdebug.minSev⟩

/-- Every call keeps the invariant of the thresholds. -/
theorem Thresholds.configure {s : State} (h : Thresholds s) (c : Config) :
  Thresholds (configure s c)
  := by
  cases c with
  | logToDebug minSev => apply h.logToDebug
  | logToStream stream minSev =>
    cases stream with
    | none => apply h
    | some stream => exact ⟨h.streamSev, h.minSev⟩
  | configureLog params filename =>
    cases hs' : LogMessage.configureLog params filename s with
    | none =>
      rw [LogMessage.configure, hs']
      apply h
    | some s' =>
      rw [LogMessage.configure, hs']
      apply h.configureLog hs'
  | terminateLogService => exact ⟨h.streamSev, h.minSev⟩

theorem thresholds_run (debug : Bool) (start : UInt32) (cs : List Config) :
  Thresholds (cs.foldl configure (State.init debug start))
  := Run.invariant (fun _ c hs => hs.configure c) (thresholds_init debug start) cs

/-! ### Delivery -/

/-- What the destructor of a message delivers to the streams of a list. -/
theorem deliveries_of_streams
    (streamList : List (Stream × ℤ)) (severity : ℤ) (text : List UInt8) :
  let deliveries := streamList.filterMap fun it =>
    if it.2 ≤ severity then some (.logData it.1 text) else none
  debugTexts deliveries = []
    ∧ logDataCalls deliveries
      = (streamList.filter fun it => it.2 ≤ severity).map fun it => (it.1, text)
  := by
  intro deliveries
  induction streamList with
  | nil => exact ⟨rfl, rfl⟩
  | cons it streamList ih =>
    obtain ⟨hdebug, hstreams⟩ := ih
    simp only [deliveries, List.filterMap_cons, List.filter_cons, decide_eq_true_eq]
    split_ifs
    · constructor
      · apply hdebug
      · apply congrArg ((it.1, text) :: ·) hstreams
    · exact ⟨hdebug, hstreams⟩

/-- The destructor delivers a message to exactly the sinks that asked for it. -/
theorem reaches_deliver (s : State) (severity : ℤ) (text : List UInt8) :
  Reaches s severity text (deliver s severity text)
  := by
  obtain ⟨hdebug, hstreams⟩ := deliveries_of_streams s.streamList severity text
  rw [deliver]
  constructor
  · rw [debugTexts, List.filterMap_append]
    apply Eq.trans (congrArg _ hdebug)
    rw [List.append_nil]
    split_ifs
    · rfl
    · rfl
  · rw [logDataCalls, List.filterMap_append]
    apply Eq.trans (congrArg _ hstreams)
    split_ifs
    · rfl
    · rfl

/-- A message that is withheld reaches its sinks exactly when there are none. -/
theorem reaches_nil_iff (s : State) (severity : ℤ) (text : List UInt8) :
  Reaches s severity text []
    ↔ ¬ s.dbgSev ≤ severity ∧ ∀ it ∈ s.streamList, severity < it.2
  := by
  have hstreams : logDataCalls []
        = ((s.streamList.filter fun it => it.2 ≤ severity).map fun it => (it.1, text))
      ↔ ∀ it ∈ s.streamList, severity < it.2 := by
    rw [show logDataCalls [] = [] from rfl, eq_comm, List.map_eq_nil_iff, List.filter_eq_nil_iff]
    simp only [decide_eq_true_eq, not_le]
  constructor
  · rintro ⟨hdebug, hlog⟩
    constructor
    · intro hle
      rw [if_pos hle] at hdebug
      contradiction
    · apply hstreams.mp hlog
  · rintro ⟨hdebug, hlog⟩
    constructor
    · rw [if_neg hdebug]
      rfl
    · apply hstreams.mpr hlog

theorem LoggingSeverity.toInt_lt_noLogging {sev : LoggingSeverity} (h : sev ≠ .LS_TEST) :
  sev.toInt < noLogging
  := by
  cases sev with
  | LS_TEST => contradiction
  | LS_SENSITIVE | LS_VERBOSE | LS_INFO | LS_WARNING | LS_ERROR => decide

/-- Only what the debug output gets is ever loggable. -/
theorem Thresholds.loggable_iff
    {s : State} (h : Thresholds s) {sev : LoggingSeverity} (hsev : sev ≠ .LS_TEST) :
  loggable s sev = true ↔ s.dbgSev ≤ sev.toInt
  := by
  have hlt := LoggingSeverity.toInt_lt_noLogging hsev
  rw [loggable, decide_eq_true_eq, h.minSev, min_le_iff]
  apply or_iff_left
  omega

/-- After any calls that configure logging, a message reaches exactly the sinks that asked
for it if and only if the debug output asked for it, or no stream did.  And the threshold
that is tested first is not above that of any sink if and only if no stream has a threshold
below that of the debug output and within the severities. -/
theorem log_reaches_iff
    (debug : Bool) (start : UInt32) (cs : List Config) (e : Env) (m : Statement)
    (hsev : m.severity ≠ .LS_TEST) :
  let s := cs.foldl configure (State.init debug start)
  (Reaches s m.severity.toInt (text s e m) (log s e m)
      ↔ s.dbgSev ≤ m.severity.toInt ∨ ∀ it ∈ s.streamList, m.severity.toInt < it.2)
    ∧ ((s.minSev ≤ s.dbgSev ∧ ∀ it ∈ s.streamList, s.minSev ≤ it.2)
      ↔ ∀ it ∈ s.streamList, s.dbgSev ≤ it.2 ∨ noLogging ≤ it.2)
  := by
  intro s
  have h : Thresholds s := thresholds_run debug start cs
  have hloggable := h.loggable_iff hsev
  constructor
  · rw [log]
    by_cases hle : s.dbgSev ≤ m.severity.toInt
    · rw [if_pos (hloggable.mpr hle)]
      apply iff_of_true
      · apply reaches_deliver
      · left
        apply hle
    · rw [if_neg (hloggable.not.mpr hle), reaches_nil_iff]
      apply Iff.trans (and_iff_right hle)
      apply (or_iff_right hle).symm
  · rw [h.minSev]
    simp only [min_le_iff, le_refl, true_or, true_and]

/-- A message of severity error. -/
def errorStatement : Statement where
  file := CString.ascii "main.cpp"
  line := 1
  severity := .LS_ERROR
  errCtx := .ERRCTX_NONE
  err := 0
  content := CString.ascii "failed"

/-- A call on a program at the start of the epoch. -/
def epoch : Env where
  time := 0
  tm := ⟨70, 0, 1, 0, 0, 0⟩
  threadId := 1
  strerror _ := []

/-- The hypothesis of `log_reaches_iff` is met by a message of severity error. -/
theorem log_errorStatement_reaches_iff :
  let s := [Config.logToDebug 2, .logToStream (some (.own 0)) 4].foldl configure (.init false 0)
  (Reaches s errorStatement.severity.toInt (text s epoch errorStatement)
        (log s epoch errorStatement)
      ↔ s.dbgSev ≤ errorStatement.severity.toInt
        ∨ ∀ it ∈ s.streamList, errorStatement.severity.toInt < it.2)
    ∧ ((s.minSev ≤ s.dbgSev ∧ ∀ it ∈ s.streamList, s.minSev ≤ it.2)
      ↔ ∀ it ∈ s.streamList, s.dbgSev ≤ it.2 ∨ noLogging ≤ it.2)
  := by
  apply log_reaches_iff
  decide

/-- A stream that is registered in a release build does not get the errors it asked for. -/
theorem not_reaches_registered_stream :
  let s := [Config.logToStream (some (.own 0)) 2].foldl configure (.init false 0)
  ¬ Reaches s errorStatement.severity.toInt (text s epoch errorStatement)
      (log s epoch errorStatement)
  := by
  intro s
  have hlog : log s epoch errorStatement = [] := by decide
  rw [hlog, reaches_nil_iff]
  decide

end LogMessage
