import IotDeviceSdk.Baselib.StringHelper

/-!
# The log messages

`LogMessage` keeps the thresholds of logging and the streams that log messages go to, in the
static variables that `State` collects.  A statement `LOG(sev)` is tested against the
threshold `minSev` first; only if it passes is its text formatted and handed to the debug
output and to the streams whose thresholds it passes, see `log`.

This is the build for POSIX.
-/

namespace LogMessage

open CString StringHelper

/-- `LoggingSeverity`. -/
inductive LoggingSeverity where
  | LS_SENSITIVE | LS_VERBOSE | LS_INFO | LS_WARNING | LS_ERROR | LS_TEST
  deriving DecidableEq

/-- The value of a severity. -/
def LoggingSeverity.toInt : LoggingSeverity → ℤ
  | .LS_SENSITIVE => 0
  | .LS_VERBOSE => 1
  | .LS_INFO => 2
  | .LS_WARNING => 3
  | .LS_ERROR => 4
  | .LS_TEST => 5

/-- `NO_LOGGING`. -/
def noLogging : ℤ :=
  LoggingSeverity.LS_ERROR.toInt + 1

/-- A pointer to a stream: to one of the program's own, or to the `RollingFileLogger` that
`ConfigureLog` constructed as number `k`. -/
inductive Stream where
  | own (id : ℕ)
  | rollingFile (k : ℕ)
  deriving DecidableEq

/-- The static variables of `LogMessage`. -/
structure State where
  minSev : ℤ
  dbgSev : ℤ
  streamSev : ℤ
  ctxSev : ℤ
  streamList : List (Stream × ℤ)
  thread : Bool
  timestamp : Bool
  start : UInt32
  /-- the names of the files that `ConfigureLog` constructed a `RollingFileLogger` for -/
  rollingFiles : List (List UInt8)

/-- `LOG_DEFAULT`, depending on whether `_DEBUG` is set. -/
def logDefault (debug : Bool) : ℤ :=
  if debug then LoggingSeverity.LS_INFO.toInt else noLogging

/-- The static variables when the program starts, at the time `start`. -/
def State.init (debug : Bool) (start : UInt32) : State where
  minSev := logDefault debug
  dbgSev := logDefault debug
  streamSev := noLogging
  ctxSev := LoggingSeverity.LS_WARNING.toInt
  streamList := []
  thread := false
  timestamp := false
  start := start
  rollingFiles := []

/-! ### Configuration -/

/-- `LogContext`. -/
def logContext (minSev : ℤ) (s : State) : State :=
  { s with ctxSev := minSev }

/-- `LogThreads`. -/
def logThreads (on : Bool) (s : State) : State :=
  { s with thread := on }

/-- `LogTimestamps`. -/
def logTimestamps (on : Bool) (s : State) : State :=
  { s with timestamp := on }

/-- `LogToDebug`. -/
def logToDebug (minSev : ℤ) (s : State) : State :=
  let s := { s with dbgSev := minSev }
  { s with minSev := min s.dbgSev s.streamSev }

/-- `LogToStream`; `none` is the null pointer. -/
def logToStream (stream : Option Stream) (minSev : ℤ) (s : State) : State :=
  match stream with
  | none => s
  | some stream => { s with streamList := s.streamList ++ [(stream, minSev)] }

/-- `TerminateLogService`: the streams it deletes, and the variables it leaves. -/
def terminateLogService (s : State) : List Stream × State :=
  (s.streamList.map Prod.fst, { s with streamList := [] })

/-! ### Parameters -/

/-- `std::string::npos`. -/
def npos : ℕ := 18446744073709551615

/-- The conversion from `int` to `std::string::size_type`. -/
def sizeType (n : Int32) : ℕ :=
  n.toInt64.toUInt64.toNat

/-- `std::string::find` of a character, from a position on. -/
def find (s : List UInt8) (c : UInt8) (pos : ℕ) : ℕ :=
  match (s.drop pos).findIdx? (· = c) with
  | some i => pos + i
  | none => npos

/-- `std::string::substr`, which throws when the position is beyond the string. -/
def substr (s : List UInt8) (pos len : ℕ) : Option (List UInt8) :=
  if pos ≤ s.length then some ((s.drop pos).take len) else none

/-- The loop of `GetParamToken`, for at most `fuel` rounds. -/
def getParamTokenFrom (strParams : List UInt8) :
    ℕ → Int32 → List (List UInt8) → Option (List (List UInt8))
  | 0, _, _ => none
  | fuel + 1, nPos, paramTable =>
    let nFindPos := Int32.ofNat (find strParams 32 (sizeType nPos))
    if sizeType nFindPos ≠ npos then do
      let token ← substr strParams (sizeType nPos) (sizeType (nFindPos - nPos))
      getParamTokenFrom strParams fuel (nFindPos + 1) (paramTable ++ [token])
    else do
      let nFindPos := Int32.ofNat strParams.length
      let token ← substr strParams (sizeType nPos) (sizeType (nFindPos - nPos))
      some (paramTable ++ [token])

/-- `GetParamToken`; there is no result when it throws, or does not end within one round for
each character and one more. -/
def getParamToken (params : Option (List UInt8)) (paramTable : List (List UInt8)) :
    Option (List (List UInt8)) :=
  match params with
  | none => some paramTable
  | some params =>
    let strParams := cstr params
    getParamTokenFrom strParams (strParams.length + 1) 0 paramTable

/-- What `ConfigureLog` does with a parameter; the level that it has found is carried along. -/
def configureParam (r : State × ℤ) (param : List UInt8) : State × ℤ :=
  if param = ascii "timestamp" then (logTimestamps true r.1, r.2)
  else if param = ascii "thread" then (logThreads true r.1, r.2)
  else if param = ascii "sensitive" then (r.1, LoggingSeverity.LS_SENSITIVE.toInt)
  else if param = ascii "verbose" then (r.1, LoggingSeverity.LS_VERBOSE.toInt)
  else if param = ascii "info" then (r.1, LoggingSeverity.LS_INFO.toInt)
  else if param = ascii "warning" then (r.1, LoggingSeverity.LS_WARNING.toInt)
  else if param = ascii "error" then (r.1, LoggingSeverity.LS_ERROR.toInt)
  else r

/-- `ConfigureLog`; there is no result when `GetParamToken` has none. -/
def configureLog (params filename : Option (List UInt8)) (s : State) : Option State := do
  let paramsList ← getParamToken params []
  let (s, nLogLevel) := paramsList.foldl configureParam (s, LoggingSeverity.LS_SENSITIVE.toInt)
  let s := logToDebug nLogLevel s
  let s := logContext nLogLevel s
  match filename with
  | none => some s
  | some filename =>
    let stream := Stream.rollingFile s.rollingFiles.length
    let s := { s with rollingFiles := s.rollingFiles ++ [filename] }
    some (logToStream (some stream) nLogLevel s)

/-! ### The text of a message -/

/-- `LogErrorContext`. -/
inductive LogErrorContext where
  | ERRCTX_NONE | ERRCTX_ERRNO | ERRCTX_HRESULT
  deriving DecidableEq

/-- A statement that logs: where it stands, its severity, the error it tells about, and what
it writes to the stream of the message. -/
structure Statement where
  file : List UInt8
  line : Int32
  severity : LoggingSeverity
  errCtx : LogErrorContext
  err : Int32
  content : List UInt8

/-- What a statement finds around it. -/
structure Env where
  /-- `TimeHelper::Time()` -/
  time : UInt32
  /-- the local time -/
  tm : Tm
  /-- `pthread_self()` -/
  threadId : Int64
  strerror : Int32 → List UInt8

/-- The hexadecimal text of a number. -/
def hex (n : ℕ) : List UInt8 :=
  if n = 0 then ascii "0" else (Nat.digits 16 n).reverse.map fun d => hexChars.getD d 0

/-- `Describe`. -/
def describe : LoggingSeverity → List UInt8
  | .LS_SENSITIVE => ascii "Sensitive"
  | .LS_VERBOSE => ascii "Verbose"
  | .LS_INFO => ascii "Info"
  | .LS_WARNING => ascii "Warning"
  | .LS_ERROR => ascii "Error"
  | .LS_TEST => ascii "<unknown>"

/-- `DescribeFile`: the part of a path after its last slash or backslash. -/
def describeFile (file : List UInt8) : List UInt8 :=
  ((cstr file).reverse.takeWhile fun c => c ≠ 47 ∧ c ≠ 92).reverse

/-- What the constructor of a message writes to its stream. -/
def header (s : State) (e : Env) (m : Statement) : List UInt8 :=
  let time := (e.time - s.start) % 1000
  (if s.timestamp then
      ascii "[" ++ timeString e.tm ++ ascii "."
        ++ (valueOf time.toNat).leftpad 3 48 ++ ascii "]"
    else [])
  ++ (if s.thread then ascii "[" ++ hex e.threadId.toUInt64.toNat ++ ascii "] " else [])
  ++ (if s.ctxSev ≤ m.severity.toInt then
      describe m.severity ++ ascii "(" ++ describeFile m.file ++ ascii ":"
        ++ valueOfInt m.line ++ ascii "): "
    else [])

/-- The text that the constructor of a message leaves in `extra_`. -/
def extra (e : Env) (m : Statement) : List UInt8 :=
  match m.errCtx with
  | .ERRCTX_NONE => []
  | .ERRCTX_ERRNO =>
    ascii "[0x" ++ (hex m.err.toUInt32.toNat).leftpad 8 48 ++ ascii "]"
      ++ ascii " " ++ e.strerror m.err
  | .ERRCTX_HRESULT => ascii "[0x" ++ (hex m.err.toUInt32.toNat).leftpad 8 48 ++ ascii "]"

/-- The complete text of a message. -/
def text (s : State) (e : Env) (m : Statement) : List UInt8 :=
  header s e m ++ m.content
    ++ (if extra e m ≠ [] then ascii " : " ++ extra e m else []) ++ ascii "\n"

/-! ### Delivery -/

/-- A text that is written to the debug output, or handed to a stream by `LogData`. -/
inductive Delivery where
  | debug (text : List UInt8)
  | logData (stream : Stream) (text : List UInt8)
  deriving DecidableEq

/-- What the destructor of a message does with its text. -/
def deliver (s : State) (severity : ℤ) (str : List UInt8) : List Delivery :=
  (if s.dbgSev ≤ severity then [.debug str] else [])
    ++ s.streamList.filterMap fun it => if it.2 ≤ severity then some (.logData it.1 str) else none

/-- `Loggable`. -/
def loggable (s : State) (sev : LoggingSeverity) : Bool :=
  s.minSev ≤ sev.toInt

/-- A statement `LOG(sev)`. -/
def log (s : State) (e : Env) (m : Statement) : List Delivery :=
  if loggable s m.severity then deliver s m.severity.toInt (text s e m) else []

end LogMessage
