import CodeAtlas.Json.Writer
import CodeAtlas.Logging.Level
import CodeAtlas.Text.Path

/-!
# The log of requests

Requests and failures are logged as lines of JSON. All logs of a process share one file, that of the
log which was opened first; each log that is opened sets the level for all. A level without a number
of its own takes the one of the process.
-/

namespace CodeAtlas

open Json

/-- What is logged of a request that was answered. -/
structure RequestRecord where
  requestId : Text
  digest : Text
  language : Text
  cached : Bool
  /-- A number, with or without a fraction. -/
  millis : Json
  nodes : Int
  edges : Int
  errors : Int

/-- What is logged of a request that failed. -/
structure ErrorRecord where
  requestId : Text
  component : Text
  error : Text

/-- What is logged. -/
inductive LogRecord where
  | request (r : RequestRecord)
  | error (r : ErrorRecord)

namespace LogRecord

/-- How much of a digest is logged. -/
def digestLength : Nat := 12

/-- How much of the words of a failure is logged. -/
def errorLength : Nat := 500

/-- The number of the level that a record is logged at. -/
def number : LogRecord → Nat
  | request _ => Level.info.number
  | error _ => Level.error.number

/-- A record as JSON, with its time. -/
def toJson (time : Text) : LogRecord → Json
  | request r =>
    record [("type", str "visualize"), ("timestamp", .text time),
      ("request_id", .text r.requestId), ("digest", .text (r.digest.take digestLength)),
      ("language", .text r.language), ("cached", .bool r.cached), ("duration_ms", r.millis),
      ("nodes", .int r.nodes), ("edges", .int r.edges), ("errors", .int r.errors)]
  | error r =>
    record [("type", str "error"), ("timestamp", .text time), ("request_id", .text r.requestId),
      ("component", .text r.component), ("error", .text (r.error.take errorLength))]

end LogRecord

/-- The log of a process. -/
structure RequestLog where
  /-- The folder of the log that was opened first. -/
  folder : Option Path
  /-- The number of the level. -/
  threshold : Nat
  /-- The records in the file. -/
  records : List LogRecord

namespace RequestLog

/-- The number of the level of a process that has not set one. -/
def processNumber : Nat := Level.warning.number

/-- No log has been opened. -/
def closed : RequestLog := ⟨none, 0, []⟩

/-- Opens a log. -/
def openIn (l : RequestLog) (folder : Path) (level : Level) : RequestLog :=
  { l with folder := some (l.folder.getD folder), threshold := level.number }

/-- The number that a record needs to be logged. -/
def needed (l : RequestLog) : Nat := if l.threshold = 0 then processNumber else l.threshold

/-- Logs a record, if its level is high enough. -/
def log (l : RequestLog) (r : LogRecord) : RequestLog :=
  if l.needed ≤ r.number then { l with records := l.records ++ [r] } else l

/-- The lines in the file, the time of each record being left out. -/
def lines (l : RequestLog) : List Text := l.records.map fun r ↦ (r.toJson []).spaced

end RequestLog

end CodeAtlas
