import BoundedPrintf.Calendar
import BoundedPrintf.Json.Decode
import BoundedPrintf.Json.Printer

/-! Entries of a structured log, each one line of JSON. -/
namespace BoundedPrintf.Log

inductive Level
  | trace
  | debug
  | info
  | warn
  | error
  deriving DecidableEq, Repr

namespace Level

def name : Level → String
  | .trace => "trace"
  | .debug => "debug"
  | .info => "info"
  | .warn => "warn"
  | .error => "error"

def all : List Level := [.trace, .debug, .info, .warn, .error]

def ofName? (name : String) : Option Level := all.find? (·.name = name)

end Level

/-- How a check ended. -/
inductive Verdict
  | pass
  | fail
  | skip
  | error
  deriving DecidableEq, Repr

namespace Verdict

def name : Verdict → String
  | .pass => "pass"
  | .fail => "fail"
  | .skip => "skip"
  | .error => "error"

def all : List Verdict := [.pass, .fail, .skip, .error]

def ofName? (name : String) : Option Verdict := all.find? (·.name = name)

def ofPassed (passed : Bool) : Verdict := if passed then .pass else .fail

end Verdict

structure Entry where
  timestamp : String
  traceId : String
  level : Level
  event : String
  mode : Option String := none
  case : Option String := none
  /-- What the case checks. -/
  clause : Option String := none
  outcome : Option Verdict := none
  durationMs : Option UInt64 := none
  /-- Anything else. A `null` that is given is kept. -/
  details : Option Json := none

namespace Entry

/-- An entry with the fields that every entry has, made at the given time. -/
def make (now : Instant) (traceId : String) (level : Level) (event : String) : Entry :=
  { timestamp := now.stamp, traceId, level, event }

/-- The members of an entry. Fields without a value are left out. -/
def toJson (entry : Entry) : Json :=
  let optional (name : String) (value : Option Json) : List (String × Json) := (value.map (name, ·)).toList
  .object ([("timestamp", .string entry.timestamp), ("trace_id", .string entry.traceId),
    ("level", .string entry.level.name), ("event", .string entry.event)] ++
    optional "mode" (entry.mode.map .string) ++
    optional "case" (entry.case.map .string) ++
    optional "section" (entry.clause.map .string) ++
    optional "outcome" (entry.outcome.map fun verdict => .string verdict.name) ++
    optional "duration_ms" (entry.durationMs.map fun duration => .integer duration.toNat) ++
    optional "details" entry.details)

/-- The line of an entry, without its end. -/
def line (entry : Entry) : String := entry.toJson.compact

/-- Reads an entry from a JSON object. A field that is `null` counts as left out, where it may
be. -/
def ofJson? (json : Json) : Option Entry := do
  let record ← json.record? ["timestamp", "trace_id", "level", "event", "mode", "case", "section", "outcome",
    "duration_ms", "details"]
  some
    { timestamp := ← record.required? "timestamp" Json.text?
      traceId := ← record.required? "trace_id" Json.text?
      level := ← record.required? "level" fun json => json.name?.bind Level.ofName?
      event := ← record.required? "event" Json.text?
      mode := ← record.optional? "mode" Json.text?
      case := ← record.optional? "case" Json.text?
      clause := ← record.optional? "section" Json.text?
      outcome := ← record.optional? "outcome" fun json => json.name?.bind Verdict.ofName?
      durationMs := ← record.optional? "duration_ms" Json.uint64?
      details := ← record.optional? "details" some }

end Entry

end BoundedPrintf.Log
