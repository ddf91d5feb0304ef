import BoundedPrintf.Json.Reader
import BoundedPrintf.Log.Entry
import BoundedPrintf.Mode

/-! Checking log lines. The checks look at the members of the object that a line holds; a line that
passes all of them still has to read as an entry. -/
namespace BoundedPrintf.Log

/-- What is wrong with a line. -/
inductive Complaint
  | notJson
  | notObject
  | missing (field : String)
  | badValue (field value : String)
  | badTraceId (id : String)
  | noContext
  | notEntry
  deriving DecidableEq, Repr

namespace Complaint

/-- The field that is at fault, or a word in angle brackets for the line as a whole. -/
def field : Complaint → String
  | .notJson => "<json>"
  | .notObject => "<root>"
  | .missing field | .badValue field _ => field
  | .badTraceId _ => "trace_id"
  | .noContext => "case"
  | .notEntry => "<deserialization>"

def message : Complaint → String
  | .notJson => "invalid JSON"
  | .notObject => "expected JSON object"
  | .missing _ => "required field missing"
  | .badValue field value => "invalid " ++ field ++ ": '" ++ value ++ "'"
  | .badTraceId id => "trace_id should follow <scope>::<run_id>::<seq> format, got: '" ++ id ++ "'"
  | .noContext => "outcome events must name a case or carry details"
  | .notEntry => "failed to deserialize"

/-- The text of a complaint about a numbered line. -/
def text (complaint : Complaint) (line : Nat) : String :=
  "line " ++ toString line ++ ": field '" ++ complaint.field ++ "': " ++ complaint.message

end Complaint

/-- The number of pairs of colons in a trace id, found from the left. -/
def separators : List Char → Nat
  | ':' :: ':' :: rest => separators rest + 1
  | _ :: rest => separators rest
  | [] => 0

def has (object : Json) (field : String) : Bool := (object.get? field).isSome

/-- A complaint about a text that is none of the names allowed. What is no text is left to the
reading of the entry. -/
def checkName (object : Json) (field : String) (allowed : List String) : List Complaint :=
  match (object.get? field).bind Json.text? with
  | some value => if allowed.contains value then [] else [.badValue field value]
  | none => []

def requiredFields : List String := ["timestamp", "trace_id", "level", "event"]

/-- The complaints about an object in the order of the checks. -/
def complaints (object : Json) : List Complaint :=
  (requiredFields.filter fun field => !has object field).map .missing ++
  checkName object "level" (Level.all.map Level.name) ++
  checkName object "mode" [Mode.compat.name, Mode.strict.name] ++
  checkName object "outcome" (Verdict.all.map Verdict.name) ++
  (match (object.get? "trace_id").bind Json.text? with
    | some id => if separators id.toList = 2 then [] else [.badTraceId id]
    | none => []) ++
  (if has object "outcome" && !has object "case" && !has object "details" then [.noContext] else [])

/-- The entry that a line holds, or what is wrong with it. -/
def readLine (line : String) : Except (List Complaint) Entry :=
  match (Json.read? line).bind Json.whole? with
  | none => .error [.notJson]
  | some (.object members) =>
      match complaints (.object members) with
      | [] =>
          match Entry.ofJson? (.object members) with
          | some entry => .ok entry
          | none => .error [.notEntry]
      | found => .error found
  | some _ => .error [.notObject]

/-- The number of lines of a log that are not blank, and all complaints about them with their line
numbers. -/
def checkText (text : String) : Nat × List (Nat × Complaint) :=
  let kept := ((text.splitOn "\n").zipIdx 1).filterMap fun (line, number) =>
    let line := Text.trim line.toList
    if line.isEmpty then none else some (String.ofList line, number)
  (kept.length, kept.flatMap fun (line, number) =>
    match readLine line with
    | .ok _ => []
    | .error found => found.map (number, ·))

end BoundedPrintf.Log
