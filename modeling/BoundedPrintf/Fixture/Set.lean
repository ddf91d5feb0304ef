import BoundedPrintf.Fixture.Case
import BoundedPrintf.Json.Printer
import BoundedPrintf.Json.Reader

/-! A fixture set holds the cases of one family of behaviours and is stored as JSON. -/
namespace BoundedPrintf

structure FixtureSet where
  version : String
  family : String
  /-- When the cases were taken down. -/
  capturedAt : String
  cases : List FixtureCase

namespace FixtureSet

def ofJson? (json : Json) : Option FixtureSet := do
  let record ← json.record? ["version", "family", "captured_at", "cases"]
  some
    { version := ← record.required? "version" Json.text?
      family := ← record.required? "family" Json.text?
      capturedAt := ← record.required? "captured_at" Json.text?
      cases := ← record.required? "cases" (Json.list? FixtureCase.ofJson?) }

def toJson (set : FixtureSet) : Json :=
  .object [("version", .string set.version), ("family", .string set.family),
    ("captured_at", .string set.capturedAt), ("cases", .array (set.cases.map FixtureCase.toJson))]

/-- Reads a fixture set from its stored form. -/
def read? (text : String) : Option FixtureSet := (Json.read? text).bind ofJson?

/-- The stored form of a fixture set. -/
def write (set : FixtureSet) : String := set.toJson.pretty

/-- The first case with a fault, by name, and its fault. -/
def fault? (set : FixtureSet) : Option (String × CaseFault) :=
  set.cases.findSome? fun case => case.fault?.map (case.name, ·)

end FixtureSet

end BoundedPrintf
