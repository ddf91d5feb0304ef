import BoundedPrintf.Fixture.Argument

/-! A fixture case pairs a template, its arguments and a buffer size with the output, the return
value and the counts that are expected. -/
namespace BoundedPrintf

structure FixtureCase where
  name : String
  /-- What the case checks: a clause of the standard or a contract. -/
  clause : String
  template : String
  /-- The size of the buffer with the place of the terminator. -/
  capacity : UInt64
  args : List FixtureArgument := []
  expectedOutput : String
  expectedReturn : Int32
  /-- The last value of each count target that is checked. -/
  expectedCounts : Labelled Int32 := {}
  mode : String := "both"

/-- Why a case cannot be used. -/
inductive CaseFault
  | unknownMode (mode : String)
  | unboundCount (label : String)
  | lengthMismatch (returned : Int) (length : Nat)
  deriving DecidableEq, Repr

def CaseFault.message : CaseFault → String
  | .unknownMode mode => "unknown mode '" ++ mode ++ "'"
  | .unboundCount label => "expected count '" ++ label ++ "' has no count argument"
  | .lengthMismatch returned length =>
      "expected_return " ++ toString returned ++ " disagrees with expected_output length " ++ toString length

namespace FixtureCase

/-- The first fault of a case: its mode, then its counts in the order of their labels, then its
length. -/
def fault? (case : FixtureCase) : Option CaseFault :=
  if case.mode ≠ "compat" ∧ case.mode ≠ "strict" ∧ case.mode ≠ "both" then some (.unknownMode case.mode)
  else
    let labels := FixtureArgument.labels case.args
    match case.expectedCounts.entries.find? fun entry => !labels.contains entry.1 with
    | some (label, _) => some (.unboundCount label)
    | none =>
        let length := case.expectedOutput.utf8ByteSize
        let returned := case.expectedReturn.toInt
        if 0 ≤ returned ∧ returned ≠ length then some (.lengthMismatch returned length) else none

def fieldNames : List String :=
  ["name", "section", "template", "capacity", "args", "expected_output", "expected_return", "expected_counts", "mode"]

def ofJson? (json : Json) : Option FixtureCase := do
  let record ← json.record? fieldNames
  some
    { name := ← record.required? "name" Json.text?
      clause := ← record.required? "section" Json.text?
      template := ← record.required? "template" Json.text?
      capacity := ← record.required? "capacity" Json.uint64?
      args := ← record.withDefault? "args" [] (Json.list? FixtureArgument.ofJson?)
      expectedOutput := ← record.required? "expected_output" Json.text?
      expectedReturn := ← record.required? "expected_return" Json.int32?
      expectedCounts := ← record.withDefault? "expected_counts" {} (Json.labelled? Json.int32?)
      mode := ← record.withDefault? "mode" "both" Json.text? }

/-- The case in JSON. Counts are left out when none is expected. -/
def toJson (case : FixtureCase) : Json :=
  let counts := case.expectedCounts.entries.map fun entry => (entry.1, Json.integer entry.2.toInt)
  .object
    ([("name", .string case.name), ("section", .string case.clause), ("template", .string case.template),
      ("capacity", .integer case.capacity.toNat), ("args", .array (case.args.map FixtureArgument.toJson)),
      ("expected_output", .string case.expectedOutput), ("expected_return", .integer case.expectedReturn.toInt)] ++
      (if counts.isEmpty then [] else [("expected_counts", .object counts)]) ++
      [("mode", .string case.mode)])

end FixtureCase

end BoundedPrintf
