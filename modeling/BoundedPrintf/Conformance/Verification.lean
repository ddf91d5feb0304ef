import BoundedPrintf.Conformance.Diff
import BoundedPrintf.Conformance.Execution
import BoundedPrintf.Fixture.Set

/-! Verifying fixture sets: which cases run in a mode, what is wrong with a run, and the summary of
all results. -/
namespace BoundedPrintf.Conformance

structure VerificationResult where
  /-- The name of the case, with the mode for a case that runs in both. -/
  caseName : String
  campaign : String := ""
  clause : String
  mode : String
  passed : Bool
  expected : String
  actual : String
  expectedReturn : Int
  actualReturn : Int
  /-- What was wrong, and any error of the renderer. -/
  diff : Option String

structure Summary where
  total : Nat
  passed : Nat
  failed : Nat
  results : List VerificationResult

/-- Equality of texts up to the case of ASCII letters. -/
def sameWord (a b : String) : Bool := a.toList.map Char.toLower = b.toList.map Char.toLower

def runsInBoth (case : FixtureCase) : Bool := sameWord case.mode "both"

/-- A case runs in its own mode, or in every one. -/
def runsIn (mode : Mode) (case : FixtureCase) : Bool := runsInBoth case || sameWord case.mode mode.name

/-- The written form of a count that may be missing. -/
def showCount : Option Int → String
  | some count => "Some(" ++ toString count ++ ")"
  | none => "None"

/-- What is wrong with a run: its output, its return value, its counts in the order of their labels,
and breaches of the contract. -/
def faults (case : FixtureCase) (run : CaseRun) : List String :=
  (if run.output = case.expectedOutput then [] else [diff case.expectedOutput run.output]) ++
  (if run.returned = case.expectedReturn.toInt then []
    else ["return value: expected " ++ toString case.expectedReturn.toInt ++ ", got " ++ toString run.returned]) ++
  (case.expectedCounts.entries.filterMap fun (label, expected) =>
    let actual := run.counts.get? label
    if actual = some expected.toInt then none
    else some ("count '" ++ label ++ "': expected " ++ toString expected.toInt ++ ", got " ++ showCount actual)) ++
  run.violations.map Violation.message

/-- The result of a run of a case in a mode. A rejected directive is noted, but fails the case only
by what else it changes. -/
def resultOf (campaign : String) (mode : Mode) (case : FixtureCase) (run : CaseRun) : VerificationResult :=
  let faults := faults case run
  let notes := faults ++ (run.error.map fun error => "engine error: " ++ error.message).toList
  { caseName := if runsInBoth case then case.name ++ " [" ++ mode.name ++ "]" else case.name
    campaign
    clause := case.clause
    mode := mode.name
    passed := faults.isEmpty
    expected := case.expectedOutput
    actual := run.output
    expectedReturn := case.expectedReturn.toInt
    actualReturn := run.returned
    diff := if notes.isEmpty then none else some ("\n".intercalate notes) }

/-- The result of one case in one mode, unless its run stops the program. -/
def verifyCase [Build] (campaign : String) (mode : Mode) (addresses : FixtureArgument.Addresses)
    (case : FixtureCase) : Option VerificationResult :=
  (execute case mode addresses).map (resultOf campaign mode case)

/-- The results of cases in order, each of which has its own place in memory. There are none if one
of them stops the program. -/
def verifyCases [Build] (campaign : String) (mode : Mode) (memory : Nat → FixtureArgument.Addresses) :
    List FixtureCase → Option (List VerificationResult)
  | [] => some []
  | case :: rest => do
      let first ← verifyCase campaign mode (memory 0) case
      let others ← verifyCases campaign mode (memory <| · + 1) rest
      some (first :: others)

/-- The results of the cases of a set that run in a mode, in order. -/
def verifySet [Build] (campaign : String) (mode : Mode) (memory : Nat → FixtureArgument.Addresses)
    (set : FixtureSet) : Option (List VerificationResult) :=
  verifyCases campaign mode memory (set.cases.filter (runsIn mode))

namespace VerificationResult

def ofJson? (json : Json) : Option VerificationResult := do
  let record ← json.record? ["case_name", "campaign", "section", "mode", "passed", "expected", "actual",
    "expected_return", "actual_return", "diff"]
  some
    { caseName := ← record.required? "case_name" Json.text?
      campaign := ← record.withDefault? "campaign" "" Json.text?
      clause := ← record.required? "section" Json.text?
      mode := ← record.required? "mode" Json.text?
      passed := ← record.required? "passed" Json.bool?
      expected := ← record.required? "expected" Json.text?
      actual := ← record.required? "actual" Json.text?
      expectedReturn := (← record.required? "expected_return" Json.int32?).toInt
      actualReturn := (← record.required? "actual_return" Json.int32?).toInt
      diff := ← record.optional? "diff" Json.text? }

def toJson (result : VerificationResult) : Json :=
  .object [("case_name", .string result.caseName), ("campaign", .string result.campaign),
    ("section", .string result.clause), ("mode", .string result.mode), ("passed", .bool result.passed),
    ("expected", .string result.expected), ("actual", .string result.actual),
    ("expected_return", .integer result.expectedReturn), ("actual_return", .integer result.actualReturn),
    ("diff", result.diff.elim .null .string)]

end VerificationResult

namespace Summary

def ofResults (results : List VerificationResult) : Summary :=
  let passed := results.countP (·.passed)
  { total := results.length, passed, failed := results.length - passed, results }

def allPassed (summary : Summary) : Bool := summary.failed = 0

def failures (summary : Summary) : List VerificationResult := summary.results.filter (!·.passed)

def ofJson? (json : Json) : Option Summary := do
  let record ← json.record? ["total", "passed", "failed", "results"]
  some
    { total := (← record.required? "total" Json.uint64?).toNat
      passed := (← record.required? "passed" Json.uint64?).toNat
      failed := (← record.required? "failed" Json.uint64?).toNat
      results := ← record.required? "results" (Json.list? VerificationResult.ofJson?) }

def toJson (summary : Summary) : Json :=
  .object [("total", .integer summary.total), ("passed", .integer summary.passed),
    ("failed", .integer summary.failed), ("results", .array (summary.results.map VerificationResult.toJson))]

end Summary

end BoundedPrintf.Conformance
