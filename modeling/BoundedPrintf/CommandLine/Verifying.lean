import BoundedPrintf.CommandLine.Options
import BoundedPrintf.CommandLine.Plan
import BoundedPrintf.Conformance.Report
import BoundedPrintf.Fixture.Loading
import BoundedPrintf.Log.Emitter

/-! The command that verifies fixture files. All results are found first; then come the messages,
the log and the report. A run that stops the program leaves a log of the files before its own. -/
namespace BoundedPrintf.CommandLine

open Conformance Log

/-- The name of the campaign in all results. -/
def campaign : String := "fixture-verify"

/-- Where the values of each run lie in memory, by the mode and the places of file and case. -/
abbrev Memory := Mode → Nat → Nat → FixtureArgument.Addresses

/-- The results of each file in each mode, by mode and then by file, unless a run stops the program. -/
def fileResults [Build] (modes : List Mode) (loaded : List LoadedFixture) (memory : Memory) :
    List (Option (List VerificationResult)) :=
  modes.flatMap fun mode =>
    loaded.mapIdx fun place fixture => verifySet campaign mode (memory mode place) fixture.set

/-- The results up to the first file in which the program is stopped, and whether there is none. -/
def gather : List (Option (List VerificationResult)) → List VerificationResult × Bool
  | [] => ([], true)
  | none :: _ => ([], false)
  | some results :: rest =>
      let (others, complete) := gather rest
      (results ++ others, complete)

/-- A verification whose results are known, as far as there are any. -/
structure Verification where
  options : VerifyOptions
  modes : List Mode
  loaded : List LoadedFixture
  results : List VerificationResult
  complete : Bool

/-- The times that a verification tells, and how long it took. -/
structure Clock where
  /-- When the log is started. -/
  started : Instant
  /-- When each entry of the log is made, counted from zero. -/
  entry : Nat → Instant
  /-- When the report is made. -/
  reported : Instant
  elapsedMs : UInt64 := 0

/-- When the next entry of a log is made. -/
def Clock.next (clock : Clock) (emitter : Emitter) : Instant := clock.entry emitter.count

namespace Verification

def startLine (options : VerifyOptions) : Step := .tell ("Verifying against fixtures in " ++ options.fixture ++ "\n")

/-- Runs the cases of loaded fixtures. -/
def ofLoaded [Build] (options : VerifyOptions) (modes : List Mode) (loaded : List LoadedFixture)
    (memory : Memory) : Verification :=
  let (results, complete) := gather (fileResults modes loaded memory)
  { options, modes, loaded, results, complete }

/-- Loads the fixtures and runs their cases. If that fails, all that is left is to say so. -/
def prepare [Build] (options : VerifyOptions) (tree : FileTree) (memory : Memory) : Except Plan Verification :=
  match Mode.readChoice options.mode with
  | .error failure => .error { finish := .failure failure.shown }
  | .ok modes =>
      match loadFixtures tree options.fixture with
      | .error failure => .error { steps := [startLine options], finish := .failure failure.shown }
      | .ok loaded => .ok (ofLoaded options modes loaded memory)

def summary (verification : Verification) : Summary := Summary.ofResults verification.results

def modeNames (verification : Verification) : List String := verification.modes.map Mode.name

/-- The details of a result: its campaign, and what was wrong. -/
def resultDetails (result : VerificationResult) : Json :=
  .object ([("campaign", .string result.campaign)] ++ (result.diff.map fun diff => ("diff", .string diff)).toList)

/-- Errors are logged as such. -/
def levelOf (passed : Bool) : Level := if passed then .info else .error

def logResult (clock : Clock) (emitter : Emitter) (result : VerificationResult) : Emitter :=
  let (entry, emitter) := emitter.entry (clock.next emitter) (levelOf result.passed) "case_result"
  emitter.send
    { entry with
      mode := some result.mode
      case := some result.caseName
      clause := some result.clause
      outcome := some (.ofPassed result.passed)
      details := some (resultDetails result) }

/-- The log before the summary: a line for the start and one for each result in order. -/
def resultLog (verification : Verification) (clock : Clock) : Emitter :=
  let start : Emitter := { scope := "conformance", run := "run-" ++ toString clock.started.seconds }
  let (entry, emitter) := start.entry (clock.next start) .info "verify_start"
  let emitter := emitter.send
    { entry with
      details := some (.object [
        ("fixtures", .array (verification.loaded.map fun fixture => .string fixture.path)),
        ("modes", .array (verification.modeNames.map .string))]) }
  verification.results.foldl (logResult clock) emitter

/-- The whole log, which ends with a line for the summary. -/
def log (verification : Verification) (clock : Clock) : Emitter :=
  let emitter := verification.resultLog clock
  let summary := verification.summary
  let (entry, emitter) := emitter.entry (clock.next emitter) (levelOf summary.allPassed) "verify_summary"
  emitter.send
    { entry with
      outcome := some (.ofPassed summary.allPassed)
      durationMs := some clock.elapsedMs
      details := some (.object [("failed", .integer summary.failed), ("passed", .integer summary.passed),
        ("total", .integer summary.total)]) }

def report (verification : Verification) (clock : Clock) : Report :=
  { title := "boundfmt Conformance Report"
    mode := "+".intercalate verification.modeNames
    timestamp := clock.reported.stamp
    sources := verification.loaded.map fun fixture =>
      { path := fixture.path, family := fixture.set.family, sha256 := fixture.sha256,
        cases := fixture.set.cases.length }
    summary := verification.summary }

/-- The counts, and each result that failed with what was wrong. -/
def summaryLines (summary : Summary) : List Step :=
  .tell ("Verification complete: total=" ++ toString summary.total ++ ", passed=" ++ toString summary.passed ++
    ", failed=" ++ toString summary.failed ++ "\n") ::
  summary.failures.map fun result => .tell ("FAIL " ++ result.caseName ++ "\n" ++ result.diff.getD "" ++ "\n")

/-- The steps once the results are known. The log file is created before anything else is told. -/
def plan (verification : Verification) (clock : Clock) : Plan :=
  let options := verification.options
  let created := [startLine options] ++ (options.log.map fun path => .write path "").toList
  let written (emitter : Emitter) := (options.log.map fun path => Step.write path emitter.text).toList
  if verification.complete then
    let summary := verification.summary
    let report := verification.report clock
    { steps := created ++ summaryLines summary ++ written (verification.log clock) ++
        (options.report.elim [] fun path =>
          [.tell ("Writing report to " ++ path ++ "\n"), .write path report.markdown,
            .write (withExtension path "json") report.write])
      finish :=
        if summary.allPassed then .success else .failure (Text.quote "Conformance verification failed") }
  else { steps := created ++ written (verification.resultLog clock), finish := .crash }

end Verification

def VerifyOptions.plan [Build] (options : VerifyOptions) (tree : FileTree) (memory : Memory) (clock : Clock) :
    Plan :=
  match Verification.prepare options tree memory with
  | .error plan => plan
  | .ok verification => verification.plan clock

end BoundedPrintf.CommandLine
