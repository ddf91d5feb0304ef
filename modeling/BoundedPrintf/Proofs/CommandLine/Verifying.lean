import BoundedPrintf.Proofs.CommandLine.Jobs
import BoundedPrintf.Proofs.CommandLine.Logging
import BoundedPrintf.Proofs.CommandLine.Plan

/-! What a verification leaves behind: one result for each case and each mode that the case runs in,
a summary that counts them, a log with an entry for each, and a failure where a result failed. The log
is found in its file, unless the report is written to the same place after it. A run that stops the
program stops the verification. -/
namespace BoundedPrintf.CommandLine

open Conformance Log

namespace Verification

/-- The results are those of the cases that run in a mode, by mode, file and case. -/
structure Complete [Build] (verification : Verification) (memory : Memory) : Prop where
  listed : (jobs verification.modes verification.loaded memory).flatten.map
      (fun job => (job.mode, job.case)) =
    verification.modes.flatMap fun mode => verification.loaded.flatMap fun fixture =>
      (fixture.set.cases.filter fun case => case.mode = mode.name ∨ case.mode = "both").map (mode, ·)
  ordered : (jobs verification.modes verification.loaded memory).flatten.map Job.result? =
    verification.results.map some
  dealt : ∃ groups, verification.results.Perm groups.flatten ∧
    List.Forall₂ (Dealt verification.modes) (allCases verification.loaded) groups

structure Counted (summary : Summary) (results : List VerificationResult) : Prop where
  kept : summary.results = results
  total : summary.total = results.length
  passed : summary.passed = results.countP (·.passed)
  failed : summary.failed = summary.total - summary.passed
  failures : summary.failures = results.filter (!·.passed)

/-- The file of the log has a line for each entry, and all of them are accepted. -/
structure Logged (verification : Verification) (clock : Clock) : Prop where
  /-- Provided that the report is not written to its place. -/
  held : ∀ tree path, verification.options.log = some path →
    Plan.Writable tree (verification.plan clock).steps →
    (∀ report, verification.options.report = some report →
      tree.place path ≠ tree.place report ∧ tree.place path ≠ tree.place (withExtension report "json")) →
    ((verification.plan clock).run tree).tree.read path = .ok (Text.utf8 (verification.log clock).text)
  text : (verification.log clock).text =
    String.join ((verification.logEntries clock).map fun entry => entry.line ++ "\n")
  count : (verification.logEntries clock).length = verification.summary.total + 2
  numbered : (verification.logEntries clock).map (·.traceId) =
    (List.range' 1 (verification.summary.total + 2)).map
      (traceId "conformance" ("run-" ++ toString clock.started.seconds))
  accepted : ∀ entry ∈ verification.logEntries clock,
    '\n' ∉ entry.line.toList ∧ readLine entry.line = .ok entry.tidy

/-- What the command does once the fixtures are loaded. -/
structure Accounts [Build] (options : VerifyOptions) (modes : List Mode) (loaded : List LoadedFixture)
    (memory : Memory) (clock : Clock) : Prop where
  planned : ∀ tree, loadFixtures tree options.fixture = .ok loaded →
    options.plan tree memory clock = (ofLoaded options modes loaded memory).plan clock
  /-- The results up to a run that stops the program are those of the first runs. -/
  front : (ofLoaded options modes loaded memory).results.map some <+:
    (jobs modes loaded memory).flatten.map Job.result?
  stops : (ofLoaded options modes loaded memory).complete = false ↔
    ∃ job ∈ (jobs modes loaded memory).flatten, Stops job.case job.mode job.addresses
  complete : (ofLoaded options modes loaded memory).complete = true →
    Complete (ofLoaded options modes loaded memory) memory
  counted : Counted (ofLoaded options modes loaded memory).summary
    (ofLoaded options modes loaded memory).results
  /-- Provided that the log and the report can be written. -/
  fails : (ofLoaded options modes loaded memory).complete = true →
    ∀ tree, Plan.Writable tree ((ofLoaded options modes loaded memory).plan clock).steps →
      ((((ofLoaded options modes loaded memory).plan clock).run tree).code ≠ 0 ↔
        0 < (ofLoaded options modes loaded memory).summary.failed)
  crashes : (ofLoaded options modes loaded memory).complete = false →
    ∀ tree, Plan.Writable tree ((ofLoaded options modes loaded memory).plan clock).steps →
      (((ofLoaded options modes loaded memory).plan clock).run tree).code = Effects.crashCode
  logged : (ofLoaded options modes loaded memory).complete = true →
    Logged (ofLoaded options modes loaded memory) clock

section Steps

variable {verification : Verification} {clock : Clock} {tree : FileTree}

theorem fails_iff (complete : verification.complete = true)
    (writable : Plan.Writable tree (verification.plan clock).steps) :
    ((verification.plan clock).run tree).code ≠ 0 ↔ 0 < verification.summary.failed := by
  have ends : (verification.plan clock).finish = if verification.summary.failed = 0 then .success
      else .failure (Text.quote "Conformance verification failed") := by
    rw [plan, if_pos complete]
    by_cases none : verification.summary.failed = 0 <;> simp [Summary.allPassed, none]
  rw [Plan.code_run writable, ends]
  split
  · next none => simp [none, Effects.finish]
  · next some => simp [Effects.finish, Effects.fail, Nat.pos_of_ne_zero some]

theorem code_of_crash (incomplete : verification.complete = false)
    (writable : Plan.Writable tree (verification.plan clock).steps) :
    ((verification.plan clock).run tree).code = Effects.crashCode := by
  rw [Plan.code_run writable, plan, if_neg (Bool.eq_false_iff.mp incomplete)]
  rfl

/-- What follows the log. -/
def reportSteps (verification : Verification) (clock : Clock) : List Step :=
  verification.options.report.elim [] fun target =>
    [.tell ("Writing report to " ++ target ++ "\n"), .write target (verification.report clock).markdown,
      .write (withExtension target "json") (verification.report clock).write]

theorem steps_of_log (complete : verification.complete = true) {path : String}
    (chosen : verification.options.log = some path) : ∃ front, (verification.plan clock).steps =
      front ++ .write path (verification.log clock).text :: verification.reportSteps clock := by
  rw [plan, if_pos complete]
  simp only [chosen, Option.map_some, Option.toList_some]
  exact ⟨_, (List.append_assoc _ _ _).trans rfl⟩

/-- Only the report is written after the log. -/
theorem read_log (complete : verification.complete = true) {path : String}
    (chosen : verification.options.log = some path)
    (writable : Plan.Writable tree (verification.plan clock).steps)
    (apart : ∀ report, verification.options.report = some report →
      tree.place path ≠ tree.place report ∧ tree.place path ≠ tree.place (withExtension report "json")) :
    ((verification.plan clock).run tree).tree.read path =
      .ok (Text.utf8 (verification.log clock).text) := by
  have spares : Plan.Spares tree path (verification.reportSteps clock) := by
    intro other text member
    rw [reportSteps] at member
    cases report : verification.options.report with
    | none => simp [report] at member
    | some target =>
        obtain ⟨fromReport, fromJson⟩ := apart target report
        simp only [report, Option.elim_some, List.mem_cons, reduceCtorEq, false_or,
          Step.write.injEq, List.not_mem_nil, or_false] at member
        rcases member with ⟨rfl, -⟩ | ⟨rfl, -⟩
        · exact fromReport
        · exact fromJson
  obtain ⟨front, split⟩ := @steps_of_log verification clock complete path chosen
  rw [split] at writable
  rw [Plan.run, split]
  exact Plan.read_runSteps_of_write writable spares

end Steps

section Proofs

variable [Build] {options : VerifyOptions} {modes : List Mode} {loaded : List LoadedFixture}
  {memory : Memory} {clock : Clock}

theorem found_ofLoaded : (ofLoaded options modes loaded memory).results.map some <+:
      (jobs modes loaded memory).flatten.map Job.result? ∧
    Found (jobs modes loaded memory).flatten
      (if (ofLoaded options modes loaded memory).complete then
        some (ofLoaded options modes loaded memory).results else none) :=
  found_gather (found_fileResults modes loaded memory)

theorem ordered_ofLoaded (complete : (ofLoaded options modes loaded memory).complete = true) :
    (jobs modes loaded memory).flatten.map Job.result? =
      (ofLoaded options modes loaded memory).results.map some := by
  have found := (@found_ofLoaded _ options modes loaded memory).2
  rwa [if_pos complete] at found

theorem stops_ofLoaded : (ofLoaded options modes loaded memory).complete = false ↔
    ∃ job ∈ (jobs modes loaded memory).flatten, Stops job.case job.mode job.addresses := by
  simp only [← Job.result?_eq_none_iff]
  constructor
  · intro incomplete
    have found := (@found_ofLoaded _ options modes loaded memory).2
    rwa [incomplete] at found
  · rintro ⟨job, member, stopped⟩
    refine Bool.eq_false_iff.mpr fun complete => ?_
    have listed : none ∈ (jobs modes loaded memory).flatten.map Job.result? :=
      stopped ▸ List.mem_map_of_mem member
    rw [ordered_ofLoaded complete] at listed
    simp at listed

theorem complete_ofLoaded (valid : ∀ fixture ∈ loaded, fixture.set.fault? = none)
    (complete : (ofLoaded options modes loaded memory).complete = true) :
    Complete (ofLoaded options modes loaded memory) memory := by
  have ordered := ordered_ofLoaded complete
  refine ⟨?_, ordered, dealt_of_ordered valid ordered⟩
  refine (map_jobs modes loaded memory).trans ?_
  refine List.flatMap_congr fun mode _ => List.flatMap_congr fun fixture member => ?_
  have kept : fixture.set.cases.filter (runsIn mode) =
      fixture.set.cases.filter fun case => case.mode = mode.name ∨ case.mode = "both" := by
    refine List.filter_congr fun case inside => ?_
    rw [Bool.eq_iff_iff, runsIn_iff (FixtureSet.fault?_eq_none_iff.mp (valid fixture member) case inside),
      decide_eq_true_iff]
  rw [kept]

theorem mode_of_mem_results {result : VerificationResult}
    (member : result ∈ (ofLoaded options modes loaded memory).results) :
    result.mode = Mode.compat.name ∨ result.mode = Mode.strict.name := by
  have inside := (@found_ofLoaded _ options modes loaded memory).1.subset (List.mem_map_of_mem member)
  obtain ⟨job, -, verified⟩ := List.mem_map.mp inside
  rw [mode_of_resultIn ⟨job.addresses, verified⟩]
  cases job.mode
  · exact .inl rfl
  · exact .inr rfl

theorem logged_ofLoaded (few : (ofLoaded options modes loaded memory).results.length ≤ maxSize)
    (complete : (ofLoaded options modes loaded memory).complete = true) :
    Logged (ofLoaded options modes loaded memory) clock := by
  have told := @told_logEntries (ofLoaded options modes loaded memory) few clock
  have conforms := @conforms_logEntries (ofLoaded options modes loaded memory)
    (fun result member => mode_of_mem_results member) clock
  refine ⟨fun tree path chosen writable apart => read_log complete chosen writable apart, ?_,
    length_logEntries _ clock, map_traceId_logEntries _ clock, ?_⟩
  · rw [Emitter.text, lines_log, List.map_map]
    rfl
  intro entry member
  constructor
  · exact Json.no_line_break_compact (Entry.exact_toJson fun details inside =>
      (told entry member details inside).exact)
  · exact readLine_line (conforms entry member) (told entry member)

end Proofs

/-- A verification of loaded fixtures loses and invents nothing. No list in memory has more items than
the last hypothesis allows. -/
theorem accounts [Build] {options : VerifyOptions} {modes : List Mode} {loaded : List LoadedFixture}
    {memory : Memory} (accepted : Mode.readChoice options.mode = .ok modes)
    (valid : ∀ fixture ∈ loaded, fixture.set.fault? = none)
    (few : (ofLoaded options modes loaded memory).results.length ≤ maxSize) (clock : Clock) :
    Accounts options modes loaded memory clock := by
  refine ⟨fun tree found => ?_, found_ofLoaded.1, stops_ofLoaded, complete_ofLoaded valid,
    ⟨rfl, rfl, rfl, rfl, rfl⟩, fun complete tree writable => fails_iff complete writable,
    fun incomplete tree writable => code_of_crash incomplete writable, logged_ofLoaded few⟩
  rw [VerifyOptions.plan, prepare, accepted]
  simp only [found]

def bothOptions : VerifyOptions :=
  { fixture := "a.json", log := some "log", report := some "report.md", mode := "Both" }

/-- A file with a case for both modes and a strict case that fails. -/
def mixedFile : LoadedFixture :=
  { path := "a.json", sha256 := ""
    set := { version := "1", family := "f", capturedAt := "t", cases :=
      [{ name := "a", clause := "s", template := "%d", capacity := 8, args := [.int 1],
         expectedOutput := "1", expectedReturn := 1, expectedCounts := .ofList [] },
       { name := "b\n::", clause := "s", template := "%q", capacity := 8, expectedOutput := "",
         expectedReturn := 0, expectedCounts := .ofList [], mode := "strict" }] } }

/-- Each entry is made a second after the one before it. -/
def ticking : Clock :=
  { started := ⟨0, 0⟩, entry := fun count => ⟨count, 0⟩, reported := ⟨9, 0⟩ }

def onePlace : Memory := fun _ _ _ _ => 4096

theorem mixed_file_accounted :
    let _ : Build := .checked
    let verification := ofLoaded bothOptions [.compat, .strict] [mixedFile] onePlace
    verification.complete = true ∧
      verification.results.map (fun result => (result.caseName, result.passed)) =
        [("a [compat]", true), ("a [strict]", true), ("b\n::", false)] ∧
      ((verification.plan ticking).run {}).tree.read "log" =
        .ok (Text.utf8 (verification.log ticking).text) ∧
      ((verification.plan ticking).run {}).code ≠ 0 := by
  intro build verification
  have valid : ∀ fixture ∈ [mixedFile], fixture.set.fault? = none := by decide +kernel
  have few : verification.results.length ≤ maxSize := by decide +kernel
  have complete : verification.complete = true := by decide +kernel
  have writable : Plan.Writable {} (verification.plan ticking).steps := by decide +kernel
  have account := accounts rfl valid few ticking
  have apart : ∀ report, bothOptions.report = some report →
      FileTree.place {} "log" ≠ FileTree.place {} report ∧
        FileTree.place {} "log" ≠ FileTree.place {} (withExtension report "json") := by
    rintro _ ⟨⟩
    decide +kernel
  refine ⟨complete, by decide +kernel, ?_, ?_⟩
  · exact (account.logged complete).held {} "log" rfl writable apart
  · exact (account.fails complete {} writable).mpr (by decide +kernel)

/-- The report in JSON goes to the place of the log. -/
def sharedPlace : VerifyOptions := { fixture := "a", log := some "o.json", report := some "o.md" }

def emptyFile : LoadedFixture :=
  { path := "a", sha256 := "", set := { version := "1", family := "f", capturedAt := "t", cases := [] } }

theorem log_replaced_by_report :
    let _ : Build := .checked
    let verification := ofLoaded sharedPlace [.compat] [emptyFile] onePlace
    Plan.Writable {} (verification.plan ticking).steps ∧
      ((verification.plan ticking).run {}).tree.read "o.json" ≠
        .ok (Text.utf8 (verification.log ticking).text) := by
  decide +kernel

end Verification

end BoundedPrintf.CommandLine
