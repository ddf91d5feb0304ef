import BoundedPrintf.CommandLine.Verifying
import BoundedPrintf.Proofs.Log.Emitting
import BoundedPrintf.Proofs.Log.Reading

/-! The log of a verification: an entry for the start, one for each result in order and one for the
summary, numbered from one. All of them conform to the schema, whatever texts the results hold. A
verification that the program does not finish leaves the entries before the summary. -/
namespace BoundedPrintf.CommandLine

open Conformance Log

namespace Verification

def describeStart (verification : Verification) (entry : Entry) : Entry :=
  { entry with
    details := some (.object [
      ("fixtures", .array (verification.loaded.map fun fixture => .string fixture.path)),
      ("modes", .array (verification.modeNames.map .string))]) }

def describeResult (result : VerificationResult) (entry : Entry) : Entry :=
  { entry with
    mode := some result.mode
    case := some result.caseName
    clause := some result.clause
    outcome := some (.ofPassed result.passed)
    details := some (resultDetails result) }

def describeSummary (summary : Summary) (clock : Clock) (entry : Entry) : Entry :=
  { entry with
    outcome := some (.ofPassed summary.allPassed)
    durationMs := some clock.elapsedMs
    details := some (.object [("failed", .integer summary.failed),
      ("passed", .integer summary.passed), ("total", .integer summary.total)]) }

/-- The run of all trace ids of a log. -/
def runName (clock : Clock) : String := "run-" ++ toString clock.started.seconds

def logId (clock : Clock) (number : Nat) : String := traceId "conformance" (runName clock) number

def resultEntry (now : Instant) (id : String) (result : VerificationResult) : Entry :=
  describeResult result (Entry.make now id (levelOf result.passed) "case_result")

/-- The entries before the summary in order, each of which has its own time. -/
def resultEntries (verification : Verification) (clock : Clock) : List Entry :=
  verification.describeStart (Entry.make (clock.entry 0) (logId clock 1) .info "verify_start") ::
    (verification.results.zipIdx 1).map fun (result, place) =>
      resultEntry (clock.entry place) (logId clock (place + 1)) result

/-- The entries of the log in order. -/
def logEntries (verification : Verification) (clock : Clock) : List Entry :=
  verification.resultEntries clock ++
    [describeSummary verification.summary clock (Entry.make
      (clock.entry (verification.results.length + 1)) (logId clock (verification.results.length + 2))
      (levelOf verification.summary.allPassed) "verify_summary")]

theorem logResult_eq_append (clock : Clock) (emitter : Emitter) (result : VerificationResult) :
    logResult clock emitter result =
      emitter.append (resultEntry (clock.entry emitter.count) emitter.nextTraceId result) :=
  @Emitter.send_entry emitter (clock.next emitter) (levelOf result.passed) "case_result"
    (describeResult result) fun _ => rfl

theorem foldl_logResult (clock : Clock) (results : List VerificationResult) (emitter : Emitter) :
    results.foldl (logResult clock) emitter =
      { emitter with
        count := emitter.count + results.length
        lines := emitter.lines ++ ((results.zipIdx emitter.count).map fun (result, place) =>
          resultEntry (clock.entry place) (traceId emitter.scope emitter.run (place + 1))
            result).map Entry.line } := by
  induction results generalizing emitter with
  | nil => simp
  | cons result results ih =>
      rw [List.foldl_cons, ih, logResult_eq_append]
      simp [Emitter.append, Emitter.nextTraceId, List.zipIdx_cons, Nat.add_comm, Nat.add_left_comm]

/-- The log before the summary holds a line for each entry there. -/
theorem resultLog_eq (verification : Verification) (clock : Clock) :
    verification.resultLog clock =
      { scope := "conformance", run := runName clock, count := verification.results.length + 1
        lines := (verification.resultEntries clock).map Entry.line } := by
  let start : Emitter := { scope := "conformance", run := runName clock }
  have first := @Emitter.send_entry start (clock.entry 0) .info "verify_start"
    verification.describeStart fun _ => rfl
  have folded : verification.resultLog clock = verification.results.foldl (logResult clock)
      (start.append (verification.describeStart
        (Entry.make (clock.entry 0) start.nextTraceId .info "verify_start"))) := by
    rw [← first]
    rfl
  rw [folded, foldl_logResult]
  simp [start, Emitter.append, Emitter.nextTraceId, resultEntries, logId, Nat.add_comm]

theorem lines_log (verification : Verification) (clock : Clock) :
    (verification.log clock).lines = (verification.logEntries clock).map Entry.line := by
  have last := @Emitter.send_entry (verification.resultLog clock)
    (clock.next (verification.resultLog clock)) (levelOf verification.summary.allPassed)
    "verify_summary" (describeSummary verification.summary clock) fun _ => rfl
  have whole : verification.log clock = (verification.resultLog clock).append
      (describeSummary verification.summary clock (Entry.make
        (clock.next (verification.resultLog clock)) (verification.resultLog clock).nextTraceId
        (levelOf verification.summary.allPassed) "verify_summary")) := by
    rw [← last]
    rfl
  rw [whole, Clock.next, resultLog_eq]
  simp [Emitter.append, Emitter.nextTraceId, logEntries, logId]

theorem map_traceId_logEntries (verification : Verification) (clock : Clock) :
    (verification.logEntries clock).map (·.traceId) =
      (List.range' 1 (verification.results.length + 2)).map (logId clock) := by
  have results : ((verification.results.zipIdx 1).map fun (result, place) =>
      resultEntry (clock.entry place) (logId clock (place + 1)) result).map (·.traceId) =
        (List.range' 2 verification.results.length).map (logId clock) := by
    have shifted : List.range' 2 verification.results.length =
        (verification.results.zipIdx 1).map fun (_, place) => place + 1 := by
      have above : (List.range' 1 verification.results.length).map (1 + ·) =
          List.range' 2 verification.results.length := List.map_add_range' ..
      rw [← above, ← List.zipIdx_map_snd 1 verification.results, List.map_map]
      exact List.map_congr_left fun _ _ => Nat.add_comm ..
    rw [shifted, List.map_map, List.map_map]
    rfl
  have range : List.range' 1 (verification.results.length + 2) =
      1 :: List.range' 2 verification.results.length ++ [verification.results.length + 2] := by
    rw [List.range'_succ, List.range'_concat, Nat.one_mul, Nat.add_comm 2]
    rfl
  rw [logEntries, resultEntries, range, List.map_append, List.map_cons, results, List.map_append,
    List.map_cons]
  rfl

theorem length_logEntries (verification : Verification) (clock : Clock) :
    (verification.logEntries clock).length = verification.results.length + 2 := by
  simp [logEntries, resultEntries]

section Conforming

variable {clock : Clock} {number : Nat} {entry : Entry}

theorem separators_logId (clock : Clock) (number : Nat) :
    separators (logId clock number).toList = 2 := by
  refine separators_traceId (by decide) ?_ number
  have repr : (toString clock.started.seconds).toList = Nat.toDigits 10 clock.started.seconds := by
    rw [Nat.toString_eq_repr, Nat.repr_eq_ofList_toDigits, String.toList_ofList]
  rw [runName, String.toList_append, List.mem_append, not_or, repr]
  exact ⟨by decide, plain_toDigits clock.started.seconds⟩

theorem separators_logEntries (verification : Verification) (clock : Clock) :
    ∀ entry ∈ verification.logEntries clock, separators entry.traceId.toList = 2 := by
  intro entry member
  have named : entry.traceId ∈ (verification.logEntries clock).map (·.traceId) :=
    List.mem_map_of_mem member
  rw [map_traceId_logEntries] at named
  obtain ⟨number, -, same⟩ := List.mem_map.mp named
  rw [← same]
  exact separators_logId clock number

theorem conforms_logEntries {verification : Verification}
    (modes : ∀ result ∈ verification.results,
      result.mode = Mode.compat.name ∨ result.mode = Mode.strict.name) (clock : Clock) :
    ∀ entry ∈ verification.logEntries clock, entry.Conforms := by
  intro entry member
  have id := separators_logEntries verification clock entry member
  simp only [logEntries, resultEntries, List.cons_append, List.mem_cons, List.mem_append, List.mem_map,
    List.not_mem_nil, or_false] at member
  rcases member with rfl | ⟨⟨result, place⟩, inside, rfl⟩ | rfl
  · exact ⟨id, nofun, nofun⟩
  · have listed : result ∈ verification.results := List.fst_mem_of_mem_zipIdx inside
    refine ⟨id, ?_, fun _ => .inl rfl⟩
    rintro _ ⟨⟩
    exact modes result listed
  · exact ⟨id, nofun, fun _ => .inr rfl⟩

theorem told_object {members : List (String × Json)}
    (exact : ∀ member ∈ members, member.2.Exact) (shallow : ∀ member ∈ members, member.2.depth ≤ 1) :
    Entry.Told (.object members) := by
  have depth : (Json.object members).depth ≤ 1 + 1 := Json.depth_object_le.mpr shallow
  refine ⟨nofun, .object exact, ?_⟩
  simp only [Json.nestingLimit]
  omega

theorem told_describeStart (verification : Verification) :
    ∀ details ∈ (verification.describeStart entry).details, Entry.Told details := by
  rintro _ ⟨⟩
  refine told_object ?_ ?_
  · simp only [List.forall_mem_cons, List.not_mem_nil, false_imp_iff, implies_true, and_true]
    refine ⟨.array ?_, .array ?_⟩
    · simp only [List.forall_mem_map]
      exact fun fixture _ => .string fixture.path
    · simp only [List.forall_mem_map]
      exact fun name _ => .string name
  · simp only [List.forall_mem_cons, List.not_mem_nil, false_imp_iff, implies_true, and_true]
    refine ⟨Json.depth_array_le.mpr ?_, Json.depth_array_le.mpr ?_⟩
    · simp [Json.depth]
    · simp [Json.depth]

theorem told_describeResult (result : VerificationResult) :
    ∀ details ∈ (describeResult result entry).details, Entry.Told details := by
  rintro _ ⟨⟩
  refine told_object ?_ ?_
  · intro member inside
    rcases List.mem_append.mp inside with campaign | noted
    · rw [List.mem_singleton.mp campaign]
      exact .string result.campaign
    · obtain ⟨diff, -, rfl⟩ := Option.map_eq_some_iff.mp (Option.mem_toList.mp noted)
      exact .string diff
  · cases result.diff <;> simp [Json.depth]

theorem told_describeSummary {results : List VerificationResult} (few : results.length ≤ maxSize) :
    ∀ details ∈ (describeSummary (.ofResults results) clock entry).details, Entry.Told details := by
  rintro _ ⟨⟩
  have counted : results.countP (·.passed) ≤ results.length := List.countP_le_length
  refine told_object ?_ ?_
  · simp only [List.forall_mem_cons, List.not_mem_nil, false_imp_iff, implies_true, and_true,
      Summary.ofResults]
    exact ⟨.integer (by omega) (by omega), .integer (by omega) (by omega),
      .integer (by omega) (by omega)⟩
  · simp [Json.depth]

theorem told_logEntries {verification : Verification}
    (few : verification.results.length ≤ maxSize) (clock : Clock) :
    ∀ entry ∈ verification.logEntries clock, ∀ details ∈ entry.details, Entry.Told details := by
  intro entry member
  simp only [logEntries, resultEntries, List.cons_append, List.mem_cons, List.mem_append, List.mem_map,
    List.not_mem_nil, or_false] at member
  rcases member with rfl | ⟨⟨result, place⟩, inside, rfl⟩ | rfl
  · exact told_describeStart verification
  · exact told_describeResult result
  · exact told_describeSummary few

end Conforming

end Verification

end BoundedPrintf.CommandLine
