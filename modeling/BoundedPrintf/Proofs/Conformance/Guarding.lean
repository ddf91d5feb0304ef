import Mathlib
import BoundedPrintf.Conformance.Execution
import BoundedPrintf.Proofs.Rendering.Crashing

/-! What the guard around a rendering shows. Where a directive was rejected, the end of the output is
not answered but looked for: a NUL in the output is taken for the terminator, and the terminator
behind it for a stray write. Nothing else raises an alarm. -/
namespace BoundedPrintf.Conformance

section Buffers

variable {output : Bytes}

theorem split_at_nul (nul : 0 ∈ output) : ∃ behind, output = beforeNul output ++ 0 :: behind := by
  have parts := output.takeWhile_append_dropWhile (p := (· != 0))
  cases rest : output.dropWhile (· != 0) with
  | nil =>
      have none := List.dropWhile_eq_nil_iff.mp rest 0 nul
      simp at none
  | cons byte behind =>
      have stopped := List.head_dropWhile_not (· != 0) (l := output) (by simp [rest])
      simp only [rest, List.head_cons, bne_eq_false_iff_eq] at stopped
      refine ⟨behind, ?_⟩
      rw [rest, stopped] at parts
      exact parts.symm

theorem findIdx?_terminator (output rest : Bytes) :
    (output ++ 0 :: rest).findIdx? (· = 0) = some (beforeNul output).length := by
  induction output with
  | nil => simp [beforeNul, List.findIdx?_cons]
  | cons byte output ih =>
      by_cases nul : byte = 0
      · simp [nul, beforeNul, List.findIdx?_cons]
      · have later : beforeNul (byte :: output) = byte :: beforeNul output := by
          simp [beforeNul, nul]
        simp [later, List.findIdx?_cons, nul, ih]

theorem violations_at_terminator (output : Bytes) (count : Nat) :
    violations (output ++ 0 :: List.replicate count guardByte) (some output.length) = [] := by
  simp [violations, List.drop_length_add_append]

theorem violations_before_terminator (front behind : Bytes) (count : Nat) :
    violations ((front ++ 0 :: behind) ++ 0 :: List.replicate count guardByte) (some front.length) =
      [.wroteAfterTerminator] := by
  have stray : guardByte ≠ 0 := by decide
  simp [violations, List.drop_append, stray.symm]

end Buffers

/-- The buffer of a case before the rendering. -/
def guarded (case : FixtureCase) : Array UInt8 := Array.replicate case.capacity.toNat guardByte

section Runs

variable [Build]

/-- The call that a case makes. -/
def outcomeOf (case : FixtureCase) (mode : Mode) (addresses : FixtureArgument.Addresses) : Outcome :=
  render (guarded case) (Text.utf8 case.template) (FixtureArgument.bind addresses case.args) mode

/-- The bytes that a case renders. -/
def rendered (case : FixtureCase) (mode : Mode) (addresses : FixtureArgument.Addresses) : Bytes :=
  emitted (guarded case) (Text.utf8 case.template) (FixtureArgument.bind addresses case.args) mode

/-- The course of the call that a case makes. A buffer without room is refused before anything is
processed. -/
def course (case : FixtureCase) (mode : Mode) (addresses : FixtureArgument.Addresses) : List Visit :=
  if nonempty : 0 < (guarded case).size then
    visitsOfCall (guarded case) nonempty (Text.utf8 case.template)
      (FixtureArgument.bind addresses case.args) mode
  else []

def Rejects (case : FixtureCase) (mode : Mode) (addresses : FixtureArgument.Addresses) : Prop :=
  ∃ offset conversion,
    (outcomeOf case mode addresses).result = .error (.unsupportedDirective offset conversion)

/-- A rejected case whose output seems to end before it does. -/
def EndsEarly (case : FixtureCase) (mode : Mode) (addresses : FixtureArgument.Addresses) : Prop :=
  Rejects case mode addresses ∧ 0 ∈ rendered case mode addresses

/-- The program stops at a case: it has no buffer of this capacity, or its call crashes. -/
def Stops (case : FixtureCase) (mode : Mode) (addresses : FixtureArgument.Addresses) : Prop :=
  maxCapacity < case.capacity.toNat ∨
    Build.checksSums = true ∧ ∃ visit ∈ course case mode addresses, visit.Overflows

/-- A run shows what the call of its case left behind. -/
structure Shows (case : FixtureCase) (mode : Mode) (addresses : FixtureArgument.Addresses)
    (run : CaseRun) : Prop where
  returned : (outcomeOf case mode addresses).returned? = some run.returned
  output : run.output = (outputEnd (outcomeOf case mode addresses)).elim "" fun position =>
    Text.decodeLossy ((outcomeOf case mode addresses).buffer.toList.take position)
  counts : run.counts = .ofList (countEntries case.args (outcomeOf case mode addresses))
  error : run.error = reportedError (outcomeOf case mode addresses)
  violations : run.violations = Conformance.violations
    (outcomeOf case mode addresses).buffer.toList (outputEnd (outcomeOf case mode addresses))

variable {case : FixtureCase} {mode : Mode} {addresses : FixtureArgument.Addresses} {run : CaseRun}

theorem execute_of_small (small : case.capacity.toNat ≤ maxCapacity) :
    execute case mode addresses = observe case.args (outcomeOf case mode addresses) := by
  rw [execute, freshBuffer?, if_pos small]
  rfl

theorem execute_of_large (large : maxCapacity < case.capacity.toNat) :
    execute case mode addresses = none := by
  rw [execute, freshBuffer?, if_neg (Nat.not_le.mpr large)]
  rfl

theorem shows_of_execute (ran : execute case mode addresses = some run) :
    Shows case mode addresses run := by
  rcases Nat.lt_or_ge maxCapacity case.capacity.toNat with large | small
  · cases (execute_of_large large).symm.trans ran
  · rw [execute_of_small small, observe] at ran
    obtain ⟨returned, answer, rfl⟩ := Option.map_eq_some_iff.mp ran
    exact ⟨answer, rfl, rfl, rfl, rfl⟩

theorem course_of_room (nonempty : 0 < (guarded case).size) : course case mode addresses =
    visitsOfCall (guarded case) nonempty (Text.utf8 case.template)
      (FixtureArgument.bind addresses case.args) mode :=
  dif_pos nonempty

theorem course_of_empty (empty : (guarded case).size = 0) : course case mode addresses = [] :=
  dif_neg (Nat.not_lt.mpr empty.le)

theorem outcomeOf_of_empty (empty : (guarded case).size = 0) : outcomeOf case mode addresses =
    { result := .error .bufferTooSmall, buffer := #[], consumed := 0, stores := [] } := by
  have none : guarded case = #[] := Array.eq_empty_of_size_eq_zero empty
  simp [outcomeOf, render, none, Sink.ofBuffer?]

theorem outcomeOf_crashes_iff : (outcomeOf case mode addresses).result = .crash ↔
    Build.checksSums = true ∧ ∃ visit ∈ course case mode addresses, visit.Overflows := by
  rcases Nat.eq_zero_or_pos (guarded case).size with empty | nonempty
  · rw [outcomeOf_of_empty empty, course_of_empty empty]
    simp
  · rw [course_of_room nonempty]
    exact render_crash_iff_overflows nonempty _ _ mode

theorem execute_eq_none_iff : execute case mode addresses = none ↔ Stops case mode addresses := by
  rw [Stops]
  rcases Nat.lt_or_ge maxCapacity case.capacity.toNat with large | small
  · exact iff_of_true (execute_of_large large) (.inl large)
  · rw [execute_of_small small, observe, Option.map_eq_none_iff, Outcome.returned?_eq_none_iff,
      outcomeOf_crashes_iff, or_iff_right (Nat.not_lt.mpr small)]

theorem error_isSome_iff :
    (reportedError (outcomeOf case mode addresses)).isSome ↔ Rejects case mode addresses := by
  rw [reportedError, Rejects]
  cases (outcomeOf case mode addresses).result with
  | ok written => simp
  | error error => cases error <;> simp
  | crash => simp

instance : Decidable (Rejects case mode addresses) := decidable_of_iff _ error_isSome_iff

instance : Decidable (EndsEarly case mode addresses) := inferInstanceAs (Decidable (_ ∧ _))

theorem toList_buffer (nonempty : 0 < (guarded case).size)
    (returns : (outcomeOf case mode addresses).result ≠ .crash) :
    (outcomeOf case mode addresses).buffer.toList = rendered case mode addresses ++
      0 :: List.replicate
        (case.capacity.toNat - ((rendered case mode addresses).length + 1)) guardByte := by
  have terminator : (outcomeOf case mode addresses).result.terminator = [0] :=
    Ending.terminator_of_returns returns
  rw [outcomeOf] at terminator ⊢
  rw [toList_buffer_render nonempty, terminator, rendered, guarded, Array.toList_replicate,
    List.drop_replicate, List.append_assoc]
  rfl

theorem nonempty_of_answer {written : Nat}
    (answer : (outcomeOf case mode addresses).result = .ok written) : 0 < (guarded case).size := by
  refine Nat.pos_of_ne_zero fun empty => ?_
  rw [outcomeOf_of_empty empty] at answer
  cases answer

section Shown

variable (shows : Shows case mode addresses run)
include shows

theorem Shows.returns : (outcomeOf case mode addresses).result ≠ .crash := by
  intro crashes
  cases (Outcome.returned?_eq_none_iff.mpr crashes).symm.trans shows.returned

theorem Shows.of_end {position : Nat}
    (ends : outputEnd (outcomeOf case mode addresses) = some position) :
    run.violations =
        Conformance.violations (outcomeOf case mode addresses).buffer.toList (some position) ∧
      run.output =
        Text.decodeLossy ((outcomeOf case mode addresses).buffer.toList.take position) := by
  rw [shows.violations, shows.output, ends, Option.elim_some]
  exact ⟨rfl, rfl⟩

theorem Shows.of_empty (empty : (guarded case).size = 0) :
    run.violations = [] ∧ run.output = Text.decodeLossy (rendered case mode addresses) ∧
      ¬ Rejects case mode addresses := by
  have refused := @outcomeOf_of_empty _ case mode addresses empty
  have nothing : rendered case mode addresses = [] := by simp [rendered, emitted, empty]
  refine ⟨?_, ?_, ?_⟩
  · rw [shows.violations, refused]
    rfl
  · rw [shows.output, refused, nothing]
    decide +kernel
  · rintro ⟨offset, conversion, failed⟩
    rw [refused] at failed
    cases failed

theorem Shows.of_answer (nonempty : 0 < (guarded case).size) {written : Nat}
    (answered : (outcomeOf case mode addresses).result = .ok written) :
    run.violations = [] ∧ run.output = Text.decodeLossy (rendered case mode addresses) ∧
      ¬ Rejects case mode addresses := by
  have reached : (rendered case mode addresses).length = written := render_answers nonempty answered
  have ends : outputEnd (outcomeOf case mode addresses) =
      some (rendered case mode addresses).length := by
    rw [outputEnd, answered, reached]
  have buffer := toList_buffer nonempty shows.returns
  obtain ⟨alarm, output⟩ := shows.of_end ends
  refine ⟨?_, ?_, ?_⟩
  · rw [alarm, buffer, violations_at_terminator]
  · rw [output, buffer, List.take_left]
  · rintro ⟨offset, conversion, failed⟩
    rw [answered] at failed
    cases failed

theorem Shows.of_rejection (nonempty : 0 < (guarded case).size)
    (rejected : Rejects case mode addresses) :
    run.violations =
        (if 0 ∈ rendered case mode addresses then [.wroteAfterTerminator] else []) ∧
      run.output = Text.decodeLossy (beforeNul (rendered case mode addresses)) := by
  obtain ⟨offset, conversion, failed⟩ := rejected
  have buffer := toList_buffer nonempty shows.returns
  have ends : outputEnd (outcomeOf case mode addresses) =
      some (beforeNul (rendered case mode addresses)).length := by
    rw [outputEnd, failed]
    simp only [buffer, findIdx?_terminator]
  obtain ⟨alarm, output⟩ := shows.of_end ends
  rw [alarm, output, buffer]
  by_cases nul : 0 ∈ rendered case mode addresses
  · obtain ⟨behind, split⟩ := split_at_nul nul
    generalize beforeNul (rendered case mode addresses) = front at split ⊢
    rw [if_pos nul, split, violations_before_terminator, List.append_assoc, List.take_left]
    exact ⟨rfl, rfl⟩
  · have whole : beforeNul (rendered case mode addresses) = rendered case mode addresses :=
      beforeNul_of_no_nul fun byte member same => nul (same ▸ member)
    rw [if_neg nul, whole, violations_at_terminator, List.take_left]
    exact ⟨rfl, rfl⟩

/-- Either the whole output is found and the guard is silent, or the output seems to end at a NUL. -/
theorem Shows.cases :
    (¬ EndsEarly case mode addresses ∧ run.violations = [] ∧
      run.output = Text.decodeLossy (rendered case mode addresses)) ∨
    (EndsEarly case mode addresses ∧ run.violations = [.wroteAfterTerminator] ∧
      run.output = Text.decodeLossy (beforeNul (rendered case mode addresses))) := by
  rcases Nat.eq_zero_or_pos (guarded case).size with empty | nonempty
  · obtain ⟨silent, output, accepted⟩ := shows.of_empty empty
    exact .inl ⟨fun early => accepted early.1, silent, output⟩
  · cases answer : (outcomeOf case mode addresses).result with
    | ok written =>
        obtain ⟨silent, output, accepted⟩ := shows.of_answer nonempty answer
        exact .inl ⟨fun early => accepted early.1, silent, output⟩
    | error error =>
        obtain ⟨-, -, offset, conversion, rfl⟩ := render_fails nonempty answer
        have rejected : Rejects case mode addresses := ⟨offset, conversion, answer⟩
        obtain ⟨alarm, output⟩ := shows.of_rejection nonempty rejected
        by_cases nul : 0 ∈ rendered case mode addresses
        · rw [if_pos nul] at alarm
          exact .inr ⟨⟨rejected, nul⟩, alarm, output⟩
        · have clean : beforeNul (rendered case mode addresses) = rendered case mode addresses :=
            beforeNul_of_no_nul fun byte member same => nul (same ▸ member)
          rw [if_neg nul] at alarm
          exact .inl ⟨fun early => nul early.2, alarm, clean ▸ output⟩
    | crash => exact absurd answer shows.returns

end Shown

/-- The guard is silent and the output is the text of what was rendered, except after a rejection
behind a NUL. Then there is an alarm, although every call keeps to its buffer, and the output lacks
what follows the NUL. A case does not return at all if no buffer has its capacity or its call
crashes. -/
theorem execute_guarded (case : FixtureCase) (mode : Mode) (addresses : FixtureArgument.Addresses) :
    (execute case mode addresses = none ↔ Stops case mode addresses) ∧
    ∀ run, execute case mode addresses = some run →
      run.violations = (if EndsEarly case mode addresses then [.wroteAfterTerminator] else []) ∧
        run.output = Text.decodeLossy (if EndsEarly case mode addresses then
          beforeNul (rendered case mode addresses) else rendered case mode addresses) := by
  refine ⟨execute_eq_none_iff, ?_⟩
  intro run ran
  rcases (shows_of_execute ran).cases with ⟨whole, silent, output⟩ | ⟨early, alarm, output⟩
  · rw [if_neg whole, if_neg whole]
    exact ⟨silent, output⟩
  · rw [if_pos early, if_pos early]
    exact ⟨alarm, output⟩

end Runs

/-- A NUL from `%c` before a directive that strict mode rejects. -/
def nulBeforeRejection : FixtureCase :=
  { name := "nul", clause := "s", template := "%c%q", capacity := 8, args := [.int 0],
    expectedOutput := "\x00", expectedReturn := -1, expectedCounts := .ofList [] }

theorem alarm_behind_nul :
    let _ : Build := .checked
    rendered nulBeforeRejection .strict (fun _ => 4096) = [0] ∧
      (execute nulBeforeRejection .strict fun _ => 4096).map
          (fun run => (run.error, run.violations, run.output)) =
        some (some (.unsupportedDirective 2 (octet 'q')), [.wroteAfterTerminator], "") ∧
      Text.decodeLossy [0] ≠ "" := by
  decide +kernel

end BoundedPrintf.Conformance
