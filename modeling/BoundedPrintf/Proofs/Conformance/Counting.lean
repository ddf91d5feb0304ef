import BoundedPrintf.Proofs.Conformance.Pinning
import BoundedPrintf.Proofs.Fixture.Targets
import BoundedPrintf.Proofs.Rendering.Recipients

/-! What the counts of a run say of its `%n` directives. Labels, targets and bound arguments are three
lists, and only the places of the count arguments tie them together. Where labels repeat, the map of
counts speaks of the last argument with the label. -/
namespace BoundedPrintf.Conformance

open FixtureArgument (labels targetAt)

section Runs

variable [Build]

/-- How a run counts, by the arguments of its case and its course. -/
structure CountsByLabel (case : FixtureCase) (mode : Mode) (addresses : FixtureArgument.Addresses)
    (run : CaseRun) (visits : List Visit) : Prop where
  course : 0 < (guarded case).size → VisitsWhereRoom (guarded case) (Text.utf8 case.template)
    (FixtureArgument.bind addresses case.args) mode visits
  refused : (guarded case).size = 0 → visits = []
  /-- A count argument is bound to a target where it stands. -/
  bound : ∀ (place : Nat) (label : String), case.args[place]? = some (.count label) →
    (FixtureArgument.bind addresses case.args)[place]? =
      some (.count (targetAt case.args place) (addresses place))
  /-- No two share one. -/
  own : ∀ (place other : Nat) (label name : String), case.args[place]? = some (.count label) →
    case.args[other]? = some (.count name) →
      targetAt case.args place = targetAt case.args other → place = other
  /-- No other argument is bound to a target. -/
  only : ∀ (place target : Nat) (address : UInt64),
    (FixtureArgument.bind addresses case.args)[place]? = some (.count target address) →
      ∃ label, case.args[place]? = some (.count label) ∧ target = targetAt case.args place
  keys : ∀ label, label ∈ run.counts.entries.map Prod.fst ↔ .count label ∈ case.args
  /-- A label has the value of its last argument. -/
  last : ∀ (place : Nat) (label : String), case.args[place]? = some (.count label) →
    (∀ later, place < later → case.args[later]? ≠ some (.count label)) →
      run.counts.get? label = (finalCounts case mode addresses)[targetAt case.args place]?
  missed : ∀ (place : Nat) (label : String), case.args[place]? = some (.count label) →
    (∀ visit, ¬ Visit.Receives visits place visit) →
      (finalCounts case mode addresses)[targetAt case.args place]? = some untouchedCount
  /-- An argument that a `%n` directive receives counts the bytes in front of the percent sign. -/
  received : ∀ (place : Nat) (label : String) (visit : Visit),
    case.args[place]? = some (.count label) → Visit.Receives visits place visit →
      let front := (Text.utf8 case.template).take visit.offset
      let output := emitted (guarded case) front (FixtureArgument.bind addresses case.args) mode
      (Text.utf8 case.template)[visit.offset]? = some (octet '%') ∧
        (render (guarded case) front (FixtureArgument.bind addresses case.args) mode).result =
          .ok output.length ∧
        output <+: rendered case mode addresses ∧
        (finalCounts case mode addresses)[targetAt case.args place]? = some ↑(min output.length maxCount)

variable {case : FixtureCase} {mode : Mode} {addresses : FixtureArgument.Addresses} {run : CaseRun}
  {place : Nat} {label : String} {visit : Visit}

theorem Shows.mem_keys_iff (shows : Shows case mode addresses run) :
    label ∈ run.counts.entries.map Prod.fst ↔ .count label ∈ case.args := by
  have counted : (labels case.args).length ≤ (finalCounts case mode addresses).length :=
    (length_finalCounts case mode addresses).ge
  rw [shows.counts, ← FixtureArgument.mem_labels, ← List.map_fst_zip counted]
  exact Labelled.mem_labels_ofList

theorem Shows.get?_of_last (shows : Shows case mode addresses run)
    (here : case.args[place]? = some (.count label))
    (last : ∀ later, place < later → case.args[later]? ≠ some (.count label)) :
    run.counts.get? label = (finalCounts case mode addresses)[targetAt case.args place]? := by
  have key : label ∈ run.counts.entries.map Prod.fst :=
    shows.mem_keys_iff.mpr (List.mem_of_getElem? here)
  obtain ⟨entry, member, rfl⟩ := List.mem_map.mp key
  have found := Labelled.get?_of_mem member
  obtain ⟨i, named, counted, latest⟩ := shows.lastCount found
  obtain ⟨other, there, rfl⟩ := FixtureArgument.exists_place named
  rcases Nat.lt_trichotomy place other with front | rfl | behind
  · exact absurd there (last other front)
  · rw [found, counted]
  · have later := FixtureArgument.targetAt_lt there behind
    exact absurd (FixtureArgument.getElem?_labels here) (latest _ later)

omit [Build] in
theorem bound_alone (here : case.args[place]? = some (.count label)) (other : Nat) (address : UInt64)
    (bound : (FixtureArgument.bind addresses case.args)[other]? =
      some (.count (targetAt case.args place) address)) : other = place := by
  obtain ⟨name, there, same⟩ := FixtureArgument.exists_label_of_bind bound
  exact FixtureArgument.place_of_targetAt there here same.symm

theorem finalCounts_of_missed (here : case.args[place]? = some (.count label))
    (missed : ∀ visit, ¬ Visit.Receives (course case mode addresses) place visit) :
    (finalCounts case mode addresses)[targetAt case.args place]? = some untouchedCount := by
  have inside := FixtureArgument.targetAt_lt_length here
  have before : (List.replicate (labels case.args).length untouchedCount)[targetAt case.args place]? =
      some untouchedCount :=
    List.getElem?_replicate_of_lt inside
  rw [← before]
  rcases Nat.eq_zero_or_pos (guarded case).size with empty | nonempty
  · rw [finalCounts, outcomeOf_of_empty empty]
    rfl
  · rw [course_of_room nonempty] at missed
    exact counts_of_missed (bound_alone here) missed

theorem finalCounts_of_received (here : case.args[place]? = some (.count label))
    (received : Visit.Receives (course case mode addresses) place visit) :
    let front := (Text.utf8 case.template).take visit.offset
    let output := emitted (guarded case) front (FixtureArgument.bind addresses case.args) mode
    (Text.utf8 case.template)[visit.offset]? = some (octet '%') ∧
      (render (guarded case) front (FixtureArgument.bind addresses case.args) mode).result =
        .ok output.length ∧
      output <+: rendered case mode addresses ∧
      (finalCounts case mode addresses)[targetAt case.args place]? = some ↑(min output.length maxCount) := by
  rcases Nat.eq_zero_or_pos (guarded case).size with empty | nonempty
  · rw [course_of_empty empty] at received
    cases received.mem
  · rw [course_of_room nonempty] at received
    have given := received.target? (FixtureArgument.getElem?_bind_count here)
    have inside := FixtureArgument.targetAt_lt_length here
    obtain ⟨answered, -, -⟩ := render_before_visit received.mem
    refine ⟨percent_of_target received.mem given, answered, emitted_before_visit received.mem, ?_⟩
    refine counts_of_received (bound_alone here) (FixtureArgument.getElem?_bind_count here) received ?_
    rwa [List.length_replicate]

/-- The map of counts has the labels of the count arguments, and under each of them what the last
argument with the label received: the number of bytes in front of its directive, or nothing. A case
has no run if no buffer has its capacity or its call crashes. -/
theorem counts_follow_arguments (case : FixtureCase) (mode : Mode)
    (addresses : FixtureArgument.Addresses) :
    (execute case mode addresses = none ↔ Stops case mode addresses) ∧
    ∀ run, execute case mode addresses = some run →
      CountsByLabel case mode addresses run (course case mode addresses) := by
  refine ⟨execute_eq_none_iff, ?_⟩
  intro run ran
  have shows := shows_of_execute ran
  constructor
  case course =>
    intro nonempty
    rw [course_of_room nonempty]
    exact visitsOfCall_whereRoom nonempty _ _ mode
  case refused => exact course_of_empty
  case bound =>
    intro place label here
    exact FixtureArgument.getElem?_bind_count here
  case own =>
    intro place other label name here there
    exact FixtureArgument.place_of_targetAt here there
  case only =>
    intro place target address
    exact FixtureArgument.exists_label_of_bind
  case keys =>
    intro label
    exact shows.mem_keys_iff
  case last =>
    intro place label here
    exact shows.get?_of_last here
  case missed =>
    intro place label here
    exact finalCounts_of_missed here
  case received =>
    intro place label visit here
    exact finalCounts_of_received here

end Runs

/-- The last argument with the label `a` is printed as a text, which it is not. -/
def printedTarget : FixtureCase :=
  { name := "printed", clause := "s", template := "x%n%*d%n%s", capacity := 16,
    args := [.count "a", .int 3, .int 7, .count "b", .count "a"], expectedOutput := "x  7(null)",
    expectedReturn := 10, expectedCounts := .ofList [("a", -1), ("b", 4)] }

theorem printed_target_missed :
    let _ : Build := .checked
    let addresses : FixtureArgument.Addresses := fun _ => 4096
    finalCounts printedTarget .strict addresses = [1, 4, -1] ∧
      ∃ run, execute printedTarget .strict addresses = some run ∧
        run.counts.get? "a" = some (-1) := by
  intro _ addresses
  have ended : finalCounts printedTarget .strict addresses = [1, 4, -1] := by decide +kernel
  have returns : (execute printedTarget .strict addresses).isSome = true := by decide +kernel
  obtain ⟨run, ran⟩ := Option.isSome_iff_exists.mp returns
  have counts := (counts_follow_arguments printedTarget .strict addresses).2 run ran
  refine ⟨ended, run, ran, ?_⟩
  rw [counts.last 4 "a" rfl, ended]
  · rfl
  · intro later behind
    have none : printedTarget.args[later]? = none := List.getElem?_eq_none behind
    rw [none]
    nofun

/-- A capacity that no buffer has. -/
def boundlessCase : FixtureCase :=
  { name := "boundless", clause := "s", template := "%n", capacity := 2 ^ 63,
    args := [.count "a"], expectedOutput := "", expectedReturn := 0, expectedCounts := .ofList [] }

/-- The case has a label, but no run has counts for it. -/
theorem uncounted_without_buffer :
    let _ : Build := .checked
    .count "a" ∈ boundlessCase.args ∧
      ¬ ∃ run, execute boundlessCase .compat (fun _ => 4096) = some run := by
  intro _
  have large : maxCapacity < boundlessCase.capacity.toNat := by decide +kernel
  refine ⟨List.mem_cons_self, ?_⟩
  rintro ⟨run, ran⟩
  cases (execute_of_large large).symm.trans ran

end BoundedPrintf.Conformance
