import BoundedPrintf.Conformance.Verification
import BoundedPrintf.Proofs.Conformance.Guarding
import BoundedPrintf.Proofs.Labelled.Lookup
import BoundedPrintf.Proofs.Rendering.Counts
import BoundedPrintf.Proofs.Text.Utf8

/-! What is known of a case that passed. Outputs are compared as texts, so that two ill-formed parts
of an output look alike, and the counts of targets with one label are compared by the last of them.
Everything else is pinned. -/
namespace BoundedPrintf.Conformance

section Results

variable [Build] {campaign : String} {mode : Mode} {case : FixtureCase}
  {memory : Nat → FixtureArgument.Addresses} {cases : List FixtureCase}
  {results : List VerificationResult} {place : Nat}

/-- Verifying cases in a row gives the result of each in its place. -/
theorem getElem?_verifyCases (ran : verifyCases campaign mode memory cases = some results)
    (here : cases[place]? = some case) : ∃ result, results[place]? = some result ∧
      verifyCase campaign mode (memory place) case = some result := by
  induction cases generalizing memory results place with
  | nil => cases here
  | cons first rest ih =>
      obtain ⟨result, verified, following⟩ := Option.bind_eq_some_iff.mp ran
      obtain ⟨others, ranRest, same⟩ := Option.bind_eq_some_iff.mp following
      obtain rfl := Option.some.inj same
      cases place with
      | zero =>
          obtain rfl := Option.some.inj here
          exact ⟨result, rfl, verified⟩
      | succ place =>
          have later := ih ranRest here
          exact later

end Results

section Pins

variable [Build]

/-- The values of the count targets of a case after the rendering, in the order of the arguments. -/
def finalCounts (case : FixtureCase) (mode : Mode) (addresses : FixtureArgument.Addresses) : List Int :=
  (outcomeOf case mode addresses).counts
    (List.replicate (FixtureArgument.labels case.args).length untouchedCount)

/-- The last target with this label ends with this count. -/
def LastCount (case : FixtureCase) (mode : Mode) (addresses : FixtureArgument.Addresses)
    (label : String) (count : Int) : Prop :=
  ∃ i, (FixtureArgument.labels case.args)[i]? = some label ∧
    (finalCounts case mode addresses)[i]? = some count ∧
    ∀ j : Nat, i < j → (FixtureArgument.labels case.args)[j]? ≠ some label

/-- What a call answered that is compared with the expected output by its length too. -/
structure Answered (case : FixtureCase) (mode : Mode) (addresses : FixtureArgument.Addresses)
    (written : Nat) : Prop where
  front : (outcomeOf case mode addresses).buffer.toList.take written = rendered case mode addresses
  length : (rendered case mode addresses).length = written
  same : case.expectedOutput.utf8ByteSize = written
  /-- A replacement character has three bytes, and so has what it stands for. -/
  replaced : ∀ part ∈ Text.illFormed (rendered case mode addresses), part.length = 3

structure Pinned (case : FixtureCase) (mode : Mode) (addresses : FixtureArgument.Addresses) : Prop where
  text : Text.decodeLossy (rendered case mode addresses) = case.expectedOutput
  bytes : (Text.decode? (rendered case mode addresses)).isSome ∨
    '\ufffd' ∉ case.expectedOutput.toList →
      rendered case mode addresses = Text.utf8 case.expectedOutput
  answered : ∀ written, (outcomeOf case mode addresses).result = .ok written →
    Answered case mode addresses written
  returned : (outcomeOf case mode addresses).returned? = some case.expectedReturn.toInt
  counts : ∀ entry ∈ case.expectedCounts.entries,
    LastCount case mode addresses entry.1 entry.2.toInt

variable {case : FixtureCase} {mode : Mode} {addresses : FixtureArgument.Addresses} {run : CaseRun}
  {campaign : String}

section Counts

variable {label : String} {count : Int}

theorem length_finalCounts (case : FixtureCase) (mode : Mode)
    (addresses : FixtureArgument.Addresses) :
    (finalCounts case mode addresses).length = (FixtureArgument.labels case.args).length := by
  rw [finalCounts, Outcome.counts, Outcome.length_foldl_set, List.length_replicate]

theorem Shows.get?_counts (shows : Shows case mode addresses run) : run.counts.get? label =
    (((FixtureArgument.labels case.args).zip (finalCounts case mode addresses)).findRev?
      (·.1 = label)).map Prod.snd := by
  rw [shows.counts]
  exact Labelled.get?_ofList _ label

theorem Shows.lastCount (shows : Shows case mode addresses run)
    (found : run.counts.get? label = some count) : LastCount case mode addresses label count := by
  rw [shows.get?_counts] at found
  obtain ⟨entry, last, rfl⟩ := Option.map_eq_some_iff.mp found
  obtain ⟨rfl, before, behind, split, none⟩ := Labelled.findRev?_eq_some_iff.mp last
  have here : ((FixtureArgument.labels case.args).zip
      (finalCounts case mode addresses))[before.length]? = some entry := by
    rw [split, List.getElem?_append_right le_rfl, Nat.sub_self, List.getElem?_cons_zero]
  obtain ⟨named, counted⟩ := List.getElem?_zip_eq_some.mp here
  refine ⟨before.length, named, counted, ?_⟩
  intro j later again
  have inside : j < (finalCounts case mode addresses).length := by
    rw [length_finalCounts]
    exact (List.getElem?_eq_some_iff.mp again).1
  -- An entry of the same label behind the last one would stand among the later entries.
  have there : ((FixtureArgument.labels case.args).zip (finalCounts case mode addresses))[j]? =
      some (entry.1, (finalCounts case mode addresses)[j]) :=
    List.getElem?_zip_eq_some.mpr ⟨again, List.getElem?_eq_getElem inside⟩
  rw [split, List.getElem?_append_right later.le] at there
  obtain ⟨offset, after⟩ := Nat.exists_eq_add_of_lt later
  have distance : j - before.length = offset + 1 := by omega
  rw [distance, List.getElem?_cons_succ] at there
  exact none _ (List.mem_of_getElem? there) rfl

end Counts

/-- A case without faults agrees with its run in all that is compared. -/
structure Agrees (case : FixtureCase) (run : CaseRun) : Prop where
  output : run.output = case.expectedOutput
  returned : run.returned = case.expectedReturn.toInt
  counts : ∀ entry ∈ case.expectedCounts.entries, run.counts.get? entry.1 = some entry.2.toInt
  violations : run.violations = []

omit [Build] in
theorem faults_eq_nil_iff {run : CaseRun} : faults case run = [] ↔ Agrees case run := by
  simp only [faults, List.append_eq_nil_iff, List.filterMap_eq_nil_iff, List.map_eq_nil_iff,
    ite_eq_left_iff, List.cons_ne_nil, reduceCtorEq, imp_false, not_not]
  constructor
  · rintro ⟨⟨⟨output, returned⟩, counts⟩, violations⟩
    exact ⟨output, returned, counts, violations⟩
  · rintro ⟨output, returned, counts, violations⟩
    exact ⟨⟨⟨output, returned⟩, counts⟩, violations⟩

theorem verifyCase_of_run (ran : execute case mode addresses = some run) :
    verifyCase campaign mode addresses case = some (resultOf campaign mode case run) := by
  rw [verifyCase, ran, Option.map_some]

omit [Build] in
theorem passed_iff : (resultOf campaign mode case run).passed = true ↔ Agrees case run := by
  rw [← faults_eq_nil_iff]
  exact List.isEmpty_iff

omit [Build] in
theorem length_of_valid (valid : case.fault? = none) (positive : 0 ≤ case.expectedReturn.toInt) :
    case.expectedReturn.toInt = case.expectedOutput.utf8ByteSize := by
  unfold FixtureCase.fault? at valid
  split at valid
  · cases valid
  · simp only at valid
    split at valid
    · cases valid
    · split at valid
      · cases valid
      · next agree =>
          by_contra differ
          exact agree ⟨positive, differ⟩

/-- A call that answered has an output as long as its text, since what is read is never shorter than
its bytes. -/
theorem answered_of_agreement (valid : case.fault? = none)
    (text : Text.decodeLossy (rendered case mode addresses) = case.expectedOutput)
    (returned : (outcomeOf case mode addresses).returned? = some case.expectedReturn.toInt)
    {written : Nat} (answer : (outcomeOf case mode addresses).result = .ok written) :
    Answered case mode addresses written := by
  have nonempty := nonempty_of_answer answer
  have reached : (rendered case mode addresses).length = written := render_answers nonempty answer
  have capped : case.expectedReturn.toInt = min (written : Int) maxCount := by
    rw [Outcome.returned?, answer] at returned
    exact (Option.some.inj returned).symm
  have expected := length_of_valid valid (by omega)
  have longer := Text.length_le_length_utf8_decodeLossy (rendered case mode addresses)
  rw [text, Text.length_utf8] at longer
  have same : case.expectedOutput.utf8ByteSize = written := by omega
  refine ⟨?_, reached, same, fun part member => Text.length_of_mem_illFormed ?_ member⟩
  · rw [outcomeOf, take_buffer_render nonempty reached.ge]
    exact List.take_of_length_le reached.le
  · rw [text, Text.length_utf8, same, reached]

theorem pinned_of_agreement (valid : case.fault? = none) (shows : Shows case mode addresses run)
    (agrees : Agrees case run) : Pinned case mode addresses := by
  have text : Text.decodeLossy (rendered case mode addresses) = case.expectedOutput := by
    rcases shows.cases with ⟨-, -, shown⟩ | ⟨-, alarm, -⟩
    · exact shown.symm.trans agrees.output
    · rw [agrees.violations] at alarm
      cases alarm
  have returned : (outcomeOf case mode addresses).returned? = some case.expectedReturn.toInt := by
    rw [shows.returned, agrees.returned]
  refine ⟨text, ?_, ?_, returned, ?_⟩
  · intro plain
    have wellFormed : Text.illFormed (rendered case mode addresses) = [] := by
      rcases plain with read | plain
      · obtain ⟨_, read⟩ := Option.isSome_iff_exists.mp read
        exact Text.wellFormed_of_decode? read
      · exact Text.wellFormed_of_no_replacement (text ▸ plain)
    rw [← text, Text.utf8_decodeLossy_of_wellFormed wellFormed]
  · intro written answer
    exact answered_of_agreement valid text returned answer
  · intro entry member
    exact shows.lastCount (agrees.counts entry member)

/-- In a run over a set that comes to its end, each case has a result, and one that passes has
rendered what was expected of it, as far as texts and labels tell. -/
theorem passing_pins {set : FixtureSet} {memory : Nat → FixtureArgument.Addresses}
    {results : List VerificationResult} (ran : verifySet campaign mode memory set = some results)
    {place : Nat} (runs : (set.cases.filter (runsIn mode))[place]? = some case)
    (valid : case.fault? = none) : ∃ result, results[place]? = some result ∧
      (result.passed = true → Pinned case mode (memory place)) := by
  obtain ⟨result, here, verified⟩ := getElem?_verifyCases ran runs
  refine ⟨result, here, ?_⟩
  intro passed
  obtain ⟨run, executed, rfl⟩ := Option.map_eq_some_iff.mp verified
  exact pinned_of_agreement valid (shows_of_execute executed) (passed_iff.mp passed)

end Pins

/-- The first three bytes of a character of four and one replacement character look alike. -/
def cutCharacter : FixtureCase :=
  { name := "cut", clause := "s", template := "😀", capacity := 4, expectedOutput := "\ufffd",
    expectedReturn := 3, expectedCounts := .ofList [] }

/-- Two targets share a label, and only the first receives a count. -/
def sharedLabel : FixtureCase :=
  { name := "shared", clause := "s", template := "%n", capacity := 4,
    args := [.count "a", .count "a"], expectedOutput := "", expectedReturn := 0,
    expectedCounts := .ofList [("a", -1)] }

theorem unpinned_pass :
    let _ : Build := .checked
    let addresses : FixtureArgument.Addresses := fun _ => 4096
    (cutCharacter.fault? = none ∧ runsIn .compat cutCharacter = true ∧
      (verifyCase "pinning" .compat addresses cutCharacter).map (·.passed) = some true ∧
      (outcomeOf cutCharacter .compat addresses).returned? = some 3 ∧
      rendered cutCharacter .compat addresses = [0xF0, 0x9F, 0x98] ∧
      rendered cutCharacter .compat addresses ≠ Text.utf8 cutCharacter.expectedOutput) ∧
    (sharedLabel.fault? = none ∧ runsIn .compat sharedLabel = true ∧
      (verifyCase "pinning" .compat addresses sharedLabel).map (·.passed) = some true ∧
      finalCounts sharedLabel .compat addresses = [0, -1]) := by
  decide +kernel

/-- A case with one text, one number and one target, in a set of its own. -/
def pinnedCase : FixtureCase :=
  { name := "pinned", clause := "s", template := "%s=%03d%n", capacity := 16,
    args := [.text "π", .int 7, .count "end"], expectedOutput := "π=007", expectedReturn := 6,
    expectedCounts := .ofList [("end", 6)] }

theorem count_behind_text_pinned :
    let _ : Build := .checked
    let memory : Nat → FixtureArgument.Addresses := fun _ _ => 4096
    ∃ result, verifySet "pinning" .strict memory ⟨"1", "f", "t", [pinnedCase]⟩ = some [result] ∧
      result.passed = true ∧ Pinned pinnedCase .strict (memory 0) := by
  intro _ memory
  have passes : (verifyCase "pinning" .strict (memory 0) pinnedCase).map (·.passed) = some true := by
    decide +kernel
  obtain ⟨result, verified, passed⟩ := Option.map_eq_some_iff.mp passes
  have runs : [pinnedCase].filter (runsIn .strict) = [pinnedCase] :=
    List.filter_eq_self.mpr (List.forall_mem_singleton.mpr (by decide +kernel))
  have ran : verifySet "pinning" .strict memory ⟨"1", "f", "t", [pinnedCase]⟩ = some [result] := by
    rw [verifySet, runs, verifyCases, verified]
    rfl
  obtain ⟨found, here, pinned⟩ := @passing_pins _ pinnedCase .strict "pinning" _ memory _ ran 0
    (congrArg (·[0]?) runs) (by decide +kernel)
  obtain rfl := Option.some.inj here
  exact ⟨result, ran, passed, pinned passed⟩

end BoundedPrintf.Conformance
