import BoundedPrintf.Proofs.Conformance.Pinning
import BoundedPrintf.Proofs.Fixture.Targets

/-! Cases that are taken down from a run. What a run showed is expected of the next one, which
passes unless an address has changed that shows in the output. The output is taken down as text and
counted in bytes, so that the case is at fault where the two differ in length. -/
namespace BoundedPrintf.Conformance

/-- The case with what a run in this mode showed in the place of what was expected. -/
def captured (case : FixtureCase) (mode : Mode) (run : CaseRun) : FixtureCase :=
  { case with
    expectedOutput := run.output
    expectedReturn := Int32.ofInt run.returned
    expectedCounts := run.counts.map Int32.ofInt
    mode := mode.name }

section Runs

variable [Build]

/-- What was counted for an answer is the number of bytes of its text. -/
def CountsText (case : FixtureCase) (mode : Mode) (addresses : FixtureArgument.Addresses) : Prop :=
  ∀ written, (outcomeOf case mode addresses).result = .ok written →
    written ≤ maxCount ∧ ∀ part ∈ Text.illFormed (rendered case mode addresses), part.length = 3

/-- The run of a case reads no address of a text or of a count target. -/
def IgnoresAddresses (case : FixtureCase) (mode : Mode) (addresses : FixtureArgument.Addresses) : Prop :=
  ReadsNoAddress (FixtureArgument.bind addresses case.args) (course case mode addresses)

variable {case : FixtureCase} {mode : Mode} {addresses others : FixtureArgument.Addresses}
  {run : CaseRun} {campaign : String}

instance : Decidable (IgnoresAddresses case mode addresses) :=
  inferInstanceAs (Decidable (ReadsNoAddress _ _))

/-- A run that reads no address is the same wherever texts and count targets lie. -/
theorem outcomeOf_of_ignored (ignored : IgnoresAddresses case mode addresses)
    (others : FixtureArgument.Addresses) :
    outcomeOf case mode others = outcomeOf case mode addresses := by
  refine render_relocated (FixtureArgument.relocated_bind addresses others case.args) ?_
  intro nonempty
  rw [IgnoresAddresses, course_of_room nonempty] at ignored
  exact ignored

theorem execute_of_ignored (ignored : IgnoresAddresses case mode addresses)
    (others : FixtureArgument.Addresses) :
    execute case mode others = execute case mode addresses := by
  rcases Nat.lt_or_ge maxCapacity case.capacity.toNat with large | small
  · rw [execute_of_large large, execute_of_large large]
  · rw [execute_of_small small, execute_of_small small, outcomeOf_of_ignored ignored]

theorem execute_captured (case : FixtureCase) (mode : Mode) (run : CaseRun)
    (addresses : FixtureArgument.Addresses) :
    execute (captured case mode run) mode addresses = execute case mode addresses := rfl

section Numbers

omit [Build] in
theorem returned_bounds {outcome : Outcome} {returned : Int}
    (answer : outcome.returned? = some returned) : -1 ≤ returned ∧ returned ≤ maxCount := by
  rw [Outcome.returned?] at answer
  split at answer <;> cases answer <;> simp only [maxCount] <;> omega

theorem Shows.toInt_returned (shows : Shows case mode addresses run) :
    (captured case mode run).expectedReturn.toInt = run.returned := by
  have bounds := returned_bounds shows.returned
  simp only [maxCount] at bounds
  exact Int32.toInt_ofInt_of_le (by omega) (by omega)

theorem count_bounds {count : Int} (member : count ∈ finalCounts case mode addresses) :
    -1 ≤ count ∧ count ≤ maxCount := by
  rcases Outcome.mem_of_mem_foldl_set member with untouched | ⟨store, stored, rfl⟩
  · rw [List.eq_of_mem_replicate untouched, untouchedCount, maxCount]
    decide
  · have small := count_le_of_mem_stores stored
    omega

/-- An entry of the counts is a label of the case and a count that fits. -/
theorem Shows.bounds_of_mem_counts (shows : Shows case mode addresses run) {label : String}
    {count : Int} (member : (label, count) ∈ run.counts.entries) :
    label ∈ FixtureArgument.labels case.args ∧ (Int32.ofInt count).toInt = count := by
  rw [shows.counts] at member
  have zipped := Labelled.mem_of_mem_ofList member
  obtain ⟨labelled, counted⟩ := List.of_mem_zip zipped
  obtain ⟨least, most⟩ := @count_bounds _ case mode addresses count counted
  simp only [maxCount] at most
  exact ⟨labelled, Int32.toInt_ofInt_of_le (by omega) (by omega)⟩

end Numbers

section Shown

variable (shows : Shows case mode addresses run)
include shows

/-- A run agrees with what is taken down from it, if the guard is silent. -/
theorem Shows.agrees_captured (silent : run.violations = []) :
    Agrees (captured case mode run) run := by
  refine ⟨rfl, shows.toInt_returned.symm, ?_, silent⟩
  intro entry member
  obtain ⟨count, inside, taken⟩ := Labelled.exists_of_mem_map member
  rw [Labelled.get?_of_mem inside, taken, (shows.bounds_of_mem_counts inside).2]

theorem Shows.silent_of_whole (whole : ¬ EndsEarly case mode addresses) : run.violations = [] := by
  rcases shows.cases with ⟨-, silent, -⟩ | ⟨early, -, -⟩
  · exact silent
  · exact absurd early whole

/-- Only the length of a case that was taken down can be at fault. -/
theorem Shows.fault?_captured : (captured case mode run).fault? =
    let length := run.output.utf8ByteSize
    if 0 ≤ run.returned ∧ run.returned ≠ length then some (.lengthMismatch run.returned length)
    else none := by
  have known : ¬ ((captured case mode run).mode ≠ "compat" ∧
      (captured case mode run).mode ≠ "strict" ∧ (captured case mode run).mode ≠ "both") := by
    rintro ⟨notCompat, notStrict, -⟩
    cases mode with
    | compat => exact notCompat rfl
    | strict => exact notStrict rfl
  have bound : (captured case mode run).expectedCounts.entries.find? (fun entry =>
      !(FixtureArgument.labels (captured case mode run).args).contains entry.1) = none := by
    rw [List.find?_eq_none]
    intro entry member
    obtain ⟨count, inside, -⟩ := Labelled.exists_of_mem_map member
    have labelled : entry.1 ∈ FixtureArgument.labels (captured case mode run).args :=
      (shows.bounds_of_mem_counts inside).1
    simpa using labelled
  rw [FixtureCase.fault?, if_neg known]
  simp only [bound, shows.toInt_returned]
  rfl

theorem Shows.countsText_iff : CountsText case mode addresses ↔
    (0 ≤ run.returned → run.returned = run.output.utf8ByteSize) := by
  have returned := shows.returned
  rw [CountsText]
  rw [Outcome.returned?] at returned
  cases answer : (outcomeOf case mode addresses).result with
  | error error =>
      rw [answer] at returned
      simp [← Option.some.inj returned]
  | crash => exact absurd answer shows.returns
  | ok written =>
      rw [answer] at returned
      have nonempty := nonempty_of_answer answer
      have output := (shows.of_answer nonempty answer).2.1
      have reached : (rendered case mode addresses).length = written := render_answers nonempty answer
      have longer := Text.length_le_length_utf8_decodeLossy (rendered case mode addresses)
      have same := @Text.length_utf8_decodeLossy_eq_iff (rendered case mode addresses)
      rw [← output, Text.length_utf8, reached] at longer same
      rw [← Option.some.inj returned]
      simp only [Ending.ok.injEq, forall_eq', ← same]
      -- A text is never shorter than its bytes, so no count that was cut off has its length.
      omega

end Shown

omit [Build] in
theorem runsIn_captured (case : FixtureCase) (mode : Mode) (run : CaseRun) :
    runsIn mode (captured case mode run) = true := by
  have same : sameWord (captured case mode run).mode mode.name = true := decide_eq_true rfl
  rw [runsIn, same, Bool.or_true]

/-- What is taken down from a run is run in the same mode. It passes, unless a directive was rejected
behind a NUL, if texts and count targets lie where they lay or no address is read. It is free of
faults exactly where the bytes that were counted are as many as those of the text, and otherwise at
fault for that. -/
theorem captured_replays (ran : execute case mode addresses = some run) :
    runsIn mode (captured case mode run) = true ∧
      ((captured case mode run).fault? = none ↔ CountsText case mode addresses) ∧
      (¬ CountsText case mode addresses → (captured case mode run).fault? =
        some (.lengthMismatch run.returned run.output.utf8ByteSize)) ∧
      (¬ EndsEarly case mode addresses →
        ∀ (others : FixtureArgument.Addresses),
          others = addresses ∨ IgnoresAddresses case mode addresses →
        ∀ (campaign : String), ∃ result,
          verifyCase campaign mode others (captured case mode run) = some result ∧
            result.passed = true ∧
            ∀ (set : FixtureSet) (memory : Nat → FixtureArgument.Addresses) (place : Nat)
              (results : List VerificationResult),
              (set.cases.filter (runsIn mode))[place]? = some (captured case mode run) →
              memory place = others → verifySet campaign mode memory set = some results →
                results[place]? = some result) := by
  have shows := shows_of_execute ran
  rw [shows.fault?_captured, shows.countsText_iff]
  refine ⟨runsIn_captured case mode run, ?_, ?_, ?_⟩
  · simp
  · intro differs
    simp only [Classical.not_imp] at differs
    exact if_pos differs
  · intro whole others alike campaign
    have replayed : execute (captured case mode run) mode others = some run := by
      rw [execute_captured]
      rcases alike with rfl | ignored
      · exact ran
      · rw [execute_of_ignored ignored, ran]
    refine ⟨_, verifyCase_of_run replayed,
      passed_iff.mpr (shows.agrees_captured (shows.silent_of_whole whole)), ?_⟩
    rintro set memory place results here rfl verified
    obtain ⟨result, found, same⟩ := getElem?_verifyCases verified here
    rw [found, ← same, verifyCase_of_run replayed]

end Runs

/-- A letter of two bytes in a buffer with room for one of them. -/
def halfLetter : FixtureCase :=
  { name := "half", clause := "s", template := "é", capacity := 2, expectedOutput := "",
    expectedReturn := 0, expectedCounts := .ofList [] }

/-- A text that is printed as a pointer. -/
def printedAddress : FixtureCase :=
  { name := "printed", clause := "s", template := "%p", capacity := 32, args := [.text "x"],
    expectedOutput := "", expectedReturn := 0, expectedCounts := .ofList [] }

theorem half_letter_at_fault :
    let _ : Build := .checked
    ((execute halfLetter .compat fun _ => 4096).map fun run =>
      (captured halfLetter .compat run).fault?) = some (some (.lengthMismatch 1 3)) ∧
    ((execute printedAddress .compat fun _ => 4096).bind fun run =>
      (verifyCase "taken" .compat (fun _ => 8192) (captured printedAddress .compat run)).map
        (·.passed)) = some false := by
  decide +kernel

/-- Three bytes of a character of four, behind a number between two targets with one label. -/
def cutBehindCounts : FixtureCase :=
  { name := "cut", clause := "s", template := "%n%d%n😀", capacity := 6,
    args := [.count "a", .int (-5), .count "a"], expectedOutput := "", expectedReturn := 0,
    expectedCounts := .ofList [] }

/-- The targets lie elsewhere when the case is run again, and no address is read. -/
theorem cut_behind_counts_replays :
    let _ : Build := .checked
    let addresses : FixtureArgument.Addresses := fun _ => 4096
    let others : FixtureArgument.Addresses := fun place => 8192 + 4 * UInt64.ofNat place
    ¬ EndsEarly cutBehindCounts .compat addresses ∧ CountsText cutBehindCounts .compat addresses ∧
      IgnoresAddresses cutBehindCounts .compat addresses ∧
      ∃ run, execute cutBehindCounts .compat addresses = some run ∧
        (captured cutBehindCounts .compat run).fault? = none ∧
        ∃ result, verifyCase "taken" .compat others (captured cutBehindCounts .compat run) =
          some result ∧ result.passed = true := by
  intro _ addresses others
  have whole : ¬ EndsEarly cutBehindCounts .compat addresses := by decide +kernel
  have ignored : IgnoresAddresses cutBehindCounts .compat addresses := by decide +kernel
  have faultless : (execute cutBehindCounts .compat addresses).map
      (fun run => (captured cutBehindCounts .compat run).fault?) = some none := by
    decide +kernel
  obtain ⟨run, ran, free⟩ := Option.map_eq_some_iff.mp faultless
  obtain ⟨-, valid, -, passes⟩ := captured_replays ran
  obtain ⟨result, verified, passed, -⟩ := passes whole others (.inr ignored) "taken"
  exact ⟨whole, valid.mp free, ignored, run, ran, free, result, verified, passed⟩

end BoundedPrintf.Conformance
