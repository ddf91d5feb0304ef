import BoundedPrintf.CommandLine.Command
import BoundedPrintf.Proofs.Conformance.Capturing
import BoundedPrintf.Proofs.Failure.First
import BoundedPrintf.Proofs.Fixture.ShortForms
import BoundedPrintf.Proofs.Rendering.Truncation

/-! The command that renders one template, against the run of a case with the same template, capacity
and arguments. One of them starts from zeros and the other from guard bytes. Both have to look for the
end of a rejected output, and both take the first NUL for it, since no byte behind the output is looked
at before the terminator. Their texts and count targets may lie at different addresses, which makes a
difference only where a directive reads one. -/
namespace BoundedPrintf.CommandLine

open Conformance
open FixtureArgument (Addresses labels)

/-- The line by which an error of the renderer is told, if there is one. -/
def errorLines (error : Option RenderError) : List String :=
  (error.map fun error => "error: " ++ error.message ++ "\n").toList

def returnLine (returned : Int) : String := "ret=" ++ toString returned ++ "\n"

def countLine (entry : String × Int) : String := entry.1 ++ "=" ++ toString entry.2 ++ "\n"

/-- The lines that are told of a run whose targets hold these values. -/
def runLines (run : CaseRun) (entries : List (String × Int)) : List String :=
  errorLines run.error ++ [returnLine run.returned] ++ entries.map countLine

/-- What the command has done when it agrees with a run of the case. It tells the value of each
target in the order of the arguments, so the last one that is told under a label is the one that the run
keeps. -/
structure ShowsRun [Build] (case : FixtureCase) (mode : Mode) (addresses : Addresses) (run : CaseRun)
    (tree : FileTree) (effects : Effects) : Prop where
  code : effects.code = 0
  files : effects.tree = tree
  output : effects.output = run.output ++ "\n"
  messages : effects.messages = String.join
    (runLines run ((labels case.args).zip (finalCounts case mode addresses)))
  each : (finalCounts case mode addresses).length = (labels case.args).length
  last : ∀ label, run.counts.get? label =
    (((labels case.args).zip (finalCounts case mode addresses)).findRev? (·.1 = label)).map Prod.snd

/-- Why a request to render is refused. -/
inductive Refusal (options : RenderOptions) : String → Prop
  | unknownMode {failure : Failure} : Mode.readChoice options.mode = .error failure →
      Refusal options failure.shown
  | bothModes : Mode.readChoice options.mode = .ok [.compat, .strict] →
      Refusal options (Text.quote "render takes a single mode (compat or strict)")
  /-- The first argument that cannot be read is told. -/
  | argument {before : List String} {spec : String} {behind : List String} :
      options.args = before ++ spec :: behind →
      (∀ earlier ∈ before, ∃ arg, FixtureArgument.ofShort? earlier = some arg) →
      FixtureArgument.ofShort? spec = none → Refusal options (Failure.argument spec).shown

/-- All that is done for a request that is refused is to say so. -/
def refused (reason : String) (tree : FileTree) : Effects :=
  { messages := Effects.failureLine reason, code := 1, tree }

/-- All that is left of a command that is stopped is its exit code. -/
def stopped (tree : FileTree) : Effects := { code := Effects.crashCode, tree }

/-- A case with what the options name. -/
structure Matches (options : RenderOptions) (case : FixtureCase) (mode : Mode) : Prop where
  single : Mode.readChoice options.mode = .ok [mode]
  parsed : options.args.map FixtureArgument.readShort = case.args.map .ok
  template : case.template = options.template
  capacity : case.capacity = options.capacity
  small : options.capacity.toNat < 2 ^ 31

/-- What the command does with its options, by the runs of cases. The values of a run lie where those
of the command lie, or else the run reads no address. -/
structure FollowsCases [Build] (options : RenderOptions) (world : World) (effects : Effects) : Prop where
  shows : ∀ (case : FixtureCase) (mode : Mode) (addresses : Addresses), Matches options case mode →
    addresses = world.addresses ∨ IgnoresAddresses case mode addresses →
    ∀ run, execute case mode addresses = some run →
      ShowsRun case mode addresses run world.tree effects
  stops : ∀ (case : FixtureCase) (mode : Mode) (addresses : Addresses), Matches options case mode →
    addresses = world.addresses ∨ IgnoresAddresses case mode addresses →
    execute case mode addresses = none → effects = stopped world.tree
  refuses : (∀ mode, Mode.readChoice options.mode ≠ .ok [mode]) ∨
      (∃ spec ∈ options.args, FixtureArgument.ofShort? spec = none) →
    ∃ reason, Refusal options reason ∧ effects = refused reason world.tree

section Telling

variable {effects : Effects} {finish : Finish} {tree : FileTree}

theorem runSteps_tell (texts : List String) (rest : List Step) :
    Plan.runSteps effects finish (texts.map .tell ++ rest) =
      Plan.runSteps { effects with messages := effects.messages ++ String.join texts } finish
        rest := by
  induction texts generalizing effects with
  | nil => simp
  | cons text texts ih =>
      rw [List.map_cons, List.cons_append, Plan.runSteps, ih, String.join_cons, String.append_assoc]

/-- Messages, one text that is printed, and more messages. -/
theorem run_print_between (before after : List String) (text : String) :
    ({ steps := before.map .tell ++ .print text :: after.map .tell } : Plan).run tree =
      { output := text, messages := String.join (before ++ after), tree } := by
  have ending := @runSteps_tell
    { output := text, messages := String.join before, tree } .success after []
  rw [List.append_nil] at ending
  rw [Plan.run, runSteps_tell, Plan.runSteps]
  simp only [String.empty_append]
  rw [ending, Plan.runSteps, Effects.finish, String.join_append]

theorem run_failure (reason : String) :
    ({ finish := .failure reason } : Plan).run tree = refused reason tree := by
  rw [Plan.run, Plan.runSteps, Effects.finish, Effects.fail, String.empty_append, refused]

end Telling

theorem modes_of_readChoice {text : String} {modes : List Mode}
    (choice : Mode.readChoice text = .ok modes) :
    (∃ mode, modes = [mode]) ∨ modes = [.compat, .strict] := by
  rw [Mode.readChoice] at choice
  cases chosen : Mode.ofChoice? text with
  | none => rw [chosen] at choice; cases choice
  | some known =>
      rw [chosen] at choice
      obtain rfl : known = modes := Except.ok.inj choice
      unfold Mode.ofChoice? at chosen
      dsimp only at chosen
      split at chosen
      · exact .inl ⟨.compat, (Option.some.inj chosen).symm⟩
      · split at chosen
        · exact .inl ⟨.strict, (Option.some.inj chosen).symm⟩
        · obtain ⟨-, same⟩ := Option.ite_none_right_eq_some.mp chosen
          exact .inr (Option.some.inj same).symm

section Calls

variable [Build] {case : FixtureCase} {mode : Mode} {addresses : Addresses} {run : CaseRun}

/-- The buffer that the command starts from. -/
def zeroed (case : FixtureCase) : Array UInt8 := Array.replicate case.capacity.toNat 0

/-- The call that the command makes for a case. -/
def callOf (case : FixtureCase) (mode : Mode) (addresses : Addresses) : Outcome :=
  render (zeroed case) (Text.utf8 case.template) (FixtureArgument.bind addresses case.args) mode

theorem callOf_alike (case : FixtureCase) (mode : Mode) (addresses : Addresses) :
    (callOf case mode addresses).result = (outcomeOf case mode addresses).result ∧
      (callOf case mode addresses).stores = (outcomeOf case mode addresses).stores ∧
      emitted (zeroed case) (Text.utf8 case.template) (FixtureArgument.bind addresses case.args) mode =
        rendered case mode addresses := by
  refine render_of_same_size ?_ _ _ mode
  rw [zeroed, guarded, Array.size_replicate, Array.size_replicate]

theorem countEntries_callOf : countEntries case.args (callOf case mode addresses) =
    (labels case.args).zip (finalCounts case mode addresses) := by
  obtain ⟨-, stores, -⟩ := callOf_alike case mode addresses
  rw [countEntries, finalCounts, Outcome.counts, Outcome.counts, stores]

/-- The bytes behind the terminator are zeros here. -/
theorem toList_buffer_callOf (nonempty : 0 < (guarded case).size)
    (returns : (outcomeOf case mode addresses).result ≠ .crash) :
    (callOf case mode addresses).buffer.toList = rendered case mode addresses ++
      0 :: (zeroed case).toList.drop ((rendered case mode addresses).length + 1) := by
  obtain ⟨result, -, output⟩ := callOf_alike case mode addresses
  have room : 0 < (zeroed case).size := by
    rw [guarded, Array.size_replicate] at nonempty
    rwa [zeroed, Array.size_replicate]
  have terminator : (callOf case mode addresses).result.terminator = [0] :=
    Ending.terminator_of_returns (result ▸ returns)
  rw [callOf] at terminator ⊢
  rw [toList_buffer_render room, terminator, output, List.append_assoc]
  rfl

/-- What the command takes from a call is what a run of the case shows. -/
structure ReadAlike (case : FixtureCase) (mode : Mode) (addresses : Addresses) (run : CaseRun)
    (shown : Int × Nat × Option RenderError) : Prop where
  taken : renderedResult? (callOf case mode addresses) = some shown
  returned : shown.1 = run.returned
  output : Text.decodeLossy ((callOf case mode addresses).buffer.toList.take shown.2.1) = run.output
  error : shown.2.2 = run.error

section Reading

variable (shows : Shows case mode addresses run)
include shows

theorem readAlike_of_empty (empty : (guarded case).size = 0) :
    ReadAlike case mode addresses run (-1, 0, none) := by
  have failed := @outcomeOf_of_empty _ case mode addresses empty
  have nothing : rendered case mode addresses = [] := by simp [rendered, emitted, empty]
  have result : (callOf case mode addresses).result = .error .bufferTooSmall := by
    rw [(callOf_alike case mode addresses).1, failed]
  have returned := shows.returned
  refine ⟨?_, ?_, ?_, ?_⟩
  · rw [renderedResult?, result]
  · rw [failed] at returned
    exact Option.some.inj returned
  · rw [(shows.of_empty empty).2.1, nothing, List.take_zero]
  · rw [shows.error, failed]
    rfl

/-- The answer fits the return value of the run, since the buffer is small. -/
theorem readAlike_of_answer (small : case.capacity.toNat < 2 ^ 31) {written : Nat}
    (answered : (outcomeOf case mode addresses).result = .ok written) :
    ReadAlike case mode addresses run (↑written, written, none) := by
  have nonempty := nonempty_of_answer answered
  have returns : (outcomeOf case mode addresses).result ≠ .crash := shows.returns
  have reached : (rendered case mode addresses).length = written := render_answers nonempty answered
  have fits : written ≤ maxCount := by
    have inside : (rendered case mode addresses).length ≤ (guarded case).size - 1 :=
      length_emitted_le nonempty _ _ mode
    rw [guarded, Array.size_replicate] at inside
    simp only [maxCount]
    omega
  have result : (callOf case mode addresses).result = .ok written := by
    rw [(callOf_alike case mode addresses).1, answered]
  have returned := shows.returned
  refine ⟨?_, ?_, ?_, ?_⟩
  · rw [renderedResult?, result]
  · rw [Outcome.returned?, answered] at returned
    have same := Option.some.inj returned
    simp only at same ⊢
    omega
  · rw [(shows.of_answer nonempty answered).2.1, toList_buffer_callOf nonempty returns, ← reached,
      List.take_left]
  · rw [shows.error, reportedError, answered]

/-- Both take the first NUL for the end of the output. -/
theorem readAlike_of_rejection (nonempty : 0 < (guarded case).size) {offset : Nat}
    {conversion : UInt8}
    (failed : (outcomeOf case mode addresses).result =
      .error (.unsupportedDirective offset conversion)) :
    ReadAlike case mode addresses run (-1, (beforeNul (rendered case mode addresses)).length,
      some (.unsupportedDirective offset conversion)) := by
  have returns : (outcomeOf case mode addresses).result ≠ .crash := shows.returns
  have result : (callOf case mode addresses).result =
      .error (.unsupportedDirective offset conversion) := by
    rw [(callOf_alike case mode addresses).1, failed]
  have front : beforeNul (rendered case mode addresses) <+:
      (callOf case mode addresses).buffer.toList := by
    rw [toList_buffer_callOf nonempty returns]
    exact (List.takeWhile_prefix _).trans (List.prefix_append _ _)
  have returned := shows.returned
  refine ⟨?_, ?_, ?_, ?_⟩
  · rw [renderedResult?, result]
    simp only [toList_buffer_callOf nonempty returns, findIdx?_terminator, Option.getD_some]
  · rw [Outcome.returned?, failed] at returned
    exact Option.some.inj returned
  · rw [(shows.of_rejection nonempty ⟨offset, conversion, failed⟩).2,
      ← List.prefix_iff_eq_take.mp front]
  · rw [shows.error, reportedError, failed]

theorem exists_readAlike (small : case.capacity.toNat < 2 ^ 31) :
    ∃ shown, ReadAlike case mode addresses run shown := by
  rcases Nat.eq_zero_or_pos (guarded case).size with empty | nonempty
  · exact ⟨_, readAlike_of_empty shows empty⟩
  · cases answer : (outcomeOf case mode addresses).result with
    | ok written => exact ⟨_, readAlike_of_answer shows small answer⟩
    | error error =>
        obtain ⟨-, -, offset, conversion, rfl⟩ := render_fails nonempty answer
        exact ⟨_, readAlike_of_rejection shows nonempty answer⟩
    | crash => exact absurd answer shows.returns

end Reading

end Calls

section Planning

variable [Build] {case : FixtureCase} {mode : Mode} {addresses : Addresses} {run : CaseRun}
  {options : RenderOptions} {tree : FileTree}

theorem plan_of_matches (matching : Matches options case mode) (addresses : Addresses) :
    options.plan addresses = renderedPlan case.args (callOf case mode addresses) := by
  obtain ⟨single, parsed, template, capacity, small⟩ := matching
  have fits : case.capacity.toNat ≤ maxCapacity := by
    rw [capacity, maxCapacity]
    omega
  rw [RenderOptions.plan, single]
  simp only [mapM_eq_ok_iff.mpr parsed, freshBuffer?, if_pos fits, ← template, ← capacity]
  rfl

/-- A run is printed and told in this order: its error, its output and its return value, its counts. -/
theorem run_renderedPlan (shows : Shows case mode addresses run)
    (small : case.capacity.toNat < 2 ^ 31) :
    (renderedPlan case.args (callOf case mode addresses)).run tree =
      { output := run.output ++ "\n", messages := String.join
          (runLines run ((labels case.args).zip (finalCounts case mode addresses))), tree } := by
  obtain ⟨⟨number, length, failure⟩, taken, returned, output, error⟩ := exists_readAlike shows small
  simp only at returned output error
  have planned : renderedPlan case.args (callOf case mode addresses) =
      { steps := (errorLines run.error).map .tell ++ .print (run.output ++ "\n") ::
          (returnLine run.returned ::
            ((labels case.args).zip (finalCounts case mode addresses)).map countLine).map .tell } := by
    rw [renderedPlan, taken]
    simp only [returned, output, error, countEntries_callOf]
    simp only [errorLines, Option.toList_map, List.map_map, List.map_cons, List.append_assoc,
      List.cons_append, List.nil_append]
    rfl
  rw [planned, run_print_between, runLines, List.append_assoc, List.singleton_append]

theorem showsRun_renderedPlan (shows : Shows case mode addresses run)
    (small : case.capacity.toNat < 2 ^ 31) :
    ShowsRun case mode addresses run tree
      ((renderedPlan case.args (callOf case mode addresses)).run tree) := by
  rw [run_renderedPlan shows small]
  exact ⟨rfl, rfl, rfl, rfl, length_finalCounts case mode addresses, fun label => shows.get?_counts⟩

theorem run_renderedPlan_of_crash (crashes : (outcomeOf case mode addresses).result = .crash) :
    (renderedPlan case.args (callOf case mode addresses)).run tree = stopped tree := by
  have result : (callOf case mode addresses).result = .crash := by
    rw [(callOf_alike case mode addresses).1, crashes]
  rw [renderedPlan, renderedResult?, result]
  rfl

/-- Of two modes or an unknown one, nothing is rendered, whatever the arguments are. -/
theorem plan_of_no_single (several : ∀ mode, Mode.readChoice options.mode ≠ .ok [mode]) :
    ∃ reason, Refusal options reason ∧ options.plan addresses = { finish := .failure reason } := by
  cases choice : Mode.readChoice options.mode with
  | error failure =>
      refine ⟨failure.shown, .unknownMode choice, ?_⟩
      rw [RenderOptions.plan, choice]
  | ok modes =>
      obtain ⟨mode, rfl⟩ | rfl := modes_of_readChoice choice
      · exact absurd choice (several mode)
      · exact ⟨_, .bothModes choice, by rw [RenderOptions.plan, choice]⟩

theorem plan_of_bad_argument (single : Mode.readChoice options.mode = .ok [mode]) {spec : String}
    (given : spec ∈ options.args) (bad : FixtureArgument.ofShort? spec = none) :
    ∃ reason, Refusal options reason ∧ options.plan addresses = { finish := .failure reason } := by
  have unread : FixtureArgument.readShort spec = .error (.argument spec) := by
    rw [FixtureArgument.readShort, bad]
  cases read : options.args.mapM FixtureArgument.readShort with
  | ok args =>
      have parsed := mapM_eq_ok_iff.mp read
      have member : FixtureArgument.readShort spec ∈ args.map Except.ok :=
        parsed ▸ List.mem_map_of_mem given
      obtain ⟨arg, -, good⟩ := List.mem_map.mp member
      cases good.trans unread
  | error failure =>
      obtain ⟨before, first, behind, split, fine, failed⟩ := mapM_eq_error_iff.mp read
      refine ⟨failure.shown, ?_, by rw [RenderOptions.plan, single]; simp only [read]⟩
      obtain ⟨unreadable, rfl⟩ := FixtureArgument.readShort_eq_error_iff.mp failed
      exact .argument split (fun earlier member => by
        obtain ⟨arg, good⟩ := fine earlier member
        exact ⟨arg, FixtureArgument.readShort_eq_ok_iff.mp good⟩) unreadable

theorem ShowsRun.of_same {others : Addresses} {effects : Effects}
    (same : outcomeOf case mode others = outcomeOf case mode addresses)
    (shown : ShowsRun case mode others run tree effects) :
    ShowsRun case mode addresses run tree effects := by
  have counts : finalCounts case mode others = finalCounts case mode addresses := by
    rw [finalCounts, same, finalCounts]
  obtain ⟨code, files, output, messages, each, last⟩ := shown
  rw [counts] at messages each
  exact ⟨code, files, output, messages, each, counts ▸ last⟩

end Planning

/-- The command shows of a template what a run of a case with it shows, and stops where the run stops
the program. It refuses what it cannot read without rendering anything. -/
theorem render_command_follows_cases [Build] (options : RenderOptions) (world : World) :
    FollowsCases options world (((Command.render options).plan world).run world.tree) := by
  have planned : (Command.render options).plan world = options.plan world.addresses := rfl
  have moved {case : FixtureCase} {mode : Mode} {addresses : Addresses}
      (alike : addresses = world.addresses ∨ IgnoresAddresses case mode addresses) :
      outcomeOf case mode world.addresses = outcomeOf case mode addresses ∧
        execute case mode world.addresses = execute case mode addresses := by
    rcases alike with rfl | ignored
    · exact ⟨rfl, rfl⟩
    · exact ⟨outcomeOf_of_ignored ignored _, execute_of_ignored ignored _⟩
  rw [planned]
  constructor
  case shows =>
    intro case mode addresses matching alike run ran
    obtain ⟨same, sameRun⟩ := moved alike
    have shows := shows_of_execute (sameRun.trans ran)
    rw [plan_of_matches matching]
    exact (showsRun_renderedPlan shows (matching.capacity ▸ matching.small)).of_same same
  case stops =>
    intro case mode addresses matching alike stopping
    obtain ⟨same, -⟩ := moved alike
    have fits : ¬ maxCapacity < case.capacity.toNat := by
      have small := matching.small
      rw [matching.capacity, maxCapacity]
      omega
    have overflows := (execute_eq_none_iff.mp stopping).resolve_left fits
    have crashes : (outcomeOf case mode world.addresses).result = .crash := by
      rw [same]
      exact outcomeOf_crashes_iff.mpr overflows
    rw [plan_of_matches matching]
    exact run_renderedPlan_of_crash crashes
  case refuses =>
    intro unfit
    obtain ⟨reason, refusal, planned⟩ : ∃ reason, Refusal options reason ∧
        options.plan world.addresses = { finish := .failure reason } := by
      by_cases single : ∃ mode, Mode.readChoice options.mode = .ok [mode]
      · obtain ⟨mode, single⟩ := single
        rcases unfit with several | ⟨spec, given, bad⟩
        · exact absurd single (several mode)
        · exact plan_of_bad_argument single given bad
      · exact plan_of_no_single (not_exists.mp single)
    exact ⟨reason, refusal, planned ▸ run_failure reason⟩

/-- Behind a NUL, which hides the rest of the output, a directive is rejected. -/
def hiddenOptions : RenderOptions :=
  { template := "a%n%cb%n%q", capacity := 16, args := ["n:x", "i:0", "n:x"], mode := "Strict" }

def hiddenCase : FixtureCase :=
  { name := "hidden", clause := "s", template := "a%n%cb%n%q", capacity := 16,
    args := [.count "x", .int 0, .count "x"], expectedOutput := "a", expectedReturn := -1,
    expectedCounts := .ofList [("x", 3)] }

def quietWorld : World :=
  { tree := {}, clock := { started := ⟨0, 0⟩, entry := fun _ => ⟨0, 0⟩, reported := ⟨0, 0⟩ }
    addresses := fun _ => 4096, memory := fun _ _ _ _ => 4096 }

theorem hidden_output_shown :
    let _ : Build := .checked
    (((Command.render hiddenOptions).plan quietWorld).run {}).output = "a\n" ∧
      (((Command.render hiddenOptions).plan quietWorld).run {}).messages =
        "error: unsupported conversion 'q' at template offset 8\nret=-1\nx=1\nx=3\n" := by
  intro _
  have ignored : IgnoresAddresses hiddenCase .strict fun _ => 8192 := by decide +kernel
  have shown : (execute hiddenCase .strict fun _ => 8192).map (fun run => (run.output ++ "\n",
      String.join (runLines run ((labels hiddenCase.args).zip
        (finalCounts hiddenCase .strict fun _ => 8192))))) =
      some ("a\n", "error: unsupported conversion 'q' at template offset 8\nret=-1\nx=1\nx=3\n") := by
    decide +kernel
  obtain ⟨run, ran, texts⟩ := Option.map_eq_some_iff.mp shown
  obtain ⟨output, messages⟩ := Prod.mk.inj texts
  have shows := (render_command_follows_cases hiddenOptions quietWorld).shows hiddenCase .strict
    (fun _ => 8192) ⟨rfl, rfl, rfl, rfl, by decide⟩ (.inr ignored) run ran
  exact ⟨shows.output.trans output, shows.messages.trans messages⟩

/-- A text that is printed as a pointer. -/
def printingOptions : RenderOptions := { template := "%p", capacity := 32, args := ["s:x"] }

theorem address_shown_elsewhere :
    let _ : Build := .checked
    Matches printingOptions printedAddress .compat ∧
      (execute printedAddress .compat fun _ => 8192).map (·.output) = some "0x2000" ∧
      (((Command.render printingOptions).plan quietWorld).run {}).output = "0x1000\n" := by
  intro _
  exact ⟨⟨rfl, rfl, rfl, rfl, by decide⟩, by decide +kernel⟩

end BoundedPrintf.CommandLine
