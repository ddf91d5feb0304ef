import BoundedPrintf.CommandLine.Verifying
import BoundedPrintf.Proofs.Conformance.Guarding
import BoundedPrintf.Proofs.Fixture.Loading

/-! The runs of a verification. They go by mode, file and case, and so do their results, up to a run
that stops the program. Dealt to their cases, the results of complete runs are one for each mode that
the case runs in. -/
namespace BoundedPrintf.Conformance

variable {case : FixtureCase} {mode : Mode} {set : FixtureSet}

theorem mode_of_valid (valid : case.fault? = none) :
    case.mode = "compat" ∨ case.mode = "strict" ∨ case.mode = "both" := by
  unfold FixtureCase.fault? at valid
  split at valid
  · cases valid
  · next known => tauto

theorem runsInBoth_iff (valid : case.fault? = none) :
    runsInBoth case = true ↔ case.mode = "both" := by
  rcases mode_of_valid valid with own | own | own <;> rw [runsInBoth, own] <;> decide +kernel

theorem runsIn_iff (valid : case.fault? = none) :
    runsIn mode case = true ↔ case.mode = mode.name ∨ case.mode = "both" := by
  rcases mode_of_valid valid with own | own | own <;> cases mode <;>
    rw [runsIn, runsInBoth, own] <;> decide +kernel

end BoundedPrintf.Conformance

namespace BoundedPrintf.CommandLine

open Conformance

/-- One run of a case: its mode, and where its values lie. -/
structure Job where
  mode : Mode
  case : FixtureCase
  addresses : FixtureArgument.Addresses

/-- The runs of the cases of a set in a mode, in order. -/
def setJobs (mode : Mode) (memory : Nat → FixtureArgument.Addresses) (set : FixtureSet) : List Job :=
  (set.cases.filter (runsIn mode)).mapIdx fun place case => { mode, case, addresses := memory place }

/-- The runs of a verification by mode and then by file. -/
def jobs (modes : List Mode) (loaded : List LoadedFixture) (memory : Memory) : List (List Job) :=
  modes.flatMap fun mode => loaded.mapIdx fun place fixture =>
    setJobs mode (memory mode place) fixture.set

/-- The cases of all files in order. -/
def allCases (loaded : List LoadedFixture) : List FixtureCase := loaded.flatMap (·.set.cases)

section Jobs

theorem map_mapIdx {α β γ : Type} {f : Nat → α → β} {g : β → γ} {h : α → γ}
    (same : ∀ place item, g (f place item) = h item) (items : List α) :
    (items.mapIdx f).map g = items.map h := by
  refine List.ext_getElem? fun place => ?_
  rw [List.getElem?_map, List.getElem?_mapIdx, List.getElem?_map, Option.map_map]
  exact congrArg (Option.map · items[place]?) (funext (same place))

theorem forall₂_mapIdx {α β γ : Type} {R : β → γ → Prop} {f : Nat → α → β} {g : Nat → α → γ}
    (related : ∀ place item, R (f place item) (g place item)) (items : List α) :
    List.Forall₂ R (items.mapIdx f) (items.mapIdx g) := by
  induction items generalizing f g with
  | nil => exact .nil
  | cons item items ih =>
      rw [List.mapIdx_cons, List.mapIdx_cons]
      exact .cons (related 0 item) (ih fun place item => related (place + 1) item)

/-- Where the values lie makes no difference to which cases are run. -/
theorem map_jobs (modes : List Mode) (loaded : List LoadedFixture) (memory : Memory) :
    (jobs modes loaded memory).flatten.map (fun job => (job.mode, job.case)) =
      modes.flatMap fun mode => loaded.flatMap fun fixture =>
        (fixture.set.cases.filter (runsIn mode)).map (mode, ·) := by
  rw [jobs, List.flatten_eq_flatMap, List.flatMap_assoc, List.map_flatMap]
  refine List.flatMap_congr fun mode _ => ?_
  rw [← List.flatten_eq_flatMap, List.map_flatten, List.flatMap_def]
  refine congrArg List.flatten (map_mapIdx (fun place fixture => ?_) loaded)
  exact map_mapIdx (g := fun job : Job => (job.mode, job.case)) (h := (mode, ·)) (fun _ _ => rfl) _

end Jobs

section Running

variable [Build]

def Job.result? (job : Job) : Option VerificationResult :=
  verifyCase campaign job.mode job.addresses job.case

theorem Job.result?_eq_none_iff {job : Job} :
    job.result? = none ↔ Stops job.case job.mode job.addresses := by
  rw [Job.result?, verifyCase, Option.map_eq_none_iff, execute_eq_none_iff]

/-- What has been found of some runs: the result of each of them, or that one has stopped. -/
def Found (runs : List Job) : Option (List VerificationResult) → Prop
  | some results => runs.map Job.result? = results.map some
  | none => ∃ job ∈ runs, job.result? = none

theorem Found.append {front back : List Job} {results : List VerificationResult}
    {part : Option (List VerificationResult)} (found : Found front (some results))
    (rest : Found back part) : Found (front ++ back) (part.map (results ++ ·)) := by
  cases part with
  | none =>
      obtain ⟨job, member, stopped⟩ := rest
      exact ⟨job, List.mem_append_right _ member, stopped⟩
  | some others =>
      have both : front.map Job.result? ++ back.map Job.result? =
          results.map some ++ others.map some := congrArg₂ (· ++ ·) found rest
      rwa [← List.map_append, ← List.map_append] at both

theorem found_verifySet (mode : Mode) (memory : Nat → FixtureArgument.Addresses) (set : FixtureSet) :
    Found (setJobs mode memory set) (verifySet campaign mode memory set) := by
  rw [setJobs, verifySet]
  generalize set.cases.filter (runsIn mode) = cases
  induction cases generalizing memory with
  | nil => rfl
  | cons case cases ih =>
      let first : Job := { mode, case, addresses := memory 0 }
      rw [List.mapIdx_cons, verifyCases]
      cases ran : first.result? with
      | none =>
          have stopped : verifyCase campaign mode (memory 0) case = none := ran
          rw [stopped]
          exact ⟨first, List.mem_cons_self, ran⟩
      | some result =>
          have here : Found [first] (some [result]) := congrArg (fun one => [one]) ran
          have answered : verifyCase campaign mode (memory 0) case = some result := ran
          rw [answered]
          have all := here.append (ih (memory <| · + 1))
          cases others : verifyCases campaign mode (memory <| · + 1) cases <;> rwa [others] at all

theorem found_fileResults (modes : List Mode) (loaded : List LoadedFixture) (memory : Memory) :
    List.Forall₂ Found (jobs modes loaded memory) (fileResults modes loaded memory) := by
  rw [jobs, fileResults]
  refine List.rel_flatMap (List.forall₂_same.mpr fun mode _ => Eq.refl mode) ?_
  rintro mode _ rfl
  exact forall₂_mapIdx (fun place fixture => found_verifySet mode (memory mode place) fixture.set) loaded

variable {files : List (List Job)} {parts : List (Option (List VerificationResult))}

/-- The results are those of the first runs, and of all of them unless one has stopped. -/
theorem found_gather (found : List.Forall₂ Found files parts) :
    (gather parts).1.map some <+: files.flatten.map Job.result? ∧
      Found files.flatten (if (gather parts).2 then some (gather parts).1 else none) := by
  induction found with
  | nil => exact ⟨List.prefix_refl _, rfl⟩
  | @cons runs part files parts found rest ih =>
      rw [List.flatten_cons, List.map_append]
      cases part with
      | none =>
          obtain ⟨job, member, stopped⟩ := found
          exact ⟨List.nil_prefix, job, List.mem_append_left _ member, stopped⟩
      | some results =>
          obtain ⟨front, whole⟩ := ih
          have all := found.append whole
          have same : runs.map Job.result? = results.map some := found
          refine ⟨?_, ?_⟩
          · rw [gather, List.map_append, same]
            exact (List.prefix_append_right_inj _).mpr front
          · rw [gather]
            cases complete : (gather parts).2 <;> rw [complete] at all <;> exact all

/-- A result of a case in a mode, wherever its values lay. -/
def ResultIn (case : FixtureCase) (mode : Mode) (result : VerificationResult) : Prop :=
  ∃ addresses, verifyCase campaign mode addresses case = some result

end Running

section Dealing

variable {α β : Type} {R : α → β → Prop}

theorem map_filter_eq_flatMap (f : α → β) (p : α → Bool) (items : List α) :
    (items.filter p).map f = items.flatMap fun item => if p item then [f item] else [] := by
  induction items with
  | nil => rfl
  | cons item items ih => cases kept : p item <;> simp [kept, ih]

theorem flatMap_flatMap_perm {γ : Type} (f : α → β → List γ) (outer : List α) (inner : List β) :
    (outer.flatMap fun a => inner.flatMap (f a)).Perm
      (inner.flatMap fun b => outer.flatMap fun a => f a b) := by
  induction outer with
  | nil => simp
  | cons a outer ih =>
      simp only [List.flatMap_cons]
      exact (ih.append_left _).trans (List.flatMap_append_perm inner _ _)

theorem exists_groups {γ : Type} {f : γ → List α} {items : List γ} {results : List β}
    (related : List.Forall₂ R (items.flatMap f) results) :
    ∃ groups, results = groups.flatten ∧
      List.Forall₂ (fun item group => List.Forall₂ R (f item) group) items groups := by
  induction items generalizing results with
  | nil =>
      cases related
      exact ⟨[], rfl, .nil⟩
  | cons item items ih =>
      rw [List.flatMap_cons] at related
      have flipped := related.flip
      have front := (List.forall₂_take_append _ _ _ flipped).flip
      have back := (List.forall₂_drop_append _ _ _ flipped).flip
      obtain ⟨groups, split, each⟩ := ih back
      refine ⟨results.take (f item).length :: groups, ?_, .cons front each⟩
      rw [List.flatten_cons, ← split, List.take_append_drop]

/-- Any modes and then the cases of all files, or all cases and then the modes of each. -/
theorem pairs_perm (modes : List Mode) (loaded : List LoadedFixture) :
    (modes.flatMap fun mode => loaded.flatMap fun fixture =>
        (fixture.set.cases.filter (runsIn mode)).map (mode, ·)).Perm
      ((allCases loaded).flatMap fun case => (modes.filter (runsIn · case)).map (·, case)) := by
  simp only [map_filter_eq_flatMap, ← List.flatMap_assoc]
  exact flatMap_flatMap_perm _ modes (allCases loaded)

end Dealing

section Names

variable [Build] {case : FixtureCase} {mode : Mode} {result : VerificationResult}

theorem caseName_of_resultIn (found : ResultIn case mode result) : result.caseName =
    if runsInBoth case then case.name ++ " [" ++ mode.name ++ "]" else case.name := by
  obtain ⟨addresses, verified⟩ := found
  obtain ⟨run, -, rfl⟩ := Option.map_eq_some_iff.mp verified
  rfl

theorem mode_of_resultIn (found : ResultIn case mode result) : result.mode = mode.name := by
  obtain ⟨addresses, verified⟩ := found
  obtain ⟨run, -, rfl⟩ := Option.map_eq_some_iff.mp verified
  rfl

theorem caseName_of_both (found : ResultIn case mode result) (valid : case.fault? = none)
    (both : case.mode = "both") : result.caseName = case.name ++ (" [" ++ mode.name ++ "]") := by
  rw [caseName_of_resultIn found, if_pos ((runsInBoth_iff valid).mpr both), String.append_assoc,
    String.append_assoc, String.append_assoc]

theorem caseName_of_single (found : ResultIn case mode result) (valid : case.fault? = none)
    (single : case.mode ≠ "both") : result.caseName = case.name := by
  rw [caseName_of_resultIn found, if_neg (mt (runsInBoth_iff valid).mp single)]

/-- In both modes, a case that runs in both has a result for each, told apart by their names, and any
other case has one result under its own name. -/
def CoveredInBoth (case : FixtureCase) (results : List VerificationResult) : Prop :=
  if case.mode = "both" then
    ∃ lenient rejecting, results = [lenient, rejecting] ∧
      lenient.caseName = case.name ++ " [compat]" ∧ rejecting.caseName = case.name ++ " [strict]"
  else ∃ single, results = [single] ∧ single.caseName = case.name

/-- The results of one case in the order of the modes. -/
structure Dealt (modes : List Mode) (case : FixtureCase) (results : List VerificationResult) : Prop where
  each : List.Forall₂ (ResultIn case) (modes.filter (runsIn · case)) results
  both : modes = [.compat, .strict] → CoveredInBoth case results

theorem coveredInBoth (valid : case.fault? = none) {results : List VerificationResult}
    (each : List.Forall₂ (ResultIn case) ([Mode.compat, .strict].filter (runsIn · case)) results) :
    CoveredInBoth case results := by
  unfold CoveredInBoth
  split
  · next both =>
      have runs (mode : Mode) : runsIn mode case = true := (runsIn_iff valid).mpr (.inr both)
      rw [List.filter_eq_self.mpr fun mode _ => runs mode] at each
      obtain ⟨lenient, others, first, rest, rfl⟩ := List.forall₂_cons_left_iff.mp each
      obtain ⟨rejecting, none, second, ⟨⟩, rfl⟩ := List.forall₂_cons_left_iff.mp rest
      exact ⟨lenient, rejecting, rfl, caseName_of_both first valid both,
        caseName_of_both second valid both⟩
  · next single =>
      obtain ⟨own, named⟩ : ∃ own : Mode, case.mode = own.name := by
        rcases mode_of_valid valid with named | named | named
        · exact ⟨.compat, named⟩
        · exact ⟨.strict, named⟩
        · exact absurd named single
      have runs (mode : Mode) : runsIn mode case = decide (mode = own) := by
        rw [Bool.eq_iff_iff, runsIn_iff valid, decide_eq_true_iff]
        simp only [named]
        cases mode <;> cases own <;> decide
      have alone : [Mode.compat, .strict].filter (runsIn · case) = [own] := by
        simp only [runs]
        cases own <;> decide
      rw [alone] at each
      obtain ⟨result, none, found, ⟨⟩, rfl⟩ := List.forall₂_cons_left_iff.mp each
      exact ⟨result, rfl, caseName_of_single found valid single⟩

end Names

/-- The results of complete runs belong to their cases, whatever order they are dealt in. -/
theorem dealt_of_ordered [Build] {modes : List Mode} {loaded : List LoadedFixture} {memory : Memory}
    {results : List VerificationResult}
    (valid : ∀ fixture ∈ loaded, fixture.set.fault? = none)
    (ordered : (jobs modes loaded memory).flatten.map Job.result? = results.map some) :
    ∃ groups, results.Perm groups.flatten ∧ List.Forall₂ (Dealt modes) (allCases loaded) groups := by
  have each : List.Forall₂ (fun pair => ResultIn pair.2 pair.1)
      ((jobs modes loaded memory).flatten.map fun job => (job.mode, job.case)) results := by
    rw [List.forall₂_map_left_iff]
    rw [← List.forall₂_eq_eq_eq, List.forall₂_map_left_iff, List.forall₂_map_right_iff] at ordered
    exact ordered.imp fun job result verified => ⟨job.addresses, verified⟩
  rw [map_jobs] at each
  obtain ⟨dealt, related, same⟩ := List.perm_comp_forall₂ (pairs_perm modes loaded).symm each
  obtain ⟨groups, rfl, split⟩ := exists_groups related
  refine ⟨groups, same.symm, ?_⟩
  have sound : ∀ case ∈ allCases loaded, case.fault? = none := by
    intro case member
    obtain ⟨fixture, listed, inside⟩ := List.mem_flatMap.mp member
    exact FixtureSet.fault?_eq_none_iff.mp (valid fixture listed) case inside
  refine ((List.forall₂_and_left _ _).mpr ⟨sound, split⟩).imp fun case group ⟨free, results⟩ => ?_
  rw [List.forall₂_map_left_iff] at results
  exact ⟨results, fun both => coveredInBoth free (both ▸ results)⟩

end BoundedPrintf.CommandLine
