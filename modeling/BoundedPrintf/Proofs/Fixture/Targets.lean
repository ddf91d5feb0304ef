import Mathlib
import BoundedPrintf.Fixture.Argument
import BoundedPrintf.Proofs.Rendering.Relocating

/-! The targets of count arguments. Labels, targets and arguments are counted apart from each other: a
count argument has as many targets in front of its own as there are labels in front of its label, and
no other argument moves them. -/
namespace BoundedPrintf.FixtureArgument

/-- The number of count arguments in front of a place. -/
def targetAt (args : List FixtureArgument) (place : Nat) : Nat := (labels (args.take place)).length

variable {args : List FixtureArgument} {place other : Nat} {label name : String}

theorem labels_cons (arg : FixtureArgument) (args : List FixtureArgument) :
    labels (arg :: args) = arg.label?.toList ++ labels args := by
  rw [labels, List.filterMap_cons]
  cases arg.label? <;> rfl

theorem label?_eq_some {arg : FixtureArgument} : arg.label? = some label ↔ arg = .count label := by
  constructor
  · intro named
    cases arg with
    | count own => exact congrArg count (Option.some.inj named)
    | int | uint | double | doubleBits | text | nullText | pointer => cases named
  · rintro rfl
    rfl

theorem mem_labels : label ∈ labels args ↔ .count label ∈ args := by
  simp only [labels, List.mem_filterMap, label?_eq_some, exists_eq_right]

theorem toArgument_of_other {arg : FixtureArgument} (other : arg.label? = none)
    (target : Option Nat) (address : UInt64) :
    arg.toArgument target address = arg.toArgument none address := by
  cases arg with
  | count label => cases other
  | int | uint | double | doubleBits | text | nullText | pointer => rfl

theorem targetAt_succ (here : args[place]? = some (.count label)) :
    targetAt args (place + 1) = targetAt args place + 1 := by
  rw [targetAt, targetAt, List.take_add_one, here]
  simp [labels, label?]

theorem targetAt_mono (front : place ≤ other) : targetAt args place ≤ targetAt args other := by
  have parts : args.take place <+: args.take other := List.take_prefix_take_left front
  exact (parts.sublist.filterMap _).length_le

theorem targetAt_lt (here : args[place]? = some (.count label)) (behind : place < other) :
    targetAt args place < targetAt args other := by
  rw [Nat.lt_iff_add_one_le, ← targetAt_succ here]
  exact targetAt_mono behind

/-- No two count arguments share a target. -/
theorem place_of_targetAt (here : args[place]? = some (.count label))
    (there : args[other]? = some (.count name)) (same : targetAt args place = targetAt args other) :
    place = other := by
  rcases Nat.lt_trichotomy place other with front | equal | behind
  · exact absurd same (targetAt_lt here front).ne
  · exact equal
  · exact absurd same (targetAt_lt there behind).ne'

/-- The label of a target is that of its argument. -/
theorem getElem?_labels (here : args[place]? = some (.count label)) :
    (labels args)[targetAt args place]? = some label := by
  have split : args = args.take place ++ .count label :: args.drop (place + 1) := by
    obtain ⟨inside, same⟩ := List.getElem?_eq_some_iff.mp here
    rw [← same, List.getElem_cons_drop, List.take_append_drop]
  have cut : labels args = labels (args.take place) ++ label :: labels (args.drop (place + 1)) := by
    conv_lhs => rw [split]
    rw [labels, List.filterMap_append]
    rfl
  rw [cut, targetAt, List.getElem?_append_right le_rfl, Nat.sub_self, List.getElem?_cons_zero]

theorem targetAt_lt_length (here : args[place]? = some (.count label)) :
    targetAt args place < (labels args).length :=
  (List.getElem?_eq_some_iff.mp (getElem?_labels here)).1

theorem targetAt_cons (arg : FixtureArgument) (args : List FixtureArgument) (place : Nat) :
    targetAt (arg :: args) (place + 1) = arg.label?.toList.length + targetAt args place := by
  rw [targetAt, List.take_succ_cons, labels_cons, List.length_append, targetAt]

theorem exists_place {target : Nat} (labelled : (labels args)[target]? = some label) :
    ∃ place, args[place]? = some (.count label) ∧ targetAt args place = target := by
  induction args generalizing target with
  | nil => cases labelled
  | cons arg args ih =>
      rw [labels_cons] at labelled
      cases named : arg.label? with
      | none =>
          rw [named] at labelled
          obtain ⟨place, here, same⟩ := ih labelled
          refine ⟨place + 1, here, ?_⟩
          rw [targetAt_cons, named, same]
          exact Nat.zero_add target
      | some own =>
          rw [named] at labelled
          cases target with
          | zero =>
              obtain rfl : own = label := Option.some.inj labelled
              exact ⟨0, congrArg some (label?_eq_some.mp named), rfl⟩
          | succ target =>
              obtain ⟨place, here, same⟩ := ih labelled
              refine ⟨place + 1, here, ?_⟩
              rw [targetAt_cons, named, same]
              exact Nat.add_comm 1 target

theorem getElem?_toArguments (addresses : Addresses) (places next : Nat)
    (args : List FixtureArgument) (place : Nat) :
    (toArguments addresses places next args)[place]? = args[place]?.map fun arg =>
      arg.toArgument (if next + targetAt args place < places then some (next + targetAt args place)
        else none) (addresses place) := by
  induction args generalizing addresses next place with
  | nil => rfl
  | cons arg args ih =>
      cases place with
      | zero => rfl
      | succ place =>
          have following : (if arg.label?.isSome then next + 1 else next) =
              next + arg.label?.toList.length := by
            cases arg.label? <;> rfl
          rw [toArguments, following, List.getElem?_cons_succ, List.getElem?_cons_succ, ih,
            targetAt_cons, Nat.add_assoc]

variable {addresses : Addresses}

/-- A count argument is bound to its target, at the place that it has. -/
theorem getElem?_bind_count (here : args[place]? = some (.count label)) :
    (bind addresses args)[place]? = some (.count (targetAt args place) (addresses place)) := by
  rw [bind, getElem?_toArguments, here, Nat.zero_add, if_pos (targetAt_lt_length here)]
  rfl

/-- Other arguments are bound to what they are, and stay where they are. -/
theorem getElem?_bind_other {arg : FixtureArgument} (here : args[place]? = some arg)
    (other : arg.label? = none) :
    (bind addresses args)[place]? = some (arg.toArgument none (addresses place)) := by
  rw [bind, getElem?_toArguments, here, Option.map_some, toArgument_of_other other]

/-- A place with a target is that of a count argument. -/
theorem exists_label_of_bind {target : Nat} {address : UInt64}
    (bound : (bind addresses args)[place]? = some (.count target address)) :
    ∃ label, args[place]? = some (.count label) ∧ target = targetAt args place := by
  cases here : args[place]? with
  | none =>
      rw [bind, getElem?_toArguments, here] at bound
      cases bound
  | some arg =>
      cases arg with
      | count label =>
          cases (getElem?_bind_count here).symm.trans bound
          exact ⟨label, rfl, rfl⟩
      | int | uint | double | doubleBits | text | nullText | pointer =>
          cases (getElem?_bind_other here rfl).symm.trans bound

theorem unplaced_toArgument (arg : FixtureArgument) (target : Option Nat) (address other : UInt64) :
    (arg.toArgument target address).unplaced = (arg.toArgument target other).unplaced := by
  cases arg with
  | count label => cases target <;> rfl
  | int | uint | double | doubleBits | text | nullText | pointer => rfl

/-- Bound to other addresses, arguments are the same but for these. -/
theorem relocated_bind (addresses others : Addresses) (args : List FixtureArgument) :
    Relocated (bind addresses args) (bind others args) := by
  apply List.ext_getElem?
  intro place
  rw [List.getElem?_map, List.getElem?_map, bind, bind, getElem?_toArguments, getElem?_toArguments]
  cases args[place]? with
  | none => rfl
  | some arg => exact congrArg some (unplaced_toArgument arg _ _ _)

end BoundedPrintf.FixtureArgument
