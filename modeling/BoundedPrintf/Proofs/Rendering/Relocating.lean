import Mathlib
import BoundedPrintf.Proofs.Rendering.Answers
import BoundedPrintf.Proofs.Rendering.Counts

/-! Texts and count targets elsewhere in memory. A directive that reads one as a number, a pointer or
a width shows its address, and so what a call does may depend on where they lie. Nothing else does. -/
namespace BoundedPrintf

open Argument (Supply)

namespace Argument

/-- Whether an argument is a text or a count target, which lie somewhere in memory. -/
def isPlaced : Argument → Bool
  | .text .. | .count .. => true
  | _ => false

/-- An argument without its address. -/
def unplaced : Argument → Argument
  | .text bytes _ => .text bytes
  | .count target _ => .count target
  | arg => arg

theorem isPlaced_unplaced (arg : Argument) : arg.unplaced.isPlaced = arg.isPlaced := by
  cases arg <;> rfl

theorem unplaced_of_plain {arg : Argument} (plain : arg.isPlaced = false) : arg.unplaced = arg := by
  cases arg with
  | text | count => cases plain
  | int | uint | double | pointer | null => rfl

theorem eq_of_unplaced {first second : Argument} (same : first.unplaced = second.unplaced)
    (plain : first.isPlaced = false) : first = second := by
  have plainSecond : second.isPlaced = false := by
    rw [← isPlaced_unplaced, ← same, isPlaced_unplaced, plain]
  rw [← unplaced_of_plain plain, same, unplaced_of_plain plainSecond]

end Argument

/-- The same arguments, but for the places of texts and count targets. -/
def Relocated (args others : List Argument) : Prop :=
  args.map Argument.unplaced = others.map Argument.unplaced

/-- The value of a text or count directive, which is meant to lie in memory. -/
def Segment.takesPlaced : Segment → Bool
  | .directive spec => spec.conversion = octet 's' || spec.conversion = octet 'n'
  | _ => false

/-- A visit, behind so many requests, asks for an argument that is a text or a count target, and
reads it as something else. -/
def Visit.ReadsAddress (args : List Argument) (requested : Nat) (visit : Visit) : Prop :=
  ∃ request ∈ visit.segment.requests,
    ∃ arg ∈ args[requested + visit.segment.requests.idxOf request]?,
      arg.isPlaced = true ∧ ¬ (request = .value ∧ visit.segment.takesPlaced = true)

instance (args : List Argument) (requested : Nat) (visit : Visit) :
    Decidable (visit.ReadsAddress args requested) :=
  inferInstanceAs (Decidable (∃ _ ∈ _, _))

/-- None of these visits reads an address. -/
def ReadsNoAddress (args : List Argument) (visits : List Visit) : Prop :=
  ∀ place < visits.length, ∀ visit ∈ visits[place]?,
    ¬ visit.ReadsAddress args (Visit.requested (visits.take place))

instance (args : List Argument) (visits : List Visit) : Decidable (ReadsNoAddress args visits) :=
  inferInstanceAs (Decidable (∀ _ < _, _))

theorem ReadsNoAddress.split {args : List Argument} {front back : List Visit} {visit : Visit}
    (addressless : ReadsNoAddress args (front ++ visit :: back)) :
    ¬ visit.ReadsAddress args (Visit.requested front) := by
  have here := addressless front.length (by simp) visit (by simp)
  rwa [List.take_left] at here

variable {args others : List Argument} {place : Nat}

theorem Relocated.length (relocated : Relocated args others) : args.length = others.length := by
  simpa using congrArg List.length relocated

theorem Relocated.getElem? (relocated : Relocated args others) (place : Nat) :
    args[place]?.map Argument.unplaced = others[place]?.map Argument.unplaced := by
  rw [← List.getElem?_map, ← List.getElem?_map, relocated]

theorem Relocated.getElem?_eq (relocated : Relocated args others)
    (plain : ∀ arg, args[place]? = some arg → arg.isPlaced = false) : others[place]? = args[place]? := by
  have same := relocated.getElem? place
  cases here : args[place]? with
  | none => simpa [here, eq_comm] using same
  | some arg =>
      rw [here] at same
      obtain ⟨other, there, equal⟩ := Option.map_eq_some_iff.mp same.symm
      rw [there, Argument.eq_of_unplaced equal.symm (plain arg here)]

theorem Spec.conversion_answered (spec : Spec) (answer : Request → Supply) :
    (spec.answered answer).conversion = spec.conversion := by
  by_cases width : spec.width = .argument <;> by_cases precision : spec.precision = .argument <;>
    simp [answered, width, precision, withWidth, withPrecision]

section Calls

variable [Build] {mode : Mode}

/-- The text of `%s` and the target of `%n` are what they are wherever they lie. -/
theorem Spec.effect_of_unplaced {spec : Spec} {first second : Supply}
    (same : first.map Argument.unplaced = second.map Argument.unplaced)
    (reads : spec.conversion = octet 's' ∨ spec.conversion = octet 'n') :
    spec.effect first = spec.effect second := by
  have read (supply : Supply) : supply.text? = Supply.text? (supply.map Argument.unplaced) ∧
      supply.target? = Supply.target? (supply.map Argument.unplaced) := by
    rcases supply with _ | _ | _ | _ | _ | _ | _ | _ <;> exact ⟨rfl, rfl⟩
  rcases reads with text | count
  · have effect (supply : Supply) : spec.effect supply = .emit (Field.text supply.text? spec) := by
      rw [Spec.effect, text]
      rfl
    rw [effect, effect, (read first).1, (read second).1, same]
  · rw [effect_of_count count, effect_of_count count, (read first).2, (read second).2, same]

theorem Relocated.actAlike (relocated : Relocated args others) {visits : List Visit}
    (addressless : ReadsNoAddress args visits) : ActAlike mode args others 0 visits := by
  intro front back visit split
  rw [split] at addressless
  have reads := addressless.split
  cases segment : visit.segment with
  | literal | percent | unsupported | incomplete => rfl
  | directive spec =>
      have plain (request : Request) (asked : request ∈ spec.requests)
          (number : ¬ (request = .value ∧
            (spec.conversion = octet 's' ∨ spec.conversion = octet 'n'))) :
          others[Visit.requested front + spec.requests.idxOf request]? =
            args[Visit.requested front + spec.requests.idxOf request]? := by
        apply relocated.getElem?_eq
        intro arg here
        rw [Bool.eq_false_iff]
        intro placed
        refine reads ⟨request, ?_, arg, ?_, placed, ?_⟩
        · rwa [segment]
        · rwa [segment]
        · simpa [segment, Segment.takesPlaced] using number
      have answered := Spec.answered_congr fun request asked star =>
        congrArg Supply.filled (plain request asked fun reading => star reading.1)
      simp only [Segment.action, Spec.action_after, Nat.zero_add, answered]
      refine congrArg Action.ofEffect ?_
      by_cases named : spec.conversion = octet 's' ∨ spec.conversion = octet 'n'
      · refine Spec.effect_of_unplaced (relocated.getElem? _).symm ?_
        rwa [Spec.conversion_answered]
      · rw [plain .value (by simp [Spec.requests]) fun reading => named reading.2]

/-- A call that reads no address is the same wherever its texts and count targets lie. -/
theorem render_relocated {buffer : Array UInt8} {template : Bytes}
    (relocated : Relocated args others) (addressless : ∀ nonempty : 0 < buffer.size,
      ReadsNoAddress args (visitsOfCall buffer nonempty template args mode)) :
    render buffer template others mode = render buffer template args mode := by
  have alike : AnswerAlike args args (requestsOfCall buffer template args mode) := fun _ _ => rfl
  rw [render_acting_alike fun nonempty => relocated.actAlike (addressless nonempty),
    ← relocated.length]
  exact (render_alike alike).symm

end Calls

end BoundedPrintf
