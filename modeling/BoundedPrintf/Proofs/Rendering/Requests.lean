import Mathlib
import BoundedPrintf.Proofs.Rendering.Arguments
import BoundedPrintf.Proofs.Rendering.Visits

/-! Who asks for which argument. A directive asks for its width, its precision and its value in this
order, the first two only where it has a star there, and nothing else asks. Requests are answered by
the arguments in order for as long as there are any. -/
namespace BoundedPrintf

inductive Request
  | width
  | precision
  | value
  deriving DecidableEq, Repr

def Spec.requests (spec : Spec) : List Request :=
  (if spec.width = .argument then [.width] else []) ++
    (if spec.precision = .argument then [.precision] else []) ++ [.value]

def Segment.requests : Segment → List Request
  | .directive spec => spec.requests
  | .literal _ | .percent | .unsupported _ | .incomplete => []

/-- The directive with answers in the place of its stars. -/
def Spec.answered (spec : Spec) (answer : Request → Argument.Supply) : Spec :=
  let spec := if spec.width = .argument then spec.withWidth (answer .width).star else spec
  if spec.precision = .argument then spec.withPrecision (answer .precision).star else spec

/-- The number of requests made by visits. -/
def Visit.requested (visits : List Visit) : Nat :=
  (visits.flatMap fun visit => visit.segment.requests).length

/-- The cursor over arguments after so many requests. Those behind the last argument were answered by
nothing. -/
def Cursor.after (args : List Argument) (requested : Nat) : Cursor :=
  { remaining := args.drop requested, consumed := min args.length requested }

variable {args : List Argument} {rendering : Rendering} {mode : Mode} {requested : Nat}

theorem Cursor.next_after (args : List Argument) (requested : Nat) :
    (after args requested).next = (args[requested]?, after args (requested + 1)) := by
  rcases Nat.lt_or_ge requested args.length with inside | behind
  · have rest := List.drop_eq_getElem_cons inside
    simp only [next, after, rest, List.getElem?_eq_getElem inside]
    congr 2
    omega
  · have none : args.drop requested = [] := List.drop_of_length_le behind
    have noMore : args.drop (requested + 1) = [] := List.drop_of_length_le (by omega)
    simp only [next, after, none, noMore, List.getElem?_eq_none behind]
    congr 2
    omega

theorem Spec.resolve_after (spec : Spec) (args : List Argument) (requested : Nat) :
    spec.resolve (Cursor.after args requested) =
      (spec.answered fun request => args[requested + spec.requests.idxOf request]?,
        Cursor.after args (requested + spec.requests.idxOf .value)) := by
  by_cases width : spec.width = .argument
  · by_cases precision : spec.precision = .argument
    · have asked : spec.requests = [.width, .precision, .value] := by
        simp only [requests, width, precision, if_true, List.cons_append, List.nil_append]
      simp only [resolve, answered, asked, width, precision, if_true, Cursor.next_after, withWidth]
      rfl
    · have asked : spec.requests = [.width, .value] := by
        simp only [requests, width, precision, if_true, if_false, List.cons_append, List.nil_append]
      simp only [resolve, answered, asked, width, precision, if_true, if_false, Cursor.next_after,
        withWidth]
      rfl
  · by_cases precision : spec.precision = .argument
    · have asked : spec.requests = [.precision, .value] := by
        simp only [requests, width, precision, if_true, if_false, List.cons_append, List.nil_append]
      simp only [resolve, answered, asked, width, precision, if_true, if_false, Cursor.next_after]
      rfl
    · have asked : spec.requests = [.value] := by
        simp only [requests, width, precision, if_false, List.nil_append]
      simp only [resolve, answered, asked, width, precision, if_false]
      rfl

theorem Spec.length_requests (spec : Spec) :
    spec.requests.length = spec.requests.idxOf .value + 1 := by
  by_cases width : spec.width = .argument <;> by_cases precision : spec.precision = .argument <;>
    simp only [requests, width, precision, if_true, if_false] <;> rfl

/-- Nothing but a directive requests an argument, whatever stands between its percent sign and its
last byte. -/
theorem Template.requests_piece {modifiers : Bytes} (all : ∀ b ∈ modifiers, isModifier b = true) :
    (piece (octet '%') modifiers).segment.requests = [] ∧
      ∀ (byte : UInt8) (rest : Bytes), isModifier byte = false → isConversion byte = false →
        (piece (octet '%') (modifiers ++ byte :: rest)).segment.requests = [] := by
  constructor
  · rw [piece_percent, Directive.parse_undecided all]
    rfl
  · intro byte rest decides unknown
    rw [piece_percent, Directive.parse_decided all decides]
    simp only [Directive.Draft.finish, unknown]
    split
    · rfl
    · split <;> rfl

namespace Rendering

variable [Build]

theorem directive_after (spec : Spec) (stands : rendering.cursor = Cursor.after args requested) :
    let answer := fun request => args[requested + spec.requests.idxOf request]?
    rendering.directive spec =
      { rendering with cursor := Cursor.after args (requested + spec.requests.length) }.apply
        ((spec.answered answer).effect (answer .value)) := by
  simp only [directive, stands, Spec.resolve_after, Cursor.next_after, Spec.length_requests,
    Nat.add_assoc]

omit [Build] in
theorem cursor_apply (rendering : Rendering) (effect : Effect) :
    (rendering.apply effect).1.cursor = rendering.cursor := by
  rw [apply_eq_perform, cursor_perform]

theorem cursor_segment_of_silent {segment : Segment} (silent : segment.requests = []) :
    (rendering.segment mode segment).1.cursor = rendering.cursor := by
  rw [segment_eq_perform, cursor_perform]
  cases segment with
  | directive spec => simp [Segment.requests, Spec.requests] at silent
  | literal | percent | unsupported | incomplete => rfl

theorem cursor_segment (stands : rendering.cursor = Cursor.after args requested)
    (segment : Segment) : (rendering.segment mode segment).1.cursor =
      Cursor.after args (requested + segment.requests.length) := by
  cases segment with
  | directive spec => rw [Rendering.segment, directive_after spec stands, cursor_apply, Segment.requests]
  | literal | percent | unsupported | incomplete =>
      rw [cursor_segment_of_silent rfl]
      exact stands

/-- Along its visits a run asks for the arguments in order, and for no others. -/
theorem cursor_after_visit {seen : List Visit}
    (stands : rendering.cursor = Cursor.after args (Visit.requested seen)) (offset : Nat)
    (segment : Segment) : (rendering.segment mode segment).1.cursor =
      Cursor.after args (Visit.requested (seen ++ [⟨offset, segment, rendering⟩])) := by
  rw [cursor_segment stands segment, Visit.requested, Visit.requested, List.flatMap_append,
    List.length_append, List.flatMap_singleton]

end Rendering

section Calls

variable [Build]

/-- Who asks for which argument in a call, by its outcome and its course. -/
structure AsksInOrder (buffer : Array UInt8) (template : Bytes) (args : List Argument) (mode : Mode)
    (outcome : Outcome) (visits : List Visit) : Prop where
  course : VisitsWhereRoom buffer template args mode visits
  /-- What a directive does depends on its own requests, which come right after those of the
  segments before it. -/
  answered : ∀ (front : List Visit) (visit : Visit) (back : List Visit) (spec : Spec),
    visits = front ++ visit :: back → visit.segment = .directive spec →
      let answer := fun request => args[Visit.requested front + spec.requests.idxOf request]?
      let cursor := Cursor.after args (Visit.requested front + spec.requests.length)
      visit.before.cursor = Cursor.after args (Visit.requested front) ∧
        visit.before.segment mode visit.segment =
          { visit.before with cursor }.apply ((spec.answered answer).effect (answer .value))
  /-- Other segments request nothing and leave the arguments alone. -/
  silent : ∀ visit ∈ visits, (∀ spec, visit.segment ≠ .directive spec) →
    visit.segment.requests = [] ∧
      (visit.before.segment mode visit.segment).1.cursor = visit.before.cursor
  /-- As many arguments are handed out as there are requests, or all of them. -/
  consumed : outcome.consumed = min args.length (Visit.requested visits)

/-- Every request of a call is one of a directive that it processes, and it is answered by the
argument at its place among all requests. Percent signs, unknown conversions and unfinished
directives request nothing, whatever stands inside them. -/
theorem asks_in_order {buffer : Array UInt8} (nonempty : 0 < buffer.size) (template : Bytes)
    (args : List Argument) (mode : Mode) :
    AsksInOrder buffer template args mode (render buffer template args mode)
        (visitsOfCall buffer nonempty template args mode) ∧
      ∀ modifiers : Bytes, (∀ b ∈ modifiers, isModifier b = true) →
        (Template.piece (octet '%') modifiers).segment.requests = [] ∧
          ∀ (byte : UInt8) (rest : Bytes), isModifier byte = false → isConversion byte = false →
            (Template.piece (octet '%') (modifiers ++ byte :: rest)).segment.requests = [] := by
  have initial : (Rendering.start buffer nonempty args).cursor = Cursor.after args 0 := by
    simp [Rendering.start, Cursor.ofList, Cursor.after]
  have kept := fun seen rendering offset segment (_ : rendering.sink.isFull = false) stands =>
    @Rendering.cursor_after_visit args rendering mode _ seen stands offset segment
  refine ⟨?_, fun modifiers => Template.requests_piece⟩
  constructor
  case course => exact visitsOfCall_whereRoom nonempty template args mode
  case answered =>
    intro front visit back spec split directive
    have stands := Rendering.history_before
      (fun seen later => later.cursor = Cursor.after args (Visit.requested seen)) kept initial split
    refine ⟨stands, ?_⟩
    rw [directive]
    exact Rendering.directive_after spec stands
  case silent =>
    intro visit _ other
    have none : visit.segment.requests = [] := by
      cases segment : visit.segment with
      | directive spec => exact absurd segment (other spec)
      | literal | percent | unsupported | incomplete => rfl
    exact ⟨none, Rendering.cursor_segment_of_silent none⟩
  case consumed =>
    have stands := Rendering.run_history
      (fun seen later => later.cursor = Cursor.after args (Visit.requested seen)) kept initial
      0 (Template.segments template)
    rw [consumed_render nonempty, Rendering.ofCall, stands]
    rfl

end Calls

/-- The star in a percent sign takes nothing, and the last directive finds nothing left. -/
theorem requests_beyond_arguments :
    let _ : Build := .checked
    let visits := visitsOfCall (Array.replicate 16 0xAA) (by decide) (ascii "%*d%*%%.*s%d")
      [.int 5, .int 42, .int 2, .text (ascii "abc")] .compat
    let outcome := render (Array.replicate 16 0xAA) (ascii "%*d%*%%.*s%d")
      [.int 5, .int 42, .int 2, .text (ascii "abc")] .compat
    Visit.requested visits = 5 ∧ outcome.consumed = 4 := by
  intro _
  obtain ⟨asks, _⟩ := asks_in_order (by decide : 0 < (Array.replicate 16 (0xAA : UInt8)).size)
    (ascii "%*d%*%%.*s%d") [.int 5, .int 42, .int 2, .text (ascii "abc")] .compat
  have requested : Visit.requested (visitsOfCall (Array.replicate 16 0xAA) (by decide)
      (ascii "%*d%*%%.*s%d") [.int 5, .int 42, .int 2, .text (ascii "abc")] .compat) = 5 := by
    cbv
  refine ⟨requested, asks.consumed.trans ?_⟩
  rw [requested]
  rfl

end BoundedPrintf
