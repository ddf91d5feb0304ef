import Mathlib
import BoundedPrintf.Proofs.Rendering.Requests
import BoundedPrintf.Proofs.Rendering.Single

/-! A run knows its arguments by the answers to its requests. Arguments behind the last request have
no part in it, and where none is left the answer reads like a null argument. -/
namespace BoundedPrintf

open Argument (Supply)

/-- The supply with a null argument in the place of none. -/
def Argument.Supply.filled (supply : Supply) : Supply := some (supply.getD .null)

theorem Argument.Supply.star_filled (supply : Supply) : supply.filled.star = supply.star := by
  cases supply <;> rfl

namespace Spec

variable {spec : Spec} {answer other : Request → Supply}

/-- Every conversion reads null as it reads nothing. -/
theorem effect_filled [Build] (spec : Spec) (supply : Supply) :
    spec.effect supply.filled = spec.effect supply := by
  cases supply <;> rfl

theorem answered_congr (same : ∀ request ∈ spec.requests, request ≠ .value →
      (answer request).filled = (other request).filled) :
    spec.answered answer = spec.answered other := by
  have star : ∀ request ∈ spec.requests, request ≠ .value →
      (answer request).star = (other request).star := by
    intro request asked star
    rw [← Supply.star_filled, same request asked star, Supply.star_filled]
  by_cases width : spec.width = .argument
  · have widthStar := star .width (by simp [requests, width]) (by simp)
    by_cases precision : spec.precision = .argument
    · have precisionStar := star .precision (by simp [requests, precision]) (by simp)
      simp only [answered, width, if_true, widthStar, precisionStar]
    · simp only [answered, width, if_true, widthStar, withWidth, precision, if_false]
  · by_cases precision : spec.precision = .argument
    · have precisionStar := star .precision (by simp [requests, precision]) (by simp)
      simp only [answered, width, if_false, precision, if_true, precisionStar]
    · simp only [answered, width, precision, if_false]

theorem action_after [Build] (spec : Spec) (args : List Argument) (requested : Nat) :
    spec.action (Cursor.after args requested) =
      let answer := fun request => args[requested + spec.requests.idxOf request]?
      (.ofEffect ((spec.answered answer).effect (answer .value)),
        Cursor.after args (requested + spec.requests.length)) := by
  simp only [action, resolve_after, Cursor.next_after, length_requests, Nat.add_assoc]

end Spec

/-- Arguments that cannot be told apart by so many requests. -/
def AnswerAlike (args others : List Argument) (requests : Nat) : Prop :=
  ∀ place < requests, args[place]?.getD .null = others[place]?.getD .null

variable {args others : List Argument} {requested : Nat} {mode : Mode}

theorem Spec.action_alike [Build] (spec : Spec)
    (alike : AnswerAlike args others (requested + spec.requests.length)) :
    (spec.action (Cursor.after others requested)).1 =
      (spec.action (Cursor.after args requested)).1 := by
  have same : ∀ request ∈ spec.requests,
      Supply.filled others[requested + spec.requests.idxOf request]? =
        Supply.filled args[requested + spec.requests.idxOf request]? := by
    intro request asked
    have inside := List.idxOf_lt_length_iff.mpr asked
    exact congrArg some (alike _ (by omega)).symm
  have value := same .value (by simp [requests])
  rw [action_after, action_after]
  dsimp only
  rw [answered_congr fun request asked _ => same request asked, ← effect_filled, value,
    effect_filled]

theorem Segment.action_after [Build] (segment : Segment) (mode : Mode) (args : List Argument)
    (requested : Nat) : (segment.action mode (Cursor.after args requested)).2 =
      Cursor.after args (requested + segment.requests.length) := by
  cases segment with
  | directive spec => rw [action, Spec.action_after, requests]
  | literal | percent | unsupported | incomplete => rfl

theorem Segment.action_alike [Build] (segment : Segment) (mode : Mode)
    (alike : AnswerAlike args others (requested + segment.requests.length)) :
    (segment.action mode (Cursor.after others requested)).1 =
      (segment.action mode (Cursor.after args requested)).1 := by
  cases segment with
  | directive spec => exact spec.action_alike alike
  | literal | percent | unsupported | incomplete => rfl

theorem Visit.requested_cons (visit : Visit) (rest : List Visit) :
    Visit.requested (visit :: rest) =
      visit.segment.requests.length + Visit.requested rest := by
  simp only [Visit.requested, List.flatMap_cons, List.length_append]

theorem Visit.requested_singleton (visit : Visit) :
    Visit.requested [visit] = visit.segment.requests.length := by
  simp only [Visit.requested, List.flatMap_singleton]

theorem Visit.requested_append (front : List Visit) (visit : Visit) (back : List Visit) :
    Visit.requested (front ++ visit :: back) =
      Visit.requested front + visit.segment.requests.length + Visit.requested back := by
  simp only [Visit.requested, List.flatMap_append, List.flatMap_cons, List.length_append, Nat.add_assoc]

/-- The visits of a run, which begins after so many requests, would act with other arguments as they
do with these. -/
def ActAlike [Build] (mode : Mode) (args others : List Argument) (requested : Nat)
    (visits : List Visit) : Prop :=
  ∀ (front back : List Visit) (visit : Visit), visits = front ++ visit :: back →
    (visit.segment.action mode (Cursor.after others (requested + Visit.requested front))).1 =
      (visit.segment.action mode (Cursor.after args (requested + Visit.requested front))).1

section Alike

variable [Build] {visit : Visit} {visits : List Visit}

theorem AnswerAlike.actAlike
    (alike : AnswerAlike args others (requested + Visit.requested visits)) :
    ActAlike mode args others requested visits := by
  rintro front back visit rfl
  refine visit.segment.action_alike mode fun place inside => alike place ?_
  rw [Visit.requested_append]
  omega

theorem ActAlike.head (alike : ActAlike mode args others requested (visit :: visits)) :
    (visit.segment.action mode (Cursor.after others requested)).1 =
      (visit.segment.action mode (Cursor.after args requested)).1 :=
  alike [] visits visit rfl

theorem ActAlike.tail (alike : ActAlike mode args others requested (visit :: visits)) :
    ActAlike mode args others (requested + visit.segment.requests.length) visits := by
  rintro front back next rfl
  have later := alike (visit :: front) back next rfl
  rwa [Visit.requested_cons, ← Nat.add_assoc] at later

end Alike

section Calls

variable [Build]

namespace Rendering

variable {rendering : Rendering}

theorem segment_alike (stands : rendering.cursor = Cursor.after args requested) {segment : Segment}
    (alike : (segment.action mode (Cursor.after others requested)).1 =
      (segment.action mode (Cursor.after args requested)).1) :
    { rendering with cursor := Cursor.after others requested }.segment mode segment =
      ({ (rendering.segment mode segment).1 with
          cursor := Cursor.after others (requested + segment.requests.length) },
        (rendering.segment mode segment).2) := by
  simp only [segment_eq_perform, stands, alike, Segment.action_after, perform_with_cursor]

/-- Runs whose visits act alike do the same, each with its own arguments. -/
theorem run_alike {offset : Nat} {pieces : List Piece}
    (stands : rendering.cursor = Cursor.after args requested)
    (alike : ActAlike mode args others requested (rendering.visits mode offset pieces)) :
    { rendering with cursor := Cursor.after others requested }.run mode offset pieces =
      ({ (rendering.run mode offset pieces).1 with
          cursor := Cursor.after others
            (requested + Visit.requested (rendering.visits mode offset pieces)) },
        (rendering.run mode offset pieces).2) := by
  induction pieces generalizing rendering requested offset with
  | nil => rfl
  | cons piece rest ih =>
      cases free : rendering.sink.isFull with
      | true =>
          rw [run_of_full free, visits_of_full free]
          exact run_of_full free
      | false =>
          have here : (piece.segment.action mode (Cursor.after others requested)).1 =
              (piece.segment.action mode (Cursor.after args requested)).1 := by
            obtain ⟨later, course⟩ : ∃ later, rendering.visits mode offset (piece :: rest) =
                ⟨offset, piece.segment, rendering⟩ :: later := visits_cons free
            exact (course ▸ alike).head
          have freeOther :
              ({ rendering with cursor := Cursor.after others requested } : Rendering).sink.isFull =
                false := free
          have other := segment_alike stands here
          have cursor : (rendering.segment mode piece.segment).1.cursor =
              Cursor.after args (requested + piece.segment.requests.length) :=
            cursor_segment stands piece.segment
          rcases step : rendering.segment mode piece.segment with ⟨next, progress⟩
          rw [step] at other cursor
          by_cases more : progress = .more
          · rw [more] at step other
            rw [visits_of_more free step] at alike ⊢
            rw [Visit.requested_cons, ← Nat.add_assoc, run_of_more freeOther other,
              run_of_more free step]
            exact ih cursor alike.tail
          · rw [run_of_ended freeOther other more, run_of_ended free step more,
              visits_of_ended free step more, Visit.requested_singleton]

end Rendering

/-- The number of requests that a call makes. -/
def requestsOfCall (buffer : Array UInt8) (template : Bytes) (args : List Argument)
    (mode : Mode) : Nat :=
  if nonempty : 0 < buffer.size then
    Visit.requested (visitsOfCall buffer nonempty template args mode)
  else 0

variable {buffer : Array UInt8} {template : Bytes}

theorem render_acting_alike (alike : ∀ nonempty : 0 < buffer.size,
      ActAlike mode args others 0 (visitsOfCall buffer nonempty template args mode)) :
    render buffer template others mode =
      { render buffer template args mode with
        consumed := min others.length (requestsOfCall buffer template args mode) } := by
  by_cases nonempty : 0 < buffer.size
  · have asked : requestsOfCall buffer template args mode =
        0 + Visit.requested (visitsOfCall buffer nonempty template args mode) := by
      simp only [requestsOfCall, nonempty, dite_true, Nat.zero_add]
    have stands : (Rendering.start buffer nonempty args).cursor = Cursor.after args 0 := by
      simp [Rendering.start, Cursor.ofList, Cursor.after]
    have begins : Rendering.start buffer nonempty others =
        { Rendering.start buffer nonempty args with cursor := Cursor.after others 0 } := by
      simp [Rendering.start, Cursor.ofList, Cursor.after]
    have ended := Rendering.run_alike stands (alike nonempty)
    rw [← begins] at ended
    simp only [render_eq_ofCall nonempty, Rendering.ofCall, ended, asked]
    rfl
  · have closed : Sink.ofBuffer? buffer = none := by simp [Sink.ofBuffer?, nonempty]
    simp [render, closed, requestsOfCall, nonempty]

theorem render_alike
    (alike : AnswerAlike args others (requestsOfCall buffer template args mode)) :
    render buffer template others mode =
      { render buffer template args mode with
        consumed := min others.length (requestsOfCall buffer template args mode) } := by
  refine render_acting_alike fun nonempty => AnswerAlike.actAlike ?_
  simpa only [requestsOfCall, nonempty, dite_true, Nat.zero_add] using alike

/-- Null arguments behind the last one change nothing but how many are handed out, and arguments
that are not requested change nothing at all. -/
theorem null_and_surplus_arguments (buffer : Array UInt8) (template : Bytes) (args : List Argument)
    (mode : Mode) :
    let requests := requestsOfCall buffer template args mode
    (∀ count, render buffer template (args ++ List.replicate count .null) mode =
      { render buffer template args mode with consumed := min (args.length + count) requests }) ∧
    (requests ≤ args.length → ∀ surplus,
      render buffer template (args ++ surplus) mode = render buffer template args mode) := by
  intro requests
  constructor
  · intro count
    have alike : AnswerAlike args (args ++ List.replicate count .null) requests := by
      intro place _
      rcases Nat.lt_or_ge place args.length with inside | behind
      · rw [List.getElem?_append_left inside]
      · rw [List.getElem?_append_right behind, List.getElem?_eq_none behind,
          List.getElem?_replicate]
        split <;> rfl
    rw [render_alike alike, List.length_append, List.length_replicate]
  · intro enough surplus
    have itself : AnswerAlike args args requests := fun _ _ => rfl
    have alike : AnswerAlike args (args ++ surplus) requests := by
      intro place inside
      rw [List.getElem?_append_left (by omega)]
    -- Both calls hand out one argument for each request.
    have handed : min (args ++ surplus).length requests = min args.length requests := by
      rw [List.length_append]
      omega
    calc render buffer template (args ++ surplus) mode
        = { render buffer template args mode with
            consumed := min (args ++ surplus).length requests } := render_alike alike
      _ = { render buffer template args mode with consumed := min args.length requests } := by
          rw [handed]
      _ = render buffer template args mode := (render_alike itself).symm

end Calls

/-- The width is the first of the two arguments, and the third is never asked for. -/
theorem surplus_behind_star :
    let _ : Build := .checked
    let buffer : Array UInt8 := Array.replicate 8 0xAA
    requestsOfCall buffer (ascii "[%*d]") [.int 4, .int 42] .compat ≤ 2 ∧
      (render buffer (ascii "[%*d]") [.int 4, .int 42, .count 0] .compat).result = .ok 6 := by
  intro _ buffer
  have requests : requestsOfCall (Array.replicate 8 0xAA) (ascii "[%*d]") [.int 4, .int 42]
      .compat ≤ 2 := by
    cbv
  have same := (null_and_surplus_arguments (Array.replicate 8 0xAA) (ascii "[%*d]")
    [.int 4, .int 42] .compat).2 requests [.count 0]
  refine ⟨requests, ?_⟩
  rw [List.cons_append, List.cons_append, List.nil_append] at same
  rw [same]
  cbv

end BoundedPrintf
