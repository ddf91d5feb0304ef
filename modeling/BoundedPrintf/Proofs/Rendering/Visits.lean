import BoundedPrintf.Proofs.Rendering.Contract
import BoundedPrintf.Proofs.Template.Cuts

/-! The course of a run: the segments that it processes, each with its place in the template and with
the rendering that it finds. What happens before a segment is the run of the part of the template in
front of it, and nothing else. -/
namespace BoundedPrintf

/-- A segment that a run processes, the offset of its first byte and the rendering before it. -/
structure Visit where
  offset : Nat
  segment : Segment
  before : Rendering

namespace Rendering

variable [Build]

/-- The segments that a run processes, in order. The last one may be the one that overflows the
buffer, is rejected, crashes or is unfinished. -/
def visits (mode : Mode) (rendering : Rendering) (offset : Nat) : List Piece → List Visit
  | [] => []
  | piece :: rest =>
      if rendering.sink.isFull then []
      else
        ⟨offset, piece.segment, rendering⟩ ::
          match rendering.segment mode piece.segment with
          | (next, .more) => next.visits mode (offset + piece.size) rest
          | (_, .done) | (_, .rejected _) | (_, .crashed) => []

variable {rendering next before : Rendering} {mode : Mode} {offset : Nat} {piece : Piece}
  {rest pieces passed : List Piece} {progress : Progress} {front back : List Visit} {visit : Visit}

theorem visits_of_full (full : rendering.sink.isFull = true) :
    rendering.visits mode offset pieces = [] := by
  cases pieces with
  | nil => rfl
  | cons piece rest => simp only [visits, full, if_true]

section Steps

variable (free : rendering.sink.isFull = false)
include free

theorem visits_of_more (step : rendering.segment mode piece.segment = (next, .more)) :
    rendering.visits mode offset (piece :: rest) =
      ⟨offset, piece.segment, rendering⟩ :: next.visits mode (offset + piece.size) rest := by
  simp [visits, free, step]

theorem visits_of_ended (step : rendering.segment mode piece.segment = (next, progress))
    (ended : progress ≠ .more) :
    rendering.visits mode offset (piece :: rest) = [⟨offset, piece.segment, rendering⟩] := by
  cases progress with
  | more => exact absurd rfl ended
  | done | rejected | crashed => simp [visits, free, step]

end Steps

/-- What holds before the first visit and is kept by every visit holds of all visits and of the
rendering that they lead to. -/
theorem run_history (holds : List Visit → Rendering → Prop)
    (kept : ∀ (seen : List Visit) (rendering : Rendering) (offset : Nat) (segment : Segment),
      rendering.sink.isFull = false → holds seen rendering →
        holds (seen ++ [⟨offset, segment, rendering⟩]) (rendering.segment mode segment).1)
    (initial : holds [] rendering) (offset : Nat) (pieces : List Piece) :
    holds (rendering.visits mode offset pieces) (rendering.run mode offset pieces).1 := by
  suffices going : ∀ (seen : List Visit) (rendering : Rendering) (offset : Nat),
      holds seen rendering → holds (seen ++ rendering.visits mode offset pieces)
        (rendering.run mode offset pieces).1 from
    going [] rendering offset initial
  induction pieces with
  | nil =>
      intro seen rendering offset held
      simpa only [visits, run, List.append_nil] using held
  | cons piece rest ih =>
      intro seen rendering offset held
      cases free : rendering.sink.isFull with
      | true => simpa only [visits_of_full free, run_of_full free, List.append_nil] using held
      | false =>
          have following := kept seen rendering offset piece.segment free held
          rcases step : rendering.segment mode piece.segment with ⟨next, progress⟩
          rw [step] at following
          by_cases more : progress = .more
          · rw [more] at step
            rw [visits_of_more free step, run_of_more free step, List.append_cons]
            exact ih _ next _ following
          · rwa [visits_of_ended free step more, run_of_ended free step more]

theorem visits_cons (free : rendering.sink.isFull = false) : ∃ later,
    rendering.visits mode offset (piece :: rest) =
      ⟨offset, piece.segment, rendering⟩ :: later := by
  rcases step : rendering.segment mode piece.segment with ⟨next, progress⟩
  by_cases more : progress = .more
  · rw [more] at step
    exact ⟨_, visits_of_more free step⟩
  · exact ⟨_, visits_of_ended free step more⟩

/-- How a run comes to a visit: it passes the pieces in front, makes the visits before on its way and
has room left. -/
structure Reaches (mode : Mode) (rendering : Rendering) (offset : Nat) (passed : List Piece)
    (next : Piece) (front : List Visit) (visit : Visit) : Prop where
  place : visit.offset = offset + Template.extent passed
  segment : visit.segment = next.segment
  free : visit.before.sink.isFull = false
  segments : passed.map Piece.segment = front.map Visit.segment
  course : rendering.visits mode offset passed = front
  ended : rendering.run mode offset passed = (visit.before, none)

theorem visits_split (split : rendering.visits mode offset pieces = front ++ visit :: back) :
    ∃ passed piece rest, pieces = passed ++ piece :: rest ∧
      rendering.Reaches mode offset passed piece front visit := by
  induction pieces generalizing rendering offset front with
  | nil => simp [visits] at split
  | cons piece rest ih =>
      cases free : rendering.sink.isFull with
      | true => simp [visits_of_full free] at split
      | false =>
          cases front with
          | nil =>
              obtain ⟨later, course⟩ := visits_cons free
              obtain ⟨rfl, _⟩ := List.cons.inj (course.symm.trans split)
              exact ⟨[], piece, rest, rfl, rfl, rfl, free, rfl, rfl, rfl⟩
          | cons first front =>
              rcases step : rendering.segment mode piece.segment with ⟨next, progress⟩
              by_cases more : progress = .more
              · rw [more] at step
                rw [visits_of_more free step] at split
                obtain ⟨rfl, later⟩ := List.cons.inj split
                obtain ⟨passed, found, behind, rfl, reaches⟩ := ih later
                refine ⟨piece :: passed, found, behind, rfl, ?_, reaches.segment, reaches.free,
                  ?_, ?_, ?_⟩
                · rw [reaches.place, Template.extent, Nat.add_assoc]
                · rw [List.map_cons, List.map_cons, reaches.segments]
                · rw [visits_of_more free step, reaches.course]
                · rw [run_of_more free step, reaches.ended]
              · simp [visits_of_ended free step more] at split

/-- A run that ends for want of pieces makes a visit to the piece that follows. -/
theorem visits_of_passed (complete : ∀ piece ∈ passed, piece.segment ≠ .incomplete)
    (ended : rendering.run mode offset passed = (before, none))
    (free : before.sink.isFull = false) :
    ∃ later, rendering.visits mode offset (passed ++ piece :: rest) =
      rendering.visits mode offset passed ++
        ⟨offset + Template.extent passed, piece.segment, before⟩ :: later := by
  induction passed generalizing rendering offset with
  | nil =>
      cases ended
      exact visits_cons free
  | cons head passed ih =>
      obtain ⟨completeHere, completeRest⟩ := List.forall_mem_cons.mp complete
      obtain ⟨next, freeHere, step, endedRest⟩ := passes_of_ended completeHere ended free
      obtain ⟨later, course⟩ := ih completeRest endedRest
      refine ⟨later, ?_⟩
      rw [List.cons_append, visits_of_more freeHere step, course, visits_of_more freeHere step,
        Template.extent, Nat.add_assoc, List.cons_append]

/-- What holds of the visits so far holds at each visit. -/
theorem history_before (holds : List Visit → Rendering → Prop)
    (kept : ∀ (seen : List Visit) (rendering : Rendering) (offset : Nat) (segment : Segment),
      rendering.sink.isFull = false → holds seen rendering →
        holds (seen ++ [⟨offset, segment, rendering⟩]) (rendering.segment mode segment).1)
    (initial : holds [] rendering)
    (split : rendering.visits mode offset pieces = front ++ visit :: back) :
    holds front visit.before := by
  obtain ⟨passed, piece, rest, _, reaches⟩ := visits_split split
  have reached := run_history holds kept initial offset passed
  rwa [reaches.course, reaches.ended] at reached

/-- No output is taken back on the way from visit to visit. -/
theorem outputs_of_visits (rendering : Rendering) (mode : Mode) (offset : Nat)
    (pieces : List Piece) :
    (rendering.visits mode offset pieces).Pairwise
        (fun earlier later => earlier.before.sink.output <+: later.before.sink.output) ∧
      ∀ visit ∈ rendering.visits mode offset pieces,
        visit.before.sink.output <+: (rendering.run mode offset pieces).1.sink.output := by
  apply run_history fun seen later =>
    seen.Pairwise (fun earlier later => earlier.before.sink.output <+: later.before.sink.output) ∧
      ∀ visit ∈ seen, visit.before.sink.output <+: later.sink.output
  · rintro seen later offset segment - ⟨ordered, front⟩
    obtain ⟨stream, fitted, taken⟩ := later.segment_takes mode segment
    have grows : later.sink.output <+: (later.segment mode segment).1.sink.output :=
      ⟨_, taken.output.symm⟩
    constructor
    · rw [List.pairwise_append]
      refine ⟨ordered, List.pairwise_singleton _ _, ?_⟩
      intro visit member last added
      obtain rfl := List.mem_singleton.mp added
      exact front visit member
    · intro visit member
      rcases List.mem_append.mp member with earlier | added
      · exact (front visit earlier).trans grows
      · obtain rfl := List.mem_singleton.mp added
        exact grows
  · exact ⟨.nil, List.forall_mem_nil _⟩

end Rendering

section Call

variable [Build]

/-- The course of a call. -/
def visitsOfCall (buffer : Array UInt8) (nonempty : 0 < buffer.size) (template : Bytes)
    (args : List Argument) (mode : Mode) : List Visit :=
  (Rendering.start buffer nonempty args).visits mode 0 (Template.segments template)

variable {buffer : Array UInt8} {nonempty : 0 < buffer.size} {template : Bytes}
  {args : List Argument} {mode : Mode} {front back : List Visit} {visit : Visit}

/-- A visit stands between two pieces of the template, and what happened before it is the call of
the part of the template in front. -/
theorem visitsOfCall_split
    (split : visitsOfCall buffer nonempty template args mode = front ++ visit :: back) :
    ∃ passed next rest, Template.segments template = passed ++ next :: rest ∧
      visit.offset = Template.extent passed ∧ visit.segment = next.segment ∧
      passed.map Piece.segment = front.map Visit.segment ∧
      visit.before.sink.isFull = false ∧
      Rendering.ofCall buffer nonempty (template.take visit.offset) args mode =
        (visit.before, none) := by
  obtain ⟨passed, next, rest, cut, reaches⟩ := Rendering.visits_split split
  have offset : visit.offset = Template.extent passed := reaches.place.trans (Nat.zero_add _)
  refine ⟨passed, next, rest, cut, offset, reaches.segment, reaches.segments, reaches.free, ?_⟩
  rw [Rendering.ofCall, offset, Template.segments_take cut]
  exact reaches.ended

/-- The part of the template in front of a visit is answered with room to spare. -/
theorem render_before_visit (member : visit ∈ visitsOfCall buffer nonempty template args mode) :
    (render buffer (template.take visit.offset) args mode).result =
        .ok (emitted buffer (template.take visit.offset) args mode).length ∧
      (emitted buffer (template.take visit.offset) args mode).length < buffer.size - 1 ∧
      visit.before.sink.written = (emitted buffer (template.take visit.offset) args mode).length := by
  obtain ⟨front, back, split⟩ := List.append_of_mem member
  obtain ⟨_, _, _, _, _, _, _, free, call⟩ := visitsOfCall_split split
  have capacity := Rendering.capacity_ofCall buffer nonempty (template.take visit.offset) args mode
  have written := visit.before.sink.written_add_room
  have room := Sink.isFull_eq_false_iff.mp free
  simp only [call] at capacity
  rw [result_render nonempty, emitted_eq_output nonempty, call, Sink.length_output]
  refine ⟨rfl, ?_, rfl⟩
  dsimp only
  omega

theorem outputs_of_call (nonempty : 0 < buffer.size) (template : Bytes) (args : List Argument)
    (mode : Mode) : (visitsOfCall buffer nonempty template args mode).Pairwise
        (fun earlier later => earlier.before.sink.output <+: later.before.sink.output) ∧
      ∀ visit ∈ visitsOfCall buffer nonempty template args mode,
        visit.before.sink.output <+: emitted buffer template args mode := by
  rw [emitted_eq_output nonempty]
  exact Rendering.outputs_of_visits _ mode 0 (Template.segments template)

/-- The course of a call through its template. -/
structure VisitsWhereRoom (buffer : Array UInt8) (template : Bytes) (args : List Argument)
    (mode : Mode) (visits : List Visit) : Prop where
  /-- The visits are to the first segments of the template, in order. -/
  placed : ∀ (front back : List Visit) (visit : Visit), visits = front ++ visit :: back →
    ∃ passed next rest, Template.segments template = passed ++ next :: rest ∧
      visit.offset = Template.extent passed ∧ visit.segment = next.segment ∧
      passed.map Piece.segment = front.map Visit.segment
  /-- A segment is processed where the part of the template in front of it leaves room, and nowhere
  else. -/
  reached : ∀ (passed : List Piece) (next : Piece) (rest : List Piece),
    Template.segments template = passed ++ next :: rest →
      ((∃ visit ∈ visits, visit.offset = Template.extent passed ∧ visit.segment = next.segment) ↔
        ∃ written, (render buffer (template.take (Template.extent passed)) args mode).result =
          .ok written ∧ written < buffer.size - 1)

theorem visitsOfCall_whereRoom (nonempty : 0 < buffer.size) (template : Bytes)
    (args : List Argument) (mode : Mode) : VisitsWhereRoom buffer template args mode
      (visitsOfCall buffer nonempty template args mode) := by
  constructor
  case placed =>
    intro front back visit split
    obtain ⟨passed, next, rest, cut, offset, segment, same, _⟩ := visitsOfCall_split split
    exact ⟨passed, next, rest, cut, offset, segment, same⟩
  case reached =>
    intro passed next rest cut
    constructor
    · rintro ⟨visit, member, offset, _⟩
      obtain ⟨answered, spare, _⟩ := render_before_visit member
      rw [offset] at answered spare
      exact ⟨_, answered, spare⟩
    · rintro ⟨written, answered, spare⟩
      obtain ⟨before, ended, reached⟩ := ofCall_of_answer nonempty answered
      have capacity := Rendering.capacity_ofCall buffer nonempty
        (template.take (Template.extent passed)) args mode
      simp only [ended] at capacity
      have room := before.sink.written_add_room
      have free : before.sink.isFull = false := Sink.isFull_eq_false_iff.mpr (by omega)
      rw [Rendering.ofCall, Template.segments_take cut] at ended
      have complete := Template.complete_before (fun _ => beforeNul_no_nul _) cut
      obtain ⟨later, course⟩ := Rendering.visits_of_passed complete ended free
      refine ⟨⟨0 + Template.extent passed, next.segment, before⟩, ?_, Nat.zero_add _, rfl⟩
      rw [visitsOfCall, cut, course]
      exact List.mem_append_right _ List.mem_cons_self

end Call

end BoundedPrintf
