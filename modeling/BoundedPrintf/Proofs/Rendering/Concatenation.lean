import Mathlib
import BoundedPrintf.Proofs.Rendering.Arguments
import BoundedPrintf.Proofs.Rendering.Contract
import BoundedPrintf.Proofs.Rendering.HeadStart
import BoundedPrintf.Proofs.Template.Pieces

/-! Rendering two templates in a row. Nothing passes from one directive to the next but the place
in the buffer and the arguments left, so a template goes on behind another one as if it were alone. -/
namespace BoundedPrintf

theorem Cursor.Reads.eq_later {args : List Argument} {cursor : Cursor} (reads : cursor.Reads args) :
    cursor = (Cursor.ofList (args.drop cursor.consumed)).later cursor.consumed := by
  obtain ⟨remaining, consumed⟩ := cursor
  obtain rfl : remaining = args.drop consumed := reads
  rfl

namespace Rendering

variable [Build] {rendering final : Rendering} {mode : Mode} {offset : Nat}

/-- A literal run is rendered like the two runs that it is cut into. -/
theorem run_literal_append (front : Bytes) {back : Bytes} (some : back ≠ [])
    (frontSize backSize : Nat) (rest : List Piece) :
    rendering.run mode offset (⟨.literal (front ++ back), frontSize + backSize⟩ :: rest) =
      rendering.run mode offset
        (⟨.literal front, frontSize⟩ :: ⟨.literal back, backSize⟩ :: rest) := by
  cases free : rendering.sink.isFull with
  | true => rw [run_of_full free, run_of_full free]
  | false =>
      have whole := rendering.sink.write_append front back
      rcases written : rendering.sink.write front with ⟨middle, _ | _⟩
      · simp only [written] at whole
        rw [run_of_done free (segment_literal rendering mode _ whole),
          run_of_done free (segment_literal rendering mode _ written)]
      · simp only [written] at whole
        refine Eq.trans ?_ (run_of_more free (segment_literal rendering mode _ written)).symm
        -- Where the front fills the buffer, the one run overflows and the other is not begun.
        cases freeMiddle : middle.isFull with
        | true =>
            rw [Sink.write_of_full freeMiddle some] at whole
            rw [run_of_done free (segment_literal rendering mode _ whole), run_of_full freeMiddle]
        | false =>
            rcases writtenBack : middle.write back with ⟨last, _ | _⟩
            · rw [writtenBack] at whole
              rw [run_of_done free (segment_literal rendering mode _ whole),
                run_of_done freeMiddle
                  (segment_literal { rendering with sink := middle } mode _ writtenBack)]
            · rw [writtenBack] at whole
              rw [run_of_more free (segment_literal rendering mode _ whole),
                run_of_more freeMiddle
                  (segment_literal { rendering with sink := middle } mode _ writtenBack),
                Nat.add_assoc]

/-- A run that ends for want of pieces goes on with those that follow. -/
theorem run_append {front back : List Piece}
    (complete : ∀ piece ∈ front, piece.segment ≠ .incomplete)
    (ended : rendering.run mode offset front = (final, none)) (free : final.sink.isFull = false) :
    rendering.run mode offset (front ++ back) =
      final.run mode (offset + Template.extent front) back := by
  induction front generalizing rendering offset with
  | nil =>
      cases ended
      rfl
  | cons piece rest ih =>
      obtain ⟨completeHere, completeRest⟩ := List.forall_mem_cons.mp complete
      obtain ⟨next, freeHere, step, endedRest⟩ := passes_of_ended completeHere ended free
      rw [List.cons_append, run_of_more freeHere step, Template.extent, ← Nat.add_assoc]
      exact ih completeRest endedRest

theorem run_cons_congr {xs ys : List Piece} (same : ∀ (rendering : Rendering) (offset : Nat),
    rendering.run mode offset xs = rendering.run mode offset ys) (piece : Piece) :
    rendering.run mode offset (piece :: xs) = rendering.run mode offset (piece :: ys) := by
  simp only [run, same]

/-- Cutting a template behind a finished directive or inside a literal run changes nothing. -/
theorem run_pieces_append {first : Bytes}
    (complete : ∀ piece ∈ Template.pieces first, piece.segment ≠ .incomplete)
    (second : Bytes) (rendering : Rendering) (offset : Nat) :
    rendering.run mode offset (Template.pieces (first ++ second)) =
      rendering.run mode offset (Template.pieces first ++ Template.pieces second) := by
  induction first using Template.pieces_induction generalizing rendering offset with
  | nil => rw [Template.pieces, List.nil_append, List.nil_append]
  | cons byte rest ih =>
      rw [Template.pieces_cons] at complete
      obtain ⟨completeHere, completeRest⟩ := List.forall_mem_cons.mp complete
      rcases Template.piece_append second completeHere with
        same | ⟨literal, plain, next, tail, rfl, goesOn⟩
      · have inside := Template.piece_size_le byte rest
        rw [List.cons_append, Template.pieces_cons byte (rest ++ second), same,
          List.drop_append_of_le_length (by omega), Template.pieces_cons byte rest,
          List.cons_append]
        exact run_cons_congr (ih completeRest) _
      · have alone :
            Template.pieces (byte :: rest) = [⟨.literal (byte :: rest), rest.length + 1⟩] := by
          rw [Template.pieces_literal literal, List.takeWhile_eq_self_iff.mpr plain,
            List.dropWhile_eq_nil_iff.mpr plain, Template.pieces]
        rw [Template.pieces_literal_append literal plain goesOn, alone,
          Template.pieces_literal goesOn]
        exact run_literal_append _ (List.cons_ne_nil _ _) _ _ _

/-- The second template is rendered with all that the first has left behind. -/
theorem ofCall_append {buffer : Array UInt8} {first : Bytes} {args : List Argument}
    (nonempty : 0 < buffer.size) (clean : ∀ b ∈ first, b ≠ 0)
    (complete : ∀ piece ∈ (Template.segments first).getLast?, piece.segment ≠ .incomplete)
    (ended : ofCall buffer nonempty first args mode = (final, none))
    (free : final.sink.isFull = false) (second : Bytes) :
    ofCall buffer nonempty (first ++ second) args mode =
      final.run mode (first.length + 0) (Template.segments second) := by
  have whole : Template.segments first = Template.pieces first := by
    rw [Template.segments, beforeNul_of_no_nul clean]
  have completeAll : ∀ piece ∈ Template.pieces first, piece.segment ≠ .incomplete := by
    intro piece member unfinished
    rw [whole] at complete
    exact complete piece (Template.getLast?_of_incomplete clean member unfinished) unfinished
  rw [ofCall, whole] at ended
  rw [ofCall, Template.segments, beforeNul_append clean, run_pieces_append completeAll,
    run_append completeAll ended free, Template.extent_pieces, Nat.zero_add, Nat.add_zero]
  rfl

theorem ofCall_reads (buffer : Array UInt8) (nonempty : 0 < buffer.size) (template : Bytes)
    (args : List Argument) (mode : Mode) :
    (ofCall buffer nonempty template args mode).1.cursor.Reads args :=
  run_reads (Cursor.reads_ofList args) mode 0 (Template.segments template)

section Behind

variable {buffer rest : Array UInt8} {first : Bytes} {args : List Argument}
  (nonempty : 0 < buffer.size) (restNonempty : 0 < rest.size) (small : buffer.size < 2 ^ 31)
  (ended : ofCall buffer nonempty first args mode = (final, none))
  (size : rest.size = buffer.size - final.sink.written)
include small ended size

/-- Where a call has ended, one into the rest of the buffer with the rest of the arguments begins. -/
theorem ofCall_ahead_start :
    Ahead { output := final.sink.output, handed := final.cursor.consumed, stores := final.stores }
      final (start rest restNonempty (args.drop final.cursor.consumed)) := by
  have capacity := capacity_ofCall buffer nonempty first args mode
  have reads := ofCall_reads buffer nonempty first args mode
  simp only [ended] at capacity reads
  have written := final.sink.written_add_room
  refine ⟨?_, ?_, ?_, ?_, .inr ?_⟩
  · simp [start, Sink.output]
  · simp only [start, Sink.room, Sink.capacity] at capacity written ⊢
    omega
  · exact reads.eq_later
  · simp [start]
  · simp only [maxCount]
    omega

theorem ofCall_append_ahead (clean : ∀ b ∈ first, b ≠ 0)
    (complete : ∀ piece ∈ (Template.segments first).getLast?, piece.segment ≠ .incomplete)
    (free : final.sink.isFull = false) (second : Bytes) :
    let whole := ofCall buffer nonempty (first ++ second) args mode
    let back := ofCall rest restNonempty second (args.drop final.cursor.consumed) mode
    Ahead { output := final.sink.output, handed := final.cursor.consumed, stores := final.stores }
        whole.1 back.1 ∧
      whole.2 = back.2.map (Stop.later first.length) := by
  have begins := ofCall_ahead_start nonempty restNonempty small ended size
  dsimp only
  rw [ofCall_append nonempty clean complete ended free]
  rcases run_ahead begins mode first.length 0 (Template.segments second) with ahead | ⟨_, exhausted⟩
  · exact ahead
  -- Neither of the two has room that the other one lacks.
  · exact absurd exhausted.spare (Nat.lt_irrefl 0)

end Behind

end Rendering

/-- A template behind another one, which ended with room to spare, is rendered as if it stood alone
in the rest of the buffer with the rest of the arguments. Only offsets and counts know what stands
in front. -/
theorem render_append [Build] {buffer rest : Array UInt8} {first : Bytes} {args : List Argument}
    {mode : Mode} {written : Nat} (clean : ∀ b ∈ first, b ≠ 0)
    (complete : ∀ piece ∈ (Template.segments first).getLast?, piece.segment ≠ .incomplete)
    (small : buffer.size < 2 ^ 31) (answered : (render buffer first args mode).result = .ok written)
    (spare : written < buffer.size - 1) (size : rest.size = buffer.size - written)
    (second : Bytes) :
    let front := render buffer first args mode
    let back := render rest second (args.drop front.consumed) mode
    let whole := render buffer (first ++ second) args mode
    let count := (emitted rest second (args.drop front.consumed) mode).length +
      back.result.terminator.length
    whole.buffer.toList = front.buffer.toList.take written ++ back.buffer.toList.take count ++
        buffer.toList.drop (written + count) ∧
      whole.result = (match back.result with
        | .ok more => .ok (written + more)
        | .error error => .error (error.later first.length)
        | .crash => .crash) ∧
      whole.stores = front.stores ++ back.stores.map (Store.later written) ∧
      whole.consumed = front.consumed + back.consumed := by
  have nonempty : 0 < buffer.size := by omega
  have restNonempty : 0 < rest.size := by omega
  have length := render_answers nonempty answered
  obtain ⟨final, ended, reached⟩ := ofCall_of_answer nonempty answered
  have free : final.sink.isFull = false := by
    have room := final.sink.written_add_room
    have capacity := Rendering.capacity_ofCall buffer nonempty first args mode
    simp only [ended] at capacity
    exact Sink.isFull_eq_false_iff.mpr (by omega)
  have consumed : (render buffer first args mode).consumed = final.cursor.consumed := by
    rw [consumed_render nonempty, ended]
  have stores : (render buffer first args mode).stores = final.stores := by
    rw [stores_render nonempty, ended]
  obtain ⟨ahead, same⟩ := Rendering.ofCall_append_ahead nonempty restNonempty small ended
    (reached ▸ size) clean complete free second
  have joined : emitted buffer (first ++ second) args mode = emitted buffer first args mode ++
      emitted rest second (args.drop final.cursor.consumed) mode := by
    have output : emitted buffer first args mode = final.sink.output := by
      rw [emitted_eq_output nonempty, ended]
    rw [emitted_eq_output nonempty, emitted_eq_output restNonempty, output]
    exact ahead.output
  dsimp only
  rw [consumed, stores]
  have result : (render buffer (first ++ second) args mode).result =
      match (render rest second (args.drop final.cursor.consumed) mode).result with
        | .ok more => .ok (written + more)
        | .error error => .error (error.later first.length)
        | .crash => .crash := by
    rw [result_render nonempty, result_render restNonempty, same, joined, List.length_append, length]
    generalize (Rendering.ofCall rest restNonempty second _ mode).2 = stop
    rcases stop with _ | _ | _ <;> rfl
  have terminator : (render buffer (first ++ second) args mode).result.terminator =
      (render rest second (args.drop final.cursor.consumed) mode).result.terminator := by
    rw [result]
    cases (render rest second (args.drop final.cursor.consumed) mode).result <;> rfl
  refine ⟨?_, result, ?_, ?_⟩
  · rw [take_terminated_buffer_render restNonempty,
      take_buffer_render nonempty (Nat.le_of_eq length.symm),
      List.take_of_length_le (Nat.le_of_eq length), toList_buffer_render nonempty, terminator, joined,
      List.length_append, length]
    simp only [List.append_assoc, Nat.add_assoc]
  · rw [stores_render nonempty, stores_render restNonempty, ahead.stores, Sink.length_output, reached]
  · rw [consumed_render nonempty, consumed_render restNonempty, ahead.cursor]
    rfl

/-- A count and an offset behind another template. -/
theorem count_and_rejection_behind :
    let _ : Build := .checked
    let whole := render (Array.replicate 9 0xAA) (ascii "a%s" ++ ascii "b%n%q")
      [.text (ascii "--"), .count 0] .strict
    whole.result = .error (.unsupportedDirective 6 (octet 'q')) ∧ whole.stores = [⟨0, 4⟩] ∧
      whole.consumed = 2 := by
  intro _
  have answered : (render (Array.replicate 9 0xAA) (ascii "a%s")
      [.text (ascii "--"), .count 0] .strict).result = .ok 3 := by cbv
  have last : (Template.segments (ascii "a%s")).getLast? =
      some ⟨.directive { conversion := octet 's' }, 2⟩ := by cbv
  obtain ⟨_, result, stores, consumed⟩ := @render_append _ (Array.replicate 9 0xAA)
    (Array.replicate 6 0xAA) (ascii "a%s") [.text (ascii "--"), .count 0] .strict 3
    (by decide +kernel) (by simp [last]) (by decide) answered (by decide) (by decide)
    (ascii "b%n%q")
  exact ⟨result.trans (by cbv), stores.trans (by cbv), consumed.trans (by cbv)⟩

end BoundedPrintf
