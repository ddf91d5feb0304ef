import Mathlib
import BoundedPrintf.Proofs.Rendering.Crashing
import BoundedPrintf.Proofs.Rendering.HeadStart

/-! Truncation takes a first part and nothing else. A smaller buffer receives what a larger one
receives up to its own end, and from there on it knows neither of arguments nor of errors. -/
namespace BoundedPrintf

section Sizes

variable [Build] {small large : Array UInt8}

namespace Rendering

omit [Build] in
/-- The larger buffer has no lead but more room. -/
theorem start_ahead (nonempty : 0 < small.size) (le : small.size ≤ large.size)
    (args : List Argument) :
    Ahead { spare := large.size - small.size } (start large (Nat.lt_of_lt_of_le nonempty le) args)
      (start small nonempty args) := by
  refine ⟨rfl, ?_, rfl, rfl, .inl rfl⟩
  simp only [start, Sink.room, Sink.capacity]
  omega

theorem ofCall_ahead (nonempty : 0 < small.size) (le : small.size ≤ large.size) (template : Bytes)
    (args : List Argument) (mode : Mode) :
    let long := ofCall large (Nat.lt_of_lt_of_le nonempty le) template args mode
    let short := ofCall small nonempty template args mode
    (Ahead { spare := large.size - small.size } long.1 short.1 ∧ long.2 = short.2) ∨
      (short.2 = none ∧ Exhausted { spare := large.size - small.size } long.1 short.1) := by
  rcases run_ahead (start_ahead nonempty le args) mode 0 0 (Template.segments template) with
    ⟨ahead, same⟩ | stopped
  · refine .inl ⟨ahead, same.trans ?_⟩
    rw [Stop.later_zero, Option.map_id, id]
    rfl
  · exact .inr stopped

end Rendering

theorem emitted_of_ahead {template : Bytes} {args : List Argument} {mode : Mode} {spare : Nat}
    (nonempty : 0 < small.size) (nonemptyLarge : 0 < large.size)
    (ahead : Rendering.Ahead { spare }
      (Rendering.ofCall large nonemptyLarge template args mode).1
      (Rendering.ofCall small nonempty template args mode).1) :
    emitted small template args mode = emitted large template args mode := by
  rw [emitted_eq_output nonempty, emitted_eq_output nonemptyLarge]
  exact ahead.output.symm

/-- Both calls end alike, or the smaller buffer is full of the first part of the larger one's
output. -/
theorem render_smaller (nonempty : 0 < small.size) (le : small.size ≤ large.size) (template : Bytes)
    (args : List Argument) (mode : Mode) :
    (emitted small template args mode = emitted large template args mode ∧
      (render small template args mode).result = (render large template args mode).result) ∨
    ((render small template args mode).result = .ok (small.size - 1) ∧
      (emitted small template args mode).length = small.size - 1 ∧
      emitted small template args mode <+: emitted large template args mode) := by
  have nonemptyLarge := Nat.lt_of_lt_of_le nonempty le
  rw [result_render nonempty, result_render nonemptyLarge]
  rcases Rendering.ofCall_ahead nonempty le template args mode with
    ⟨ahead, same⟩ | ⟨stopped, exhausted⟩
  · have output := emitted_of_ahead nonempty nonemptyLarge ahead
    exact .inl ⟨output, by rw [output, same]⟩
  · have length : (emitted small template args mode).length = small.size - 1 := by
      have room := Sink.isFull_iff.mp exhausted.full
      have written := (Rendering.ofCall small nonempty template args mode).1.sink.written_add_room
      rw [Rendering.capacity_ofCall] at written
      rw [emitted_eq_output nonempty, Sink.length_output]
      omega
    refine .inr ⟨by rw [stopped, length], length, ?_⟩
    rw [emitted_eq_output nonempty, emitted_eq_output nonemptyLarge]
    exact exhausted.output

/-- Whatever the ending, the smaller buffer receives the part that fits. -/
theorem emitted_smaller (nonempty : 0 < small.size) (le : small.size ≤ large.size)
    (template : Bytes) (args : List Argument) (mode : Mode) :
    emitted small template args mode =
      (emitted large template args mode).take (small.size - 1) := by
  have fits := length_emitted_le nonempty template args mode
  rcases render_smaller nonempty le template args mode with ⟨same, _⟩ | ⟨_, length, front⟩
  · rw [← same, List.take_of_length_le fits]
  · rw [← length]
    exact List.prefix_iff_eq_take.mp front

/-- Calls on buffers of one size differ in nothing but what the buffers held before. -/
theorem render_of_same_size (same : small.size = large.size) (template : Bytes)
    (args : List Argument) (mode : Mode) :
    (render small template args mode).result = (render large template args mode).result ∧
      (render small template args mode).stores = (render large template args mode).stores ∧
      emitted small template args mode = emitted large template args mode := by
  rcases Nat.eq_zero_or_pos small.size with empty | nonempty
  · obtain rfl : small = large :=
      (Array.eq_empty_of_size_eq_zero empty).trans
        (Array.eq_empty_of_size_eq_zero (same.symm.trans empty)).symm
    exact ⟨rfl, rfl, rfl⟩
  · have nonemptyLarge : 0 < large.size := same ▸ nonempty
    rcases Rendering.ofCall_ahead nonempty same.le template args mode with
      ⟨ahead, ended⟩ | ⟨-, exhausted⟩
    · have output := emitted_of_ahead nonempty nonemptyLarge ahead
      have stores := ahead.stores
      simp only [List.length_nil, List.nil_append, Store.later_zero, List.map_id] at stores
      rw [result_render nonempty, result_render nonemptyLarge, stores_render nonempty,
        stores_render nonemptyLarge, output, ended, stores]
      exact ⟨rfl, rfl, rfl⟩
    · have spare := exhausted.spare
      simp only at spare
      omega

/-- A call that is stopped in a large buffer is stopped in a smaller one too, if that is not full
before. -/
theorem render_smaller_of_stopped (nonempty : 0 < small.size) (le : small.size ≤ large.size)
    (template : Bytes) (args : List Argument) (mode : Mode)
    (stopped : ∀ written, (render large template args mode).result ≠ .ok written) :
    if (emitted large template args mode).length < small.size - 1 then
      (render small template args mode).result = (render large template args mode).result ∧
        emitted small template args mode = emitted large template args mode
    else
      (render small template args mode).result = .ok (small.size - 1) ∧
        (render small template args mode).buffer.toList.take (small.size - 1) =
          (emitted large template args mode).take (small.size - 1) := by
  have front := emitted_smaller nonempty le template args mode
  have length := congrArg List.length front
  rw [List.length_take] at length
  split
  · rename_i before
    rcases render_smaller nonempty le template args mode with ⟨same, result⟩ | ⟨_, full, _⟩
    · exact ⟨result, same⟩
    · omega
  · rename_i behind
    rcases render_smaller nonempty le template args mode with ⟨same, result⟩ | ⟨result, full, _⟩
    -- Had the small call ended like the large one, it would have been stopped with a full buffer.
    · have free : (emitted small template args mode).length < small.size - 1 := by
        cases answer : (render small template args mode).result with
        | ok written => exact absurd (result.symm.trans answer) (stopped written)
        | error error => exact (render_fails nonempty answer).2.1
        | crash => exact render_crashes nonempty answer
      rw [same] at free
      exact absurd free behind
    · refine ⟨result, ?_⟩
      rw [take_buffer_render nonempty (by omega), front, List.take_take, Nat.min_self]

end Sizes

end BoundedPrintf
