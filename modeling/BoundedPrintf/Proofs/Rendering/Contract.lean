import BoundedPrintf.Proofs.Rendering.Step

/-! The contract between a call and its buffer. Whatever the template and the arguments, a call puts
its output at the start of the buffer and, unless it crashes, one terminator behind it, and leaves the
rest as it was. -/
namespace BoundedPrintf

/-- A buffer terminated at a position and unchanged behind it. -/
structure EndsAt (before after : Array UInt8) (position : Nat) : Prop where
  size : after.size = before.size
  inside : position ≤ before.size - 1
  terminator : after[position]? = some 0
  untouched : ∀ i, position < i → after[i]? = before[i]?

namespace Sink

theorem toList_finish (sink : Sink) :
    sink.finish.toList = sink.output ++ 0 :: sink.buffer.toList.drop (sink.written + 1) := by
  have inside := sink.written_lt
  rw [finish, Array.toList_set, List.set_eq_take_append_cons_drop,
    if_pos (by simpa using inside), output]

namespace Takes

variable {before after : Sink} {stream : Bytes} {fitted : Bool}

theorem endsAt (taken : before.Takes stream after fitted) :
    EndsAt before.buffer after.finish after.written := by
  have inside := after.written_lt
  have size := taken.size
  refine ⟨by rw [size_finish, size], by omega, ?_, ?_⟩
  · rw [finish, Array.getElem?_set_self]
  · intro i behind
    rw [finish, Array.getElem?_set_ne inside (by omega)]
    exact taken.untouched i (by omega)

theorem drop_untouched (taken : before.Takes stream after fitted) {position : Nat}
    (behind : after.written ≤ position) :
    after.buffer.toList.drop position = before.buffer.toList.drop position := by
  apply List.ext_getElem?
  intro i
  simpa using taken.untouched (position + i) (by omega)

theorem toList_buffer (taken : before.Takes stream after fitted) :
    after.buffer.toList = after.output ++ before.buffer.toList.drop after.written := by
  rw [← taken.drop_untouched (Nat.le_refl _), Sink.output, List.take_append_drop]

theorem toList_finish (taken : before.Takes stream after fitted) :
    after.finish.toList = after.output ++ 0 :: before.buffer.toList.drop (after.written + 1) := by
  rw [Sink.toList_finish, taken.drop_untouched (Nat.le_succ _)]

end Takes

end Sink

/-- What stands behind the output of a call that has come to such an end. -/
def Ending.terminator : Ending → Bytes
  | .ok _ | .error _ => [0]
  | .crash => []

theorem Ending.terminator_of_returns {ending : Ending} (returns : ending ≠ .crash) :
    ending.terminator = [0] := by
  cases ending with
  | ok | error => rfl
  | crash => exact absurd rfl returns

theorem Outcome.returned?_eq_none_iff {outcome : Outcome} :
    outcome.returned? = none ↔ outcome.result = .crash := by
  rw [returned?]
  cases outcome.result <;> simp

namespace Rendering

/-- A rendering at the start of a buffer. -/
def start (buffer : Array UInt8) (nonempty : 0 < buffer.size) (args : List Argument) : Rendering :=
  { sink := ⟨buffer, 0, nonempty⟩, cursor := Cursor.ofList args }

variable [Build] (buffer : Array UInt8) (nonempty : 0 < buffer.size) (template : Bytes)
  (args : List Argument) (mode : Mode)

/-- The rendering in which a call ends, and what stopped it. -/
def ofCall : Rendering × Option Stop :=
  (start buffer nonempty args).run mode 0 (Template.segments template)

theorem ofCall_takes :
    ∃ stream fitted, (start buffer nonempty args).sink.Takes stream
      (ofCall buffer nonempty template args mode).1.sink fitted :=
  (start buffer nonempty args).run_takes mode 0 (Template.segments template)

theorem capacity_ofCall :
    (ofCall buffer nonempty template args mode).1.sink.capacity = buffer.size - 1 := by
  obtain ⟨stream, fitted, taken⟩ := ofCall_takes buffer nonempty template args mode
  exact taken.capacity

end Rendering

section Calls

variable [Build]

/-- The bytes that a call emits into a buffer, also where it does not answer their number. -/
def emitted (buffer : Array UInt8) (template : Bytes) (args : List Argument)
    (mode : Mode) : Bytes :=
  if nonempty : 0 < buffer.size then
    (Rendering.ofCall buffer nonempty template args mode).1.sink.output
  else []

section Nonempty

variable {buffer : Array UInt8} (nonempty : 0 < buffer.size) (template : Bytes)
  (args : List Argument) (mode : Mode)
include nonempty

theorem render_eq_ofCall : render buffer template args mode =
    (Rendering.ofCall buffer nonempty template args mode).1.outcome
      (Rendering.ofCall buffer nonempty template args mode).2 := by
  simp only [render, Sink.ofBuffer?, nonempty, dite_true]
  rfl

theorem emitted_eq_output : emitted buffer template args mode =
    (Rendering.ofCall buffer nonempty template args mode).1.sink.output := by
  simp only [emitted, nonempty, dite_true]

theorem result_render : (render buffer template args mode).result =
    match (Rendering.ofCall buffer nonempty template args mode).2 with
      | none => .ok (emitted buffer template args mode).length
      | some (.failed error) => .error error
      | some .crashed => .crash := by
  rw [render_eq_ofCall nonempty, emitted_eq_output nonempty, Sink.length_output]
  rfl

theorem consumed_render : (render buffer template args mode).consumed =
    (Rendering.ofCall buffer nonempty template args mode).1.cursor.consumed := by
  rw [render_eq_ofCall nonempty]
  rfl

theorem stores_render : (render buffer template args mode).stores =
    (Rendering.ofCall buffer nonempty template args mode).1.stores := by
  rw [render_eq_ofCall nonempty]
  rfl

theorem length_emitted_le : (emitted buffer template args mode).length ≤ buffer.size - 1 := by
  have room := (Rendering.ofCall buffer nonempty template args mode).1.sink.written_add_room
  rw [Rendering.capacity_ofCall] at room
  rw [emitted_eq_output nonempty, Sink.length_output]
  omega

theorem render_crash_iff : (render buffer template args mode).result = .crash ↔
    (Rendering.ofCall buffer nonempty template args mode).2 = some .crashed := by
  rw [result_render nonempty]
  split <;> simp_all

theorem buffer_render_of_crash (crashes : (render buffer template args mode).result = .crash) :
    (render buffer template args mode).buffer =
      (Rendering.ofCall buffer nonempty template args mode).1.sink.buffer := by
  rw [render_crash_iff nonempty] at crashes
  rw [render_eq_ofCall nonempty]
  exact if_pos crashes

theorem buffer_render_of_returns (returns : (render buffer template args mode).result ≠ .crash) :
    (render buffer template args mode).buffer =
      (Rendering.ofCall buffer nonempty template args mode).1.sink.finish := by
  rw [ne_eq, render_crash_iff nonempty] at returns
  rw [render_eq_ofCall nonempty]
  exact if_neg returns

theorem render_endsAt (returns : (render buffer template args mode).result ≠ .crash) :
    EndsAt buffer (render buffer template args mode).buffer
      (emitted buffer template args mode).length := by
  obtain ⟨stream, fitted, taken⟩ := Rendering.ofCall_takes buffer nonempty template args mode
  rw [buffer_render_of_returns nonempty _ _ _ returns, emitted_eq_output nonempty,
    Sink.length_output]
  exact taken.endsAt

/-- The whole buffer after a call. -/
theorem toList_buffer_render : (render buffer template args mode).buffer.toList =
    emitted buffer template args mode ++ (render buffer template args mode).result.terminator ++
      buffer.toList.drop ((emitted buffer template args mode).length +
        (render buffer template args mode).result.terminator.length) := by
  obtain ⟨stream, fitted, taken⟩ := Rendering.ofCall_takes buffer nonempty template args mode
  by_cases crashes : (render buffer template args mode).result = .crash
  · rw [crashes, buffer_render_of_crash nonempty _ _ _ crashes, emitted_eq_output nonempty,
      Sink.length_output, taken.toList_buffer, Ending.terminator, List.append_nil]
    rfl
  · rw [Ending.terminator_of_returns crashes, buffer_render_of_returns nonempty _ _ _ crashes,
      emitted_eq_output nonempty, Sink.length_output, taken.toList_finish, List.append_assoc]
    rfl

end Nonempty

variable {buffer : Array UInt8} {template : Bytes} {args : List Argument} {mode : Mode}

/-- The output and its terminator. -/
theorem take_terminated_buffer_render (nonempty : 0 < buffer.size) :
    (render buffer template args mode).buffer.toList.take
        ((emitted buffer template args mode).length +
          (render buffer template args mode).result.terminator.length) =
      emitted buffer template args mode ++ (render buffer template args mode).result.terminator := by
  rw [toList_buffer_render nonempty, ← List.length_append, List.take_left]

theorem take_buffer_render (nonempty : 0 < buffer.size) {count : Nat}
    (within : count ≤ (emitted buffer template args mode).length) :
    (render buffer template args mode).buffer.toList.take count =
      (emitted buffer template args mode).take count := by
  rw [toList_buffer_render nonempty, List.append_assoc, List.take_append_of_le_length within]

theorem ofCall_of_answer (nonempty : 0 < buffer.size) {written : Nat}
    (answered : (render buffer template args mode).result = .ok written) :
    ∃ final, Rendering.ofCall buffer nonempty template args mode = (final, none) ∧
      final.sink.written = written := by
  rw [render_eq_ofCall nonempty] at answered
  rcases ended : Rendering.ofCall buffer nonempty template args mode with ⟨final, _ | error | _⟩
  · rw [ended] at answered
    exact ⟨final, rfl, Ending.ok.inj answered⟩
  · rw [ended] at answered
    cases answered
  · rw [ended] at answered
    cases answered

theorem render_answers (nonempty : 0 < buffer.size) {written : Nat}
    (answered : (render buffer template args mode).result = .ok written) :
    (emitted buffer template args mode).length = written := by
  obtain ⟨final, ended, reached⟩ := ofCall_of_answer nonempty answered
  rw [emitted_eq_output nonempty, ended, Sink.length_output, reached]

/-- The output and its terminator, where a call answers. -/
theorem take_succ_buffer_render (nonempty : 0 < buffer.size) {written : Nat}
    (answered : (render buffer template args mode).result = .ok written) :
    (render buffer template args mode).buffer.toList.take (written + 1) =
      emitted buffer template args mode ++ [0] := by
  have terminated := @take_terminated_buffer_render _ buffer template args mode nonempty
  rwa [answered, render_answers nonempty answered] at terminated

theorem render_stops (nonempty : 0 < buffer.size) {stop : Stop}
    (stopped : (Rendering.ofCall buffer nonempty template args mode).2 = some stop) :
    (emitted buffer template args mode).length < buffer.size - 1 ∧
      ((∃ offset conversion, mode = .strict ∧
        stop = .failed (.unsupportedDirective offset conversion)) ∨ stop = .crashed) := by
  have capacity := Rendering.capacity_ofCall buffer nonempty template args mode
  rw [emitted_eq_output nonempty, Sink.length_output]
  rcases ended : Rendering.ofCall buffer nonempty template args mode with ⟨final, last⟩
  simp only [ended] at stopped capacity ⊢
  obtain ⟨free, cause⟩ := Rendering.run_stops (ended.trans (Prod.ext rfl stopped))
  have room := Sink.isFull_eq_false_iff.mp free
  have written := final.sink.written_add_room
  exact ⟨by omega, cause⟩

/-- A call fails in strict mode only, and only while the buffer is not full. -/
theorem render_fails (nonempty : 0 < buffer.size) {error : RenderError}
    (failed : (render buffer template args mode).result = .error error) :
    mode = .strict ∧ (emitted buffer template args mode).length < buffer.size - 1 ∧
      ∃ offset conversion, error = .unsupportedDirective offset conversion := by
  have stopped : (Rendering.ofCall buffer nonempty template args mode).2 = some (.failed error) := by
    rw [result_render nonempty] at failed
    split at failed <;> simp_all
  obtain ⟨free, ⟨offset, conversion, strict, cause⟩ | crashed⟩ := render_stops nonempty stopped
  · exact ⟨strict, free, offset, conversion, Stop.failed.inj cause⟩
  · cases crashed

/-- A call crashes only while the buffer is not full. -/
theorem render_crashes (nonempty : 0 < buffer.size)
    (crashes : (render buffer template args mode).result = .crash) :
    (emitted buffer template args mode).length < buffer.size - 1 :=
  (render_stops nonempty ((render_crash_iff nonempty template args mode).mp crashes)).1

end Calls

end BoundedPrintf
