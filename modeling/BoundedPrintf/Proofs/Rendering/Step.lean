import BoundedPrintf.Render
import BoundedPrintf.Proofs.Sink.Stream

/-! One step of a rendering in two halves: a segment takes its arguments and thereby becomes an
action, and the action is performed on the sink. Only the second half sees the sink, and only the
first half sees the arguments. -/
namespace BoundedPrintf

/-- What a segment does once it has its arguments. -/
inductive Action
  | emit (stream : Bytes)
  | store (target : Nat)
  | skip
  | reject (conversion : UInt8)
  | stop
  | crash
  deriving DecidableEq, Repr

namespace Action

def ofEffect : Effect → Action
  | .emit chunks => .emit (Chunk.flatten chunks)
  | .store target => .store target
  | .nothing => .skip
  | .crash => .crash

theorem ofEffect_ne_reject (effect : Effect) {conversion : UInt8} :
    ofEffect effect ≠ .reject conversion := by
  cases effect <;> nofun

theorem ofEffect_ne_stop (effect : Effect) : ofEffect effect ≠ .stop := by
  cases effect <;> nofun

theorem ofEffect_eq_crash {effect : Effect} : ofEffect effect = .crash ↔ effect = .crash := by
  cases effect <;> simp [ofEffect]

/-- The bytes that an action puts out where there is room for them. -/
def stream : Action → Bytes
  | .emit stream => stream
  | .store _ | .skip | .reject _ | .stop | .crash => []

end Action

namespace Rendering

variable {rendering next : Rendering} {action : Action} {conversion : UInt8}

def perform (rendering : Rendering) : Action → Rendering × Progress
  | .emit stream => rendering.wrote (rendering.sink.write stream)
  | .store target =>
      ({ rendering with stores := rendering.stores ++ [⟨target, rendering.count⟩] }, .more)
  | .skip => (rendering, .more)
  | .reject conversion => (rendering, .rejected conversion)
  | .stop => (rendering, .done)
  | .crash => (rendering, .crashed)

theorem apply_eq_perform (rendering : Rendering) (effect : Effect) :
    rendering.apply effect = rendering.perform (.ofEffect effect) := by
  cases effect with
  | emit chunks => simp only [apply, Action.ofEffect, perform, Sink.emitAll_eq_write]
  | store target => rfl
  | nothing => rfl
  | crash => rfl

theorem wrote_eq (rendering : Rendering) (written : Sink × Bool) :
    rendering.wrote written =
      ({ rendering with sink := written.1 }, if written.2 then .more else .done) := by
  rcases written with ⟨sink, _ | _⟩ <;> rfl

theorem perform_takes (rendering : Rendering) (action : Action) :
    ∃ fitted, rendering.sink.Takes action.stream (rendering.perform action).1.sink fitted := by
  cases action with
  | emit stream =>
      rw [perform, wrote_eq]
      exact ⟨_, rendering.sink.takes_write stream⟩
  | store | skip | reject | stop | crash => exact ⟨true, .nil rendering.sink⟩

/-- A rejection leaves all as it was. -/
theorem perform_rejects (rejected : rendering.perform action = (next, .rejected conversion)) :
    action = .reject conversion ∧ next = rendering := by
  cases action with
  | emit stream =>
      rw [perform, wrote_eq] at rejected
      split at rejected <;> cases rejected
  | reject => cases rejected; exact ⟨rfl, rfl⟩
  | store | skip | stop | crash => cases rejected

/-- A crash leaves all as it was. -/
theorem perform_crashes (crashed : rendering.perform action = (next, .crashed)) :
    action = .crash ∧ next = rendering := by
  cases action with
  | emit stream =>
      rw [perform, wrote_eq] at crashed
      split at crashed <;> cases crashed
  | crash => cases crashed; exact ⟨rfl, rfl⟩
  | store | skip | stop | reject => cases crashed

end Rendering

section Steps

variable [Build]

/-- The action of a directive and the arguments that it leaves. -/
def Spec.action (spec : Spec) (cursor : Cursor) : Action × Cursor :=
  let (spec, cursor) := spec.resolve cursor
  let (supply, cursor) := cursor.next
  (.ofEffect (spec.effect supply), cursor)

/-- The action of a segment and the arguments that it leaves. -/
def Segment.action (mode : Mode) (cursor : Cursor) : Segment → Action × Cursor
  | .literal bytes => (.emit bytes, cursor)
  | .percent => (.emit [octet '%'], cursor)
  | .directive spec => spec.action cursor
  | .unsupported conversion => (if mode.rejectsUnknown then .reject conversion else .skip, cursor)
  | .incomplete => (.stop, cursor)

namespace Rendering

variable {rendering next final : Rendering} {mode : Mode} {offset : Nat} {piece : Piece}
  {rest pieces : List Piece} {action : Action} {cursor : Cursor} {conversion : UInt8}
  {error : RenderError} {progress : Progress} {stop : Stop}

theorem segment_eq_perform (rendering : Rendering) (mode : Mode) (segment : Segment) :
    rendering.segment mode segment =
      { rendering with cursor := (segment.action mode rendering.cursor).2 }.perform
        (segment.action mode rendering.cursor).1 := by
  cases segment with
  | literal bytes => rfl
  | percent => simp only [Rendering.segment, Segment.action, perform, Sink.put_eq_write]
  | directive spec => exact apply_eq_perform _ _
  | unsupported conversion => cases mode <;> rfl
  | incomplete => rfl

theorem run_of_full (full : rendering.sink.isFull = true) :
    rendering.run mode offset pieces = (rendering, none) := by
  cases pieces with
  | nil => rfl
  | cons piece rest => simp only [run, full, if_true]

section Free

variable (free : rendering.sink.isFull = false)
include free

theorem run_of_more (step : rendering.segment mode piece.segment = (next, .more)) :
    rendering.run mode offset (piece :: rest) = next.run mode (offset + piece.size) rest := by
  simp [run, free, step]

/-- A run ends with the first segment that does not let it go on. -/
theorem run_of_ended (step : rendering.segment mode piece.segment = (next, progress))
    (ended : progress ≠ .more) :
    rendering.run mode offset (piece :: rest) = (next, progress.stop? offset) := by
  cases progress with
  | more => exact absurd rfl ended
  | done | rejected | crashed => simp [run, free, step]

theorem run_of_done (step : rendering.segment mode piece.segment = (next, .done)) :
    rendering.run mode offset (piece :: rest) = (next, none) :=
  run_of_ended free step nofun

theorem run_of_rejected
    (step : rendering.segment mode piece.segment = (next, .rejected conversion)) :
    rendering.run mode offset (piece :: rest) =
      (next, some (.failed (.unsupportedDirective offset conversion))) :=
  run_of_ended free step nofun

theorem run_of_crashed (step : rendering.segment mode piece.segment = (next, .crashed)) :
    rendering.run mode offset (piece :: rest) = (next, some .crashed) :=
  run_of_ended free step nofun

end Free

theorem segment_literal (rendering : Rendering) (mode : Mode) (bytes : Bytes) {sink : Sink}
    {fitted : Bool} (written : rendering.sink.write bytes = (sink, fitted)) :
    rendering.segment mode (.literal bytes) =
      ({ rendering with sink }, if fitted then .more else .done) := by
  rw [Rendering.segment, written, wrote_eq]

theorem segment_takes (rendering : Rendering) (mode : Mode) (segment : Segment) :
    ∃ stream fitted, rendering.sink.Takes stream (rendering.segment mode segment).1.sink fitted := by
  rw [segment_eq_perform]
  obtain ⟨fitted, taken⟩ :=
    { rendering with cursor := (segment.action mode rendering.cursor).2 }.perform_takes
      (segment.action mode rendering.cursor).1
  exact ⟨_, fitted, taken⟩

theorem action_rejects {segment : Segment}
    (rejects : (segment.action mode cursor).1 = .reject conversion) :
    segment = .unsupported conversion ∧ mode = .strict := by
  cases segment with
  | literal | percent | incomplete => cases rejects
  | directive spec => exact absurd rejects (Action.ofEffect_ne_reject _)
  | unsupported conversion =>
      cases mode with
      | compat => cases rejects
      | strict => cases rejects; exact ⟨rfl, rfl⟩

theorem segment_rejects {segment : Segment}
    (rejected : rendering.segment mode segment = (next, .rejected conversion)) :
    segment = .unsupported conversion ∧ mode = .strict ∧ next = rendering := by
  rw [segment_eq_perform] at rejected
  obtain ⟨rejects, same⟩ := perform_rejects rejected
  obtain ⟨rfl, strict⟩ := action_rejects rejects
  exact ⟨rfl, strict, same⟩

theorem action_stops {segment : Segment}
    (stops : (segment.action mode cursor).1 = .stop) :
    segment = .incomplete := by
  cases segment with
  | literal | percent => cases stops
  | directive spec => exact absurd stops (Action.ofEffect_ne_stop _)
  | unsupported conversion => cases mode <;> cases stops
  | incomplete => rfl

/-- A rendering is done where its buffer is full or its template ends too early. -/
theorem segment_done {segment : Segment} (done : rendering.segment mode segment = (next, .done)) :
    next.sink.isFull = true ∨ segment = .incomplete := by
  rw [segment_eq_perform] at done
  cases act : (segment.action mode rendering.cursor).1 with
  | emit stream =>
      have taken := rendering.sink.takes_write stream
      rw [act, perform, wrote_eq] at done
      cases fitted : (rendering.sink.write stream).2 with
      | true =>
          simp only [fitted] at done
          cases done
      | false =>
          rw [fitted] at taken
          simp only [fitted] at done
          cases done
          exact .inl taken.full
  | stop => exact .inr (action_stops act)
  | store | skip | reject | crash => rw [act] at done; cases done

theorem action_crashes {segment : Segment} (crashes : (segment.action mode cursor).1 = .crash) :
    ∃ spec : Spec, segment = .directive spec ∧
      (spec.resolve cursor).1.effect (spec.resolve cursor).2.next.1 = .crash := by
  cases segment with
  | literal | percent | incomplete => cases crashes
  | directive spec => exact ⟨spec, rfl, Action.ofEffect_eq_crash.mp crashes⟩
  | unsupported conversion => cases mode <;> cases crashes

/-- Only a directive crashes, and nothing but its arguments is taken. -/
theorem segment_crashes {segment : Segment}
    (crashed : rendering.segment mode segment = (next, .crashed)) :
    (∃ spec : Spec, segment = .directive spec ∧ (spec.resolve rendering.cursor).1.effect
        (spec.resolve rendering.cursor).2.next.1 = .crash) ∧
      next.sink = rendering.sink := by
  rw [segment_eq_perform] at crashed
  obtain ⟨crashes, rfl⟩ := perform_crashes crashed
  exact ⟨action_crashes crashes, rfl⟩

/-- What every segment preserves that finds room, a run preserves. -/
theorem run_preserves (holds : Rendering → Prop) {mode : Mode}
    (preserved : ∀ (rendering : Rendering) (segment : Segment), rendering.sink.isFull = false →
      holds rendering → holds (rendering.segment mode segment).1)
    {rendering : Rendering} (initial : holds rendering) (offset : Nat) (pieces : List Piece) :
    holds (rendering.run mode offset pieces).1 := by
  induction pieces generalizing rendering offset with
  | nil => exact initial
  | cons piece rest ih =>
      cases free : rendering.sink.isFull with
      | true => rwa [run_of_full free]
      | false =>
          have kept := preserved rendering piece.segment free initial
          rcases step : rendering.segment mode piece.segment with ⟨next, progress⟩
          rw [step] at kept
          by_cases more : progress = .more
          · rw [more] at step
            rw [run_of_more free step]
            exact ih kept _
          · rwa [run_of_ended free step more]

/-- All output of a run is one stream. -/
theorem run_takes (rendering : Rendering) (mode : Mode) (offset : Nat) (pieces : List Piece) :
    ∃ stream fitted, rendering.sink.Takes stream (rendering.run mode offset pieces).1.sink fitted := by
  apply run_preserves fun later => ∃ stream fitted, rendering.sink.Takes stream later.sink fitted
  · rintro later segment - ⟨stream, fitted, taken⟩
    obtain ⟨streamNext, fittedNext, takenNext⟩ := later.segment_takes mode segment
    exact ⟨_, _, taken.append takenNext⟩
  · exact ⟨[], true, .nil rendering.sink⟩

/-- Output only grows. -/
theorem output_prefix_run (rendering : Rendering) (mode : Mode) (offset : Nat)
    (pieces : List Piece) :
    rendering.sink.output <+: (rendering.run mode offset pieces).1.sink.output := by
  obtain ⟨stream, fitted, taken⟩ := rendering.run_takes mode offset pieces
  exact ⟨_, taken.output.symm⟩

theorem segment_output_prefix_run (free : rendering.sink.isFull = false) :
    (rendering.segment mode piece.segment).1.sink.output <+:
      (rendering.run mode offset (piece :: rest)).1.sink.output := by
  rcases step : rendering.segment mode piece.segment with ⟨next, progress⟩
  by_cases more : progress = .more
  · rw [more] at step
    rw [run_of_more free step]
    exact next.output_prefix_run _ _ _
  · exact ⟨[], by rw [run_of_ended free step more, List.append_nil]⟩

/-- A run that ends for want of pieces, with room left, has passed its first piece. -/
theorem passes_of_ended (complete : piece.segment ≠ .incomplete)
    (ended : rendering.run mode offset (piece :: rest) = (final, none))
    (spare : final.sink.isFull = false) :
    ∃ next, rendering.sink.isFull = false ∧
      rendering.segment mode piece.segment = (next, .more) ∧
      next.run mode (offset + piece.size) rest = (final, none) := by
  cases free : rendering.sink.isFull with
  | true =>
      cases (run_of_full free).symm.trans ended
      cases spare.symm.trans free
  | false =>
      rcases step : rendering.segment mode piece.segment with ⟨next, _ | _ | conversion | _⟩
      · exact ⟨next, rfl, rfl, (run_of_more free step).symm.trans ended⟩
      · cases (run_of_done free step).symm.trans ended
        rcases segment_done step with full | unfinished
        · cases spare.symm.trans full
        · exact absurd unfinished complete
      · cases (run_of_rejected free step).symm.trans ended
      · cases (run_of_crashed free step).symm.trans ended

/-- A run is stopped only while there is room: in strict mode by a directive that is rejected, and in
either mode by one that crashes. -/
theorem run_stops (stopped : rendering.run mode offset pieces = (next, some stop)) :
    next.sink.isFull = false ∧ ((∃ place conversion, mode = .strict ∧
      stop = .failed (.unsupportedDirective place conversion)) ∨ stop = .crashed) := by
  induction pieces generalizing rendering offset with
  | nil => cases stopped
  | cons piece rest ih =>
      cases free : rendering.sink.isFull with
      | true => cases (run_of_full free).symm.trans stopped
      | false =>
          rcases step : rendering.segment mode piece.segment with ⟨after, _ | _ | conversion | _⟩
          · exact ih ((run_of_more free step).symm.trans stopped)
          · cases (run_of_done free step).symm.trans stopped
          · obtain ⟨_, strict, same⟩ := segment_rejects step
            cases (run_of_rejected free step).symm.trans stopped
            exact ⟨same ▸ free, .inl ⟨offset, conversion, strict, rfl⟩⟩
          · obtain ⟨-, same⟩ := segment_crashes step
            cases (run_of_crashed free step).symm.trans stopped
            exact ⟨same ▸ free, .inr rfl⟩

end Rendering

end Steps

end BoundedPrintf
