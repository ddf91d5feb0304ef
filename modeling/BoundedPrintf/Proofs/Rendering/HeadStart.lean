import BoundedPrintf.Proofs.Rendering.Step

/-! Two renderings of the same pieces, one of which has a head start: it has emitted output, handed
out arguments and stored counts before the other one began, and it may have more room. They go on
alike until the other one runs out of room. -/
namespace BoundedPrintf

/-- The cursor that has handed out so many arguments more. -/
def Cursor.later (handed : Nat) (cursor : Cursor) : Cursor :=
  { cursor with consumed := handed + cursor.consumed }

/-- The store at a place so many bytes further on. -/
def Store.later (lead : Nat) (store : Store) : Store := { store with count := lead + store.count }

/-- The error in a template with so many bytes in front. -/
def RenderError.later (lead : Nat) : RenderError → RenderError
  | .bufferTooSmall => .bufferTooSmall
  | .unsupportedDirective offset conversion => .unsupportedDirective (lead + offset) conversion

def Stop.later (lead : Nat) : Stop → Stop
  | .failed error => .failed (error.later lead)
  | .crashed => .crashed

theorem Store.later_zero : Store.later 0 = id := by
  funext store
  simp [later]

theorem Stop.later_zero : Stop.later 0 = id := by
  funext stop
  rcases stop with (_ | _) | _ <;> simp [later, RenderError.later]

theorem Progress.stop?_later (progress : Progress) (lead offset : Nat) :
    progress.stop? (lead + offset) = (progress.stop? offset).map (Stop.later lead) := by
  cases progress <;> rfl

theorem Cursor.next_later (handed : Nat) (cursor : Cursor) :
    (cursor.later handed).next = (cursor.next.1, cursor.next.2.later handed) := by
  obtain ⟨_ | ⟨arg, rest⟩, consumed⟩ := cursor <;> rfl

theorem Spec.resolve_later (spec : Spec) (handed : Nat) (cursor : Cursor) :
    spec.resolve (cursor.later handed) =
      ((spec.resolve cursor).1, (spec.resolve cursor).2.later handed) := by
  simp only [resolve, Cursor.next_later]
  by_cases width : spec.width = .argument <;> by_cases precision : spec.precision = .argument <;>
    simp [width, precision, withWidth, Cursor.next_later]

theorem Segment.action_later [Build] (segment : Segment) (mode : Mode) (handed : Nat) (cursor : Cursor) :
    segment.action mode (cursor.later handed) =
      ((segment.action mode cursor).1, (segment.action mode cursor).2.later handed) := by
  cases segment with
  | directive spec => simp only [action, Spec.action, Spec.resolve_later, Cursor.next_later]
  | literal | percent | unsupported | incomplete => rfl

/-- What a rendering has behind it before another one begins, and how much more room it has. -/
structure HeadStart where
  output : Bytes := []
  handed : Nat := 0
  stores : List Store := []
  spare : Nat := 0

namespace Rendering

/-- Where `part` is, `whole` is too, with a head start. Counts are shifted, so they must not be
capped. -/
structure Ahead (start : HeadStart) (whole part : Rendering) : Prop where
  output : whole.sink.output = start.output ++ part.sink.output
  room : whole.sink.room = part.sink.room + start.spare
  cursor : whole.cursor = part.cursor.later start.handed
  stores : whole.stores = start.stores ++ part.stores.map (Store.later start.output.length)
  uncapped : start.output = [] ∨ whole.sink.capacity ≤ maxCount

variable {start : HeadStart} {whole part : Rendering}

namespace Ahead

theorem written (ahead : Ahead start whole part) :
    whole.sink.written = start.output.length + part.sink.written := by
  have length := congrArg List.length ahead.output
  simpa using length

theorem count (ahead : Ahead start whole part) :
    whole.count = start.output.length + part.count := by
  have written := ahead.written
  have inside := whole.sink.written_add_room
  simp only [Rendering.count]
  -- Without earlier output nothing is shifted, and with it the cap is out of reach.
  rcases ahead.uncapped with none | small
  · simp only [none, List.length_nil] at written ⊢
    omega
  · omega

theorem takeArguments [Build] (ahead : Ahead start whole part) (mode : Mode) (segment : Segment) :
    Ahead start { whole with cursor := (segment.action mode whole.cursor).2 }
      { part with cursor := (segment.action mode part.cursor).2 } := by
  refine ⟨ahead.output, ahead.room, ?_, ahead.stores, ahead.uncapped⟩
  simp only [ahead.cursor, Segment.action_later]

end Ahead

/-- The smaller rendering has stopped for want of room, amid what the other one emits. -/
structure Exhausted (start : HeadStart) (whole part : Rendering) : Prop where
  spare : 0 < start.spare
  full : part.sink.isFull = true
  output : start.output ++ part.sink.output <+: whole.sink.output

/-- An action keeps the head start, or the one with less room overflows. -/
theorem perform_ahead (ahead : Ahead start whole part) (action : Action) :
    (Ahead start (whole.perform action).1 (part.perform action).1 ∧
      (whole.perform action).2 = (part.perform action).2) ∨
    ((part.perform action).2 = .done ∧
      Exhausted start (whole.perform action).1 (part.perform action).1) := by
  cases action with
  | emit stream =>
      have taken := whole.sink.takes_write stream
      have takenPart := part.sink.takes_write stream
      have room := ahead.room
      rw [perform, perform, wrote_eq, wrote_eq]
      -- Unless the smaller sink overflows and the larger has room left, both take the same part.
      by_cases alike : stream.length ≤ part.sink.room ∨ start.spare = 0
      · refine .inl ⟨⟨?_, ?_, ahead.cursor, ahead.stores, ?_⟩, ?_⟩
        · have same : stream.take whole.sink.room = stream.take part.sink.room := by
            rcases alike with short | even
            · rw [List.take_of_length_le (by omega), List.take_of_length_le short]
            · rw [room, even, Nat.add_zero]
          rw [taken.output, takenPart.output, ahead.output, same, List.append_assoc]
        · simp only [taken.room, takenPart.room]
          omega
        · simpa only [taken.capacity] using ahead.uncapped
        · have same : (whole.sink.write stream).2 = (part.sink.write stream).2 := by
            rw [Bool.eq_iff_iff, taken.fits, takenPart.fits]
            omega
          simp only [same]
      · have stopped : (part.sink.write stream).2 = false := by
          rw [← Bool.not_eq_true, takenPart.fits]
          omega
        refine .inr ⟨by simp [stopped], by omega, ?_, ?_⟩
        · simp only [Sink.isFull_iff, takenPart.room]
          omega
        · simp only [taken.output, takenPart.output, ahead.output, List.append_assoc,
            List.prefix_append_right_inj]
          exact List.take_prefix_take_left (by omega)
  | store target =>
      refine .inl ⟨⟨ahead.output, ahead.room, ahead.cursor, ?_, ahead.uncapped⟩, rfl⟩
      simp only [perform, ahead.stores, ahead.count, List.map_append, List.append_assoc]
      rfl
  | skip | reject | stop | crash => exact .inl ⟨ahead, rfl⟩

variable [Build]

theorem segment_ahead (ahead : Ahead start whole part) (mode : Mode) (segment : Segment) :
    (Ahead start (whole.segment mode segment).1 (part.segment mode segment).1 ∧
      (whole.segment mode segment).2 = (part.segment mode segment).2) ∨
    ((part.segment mode segment).2 = .done ∧
      Exhausted start (whole.segment mode segment).1 (part.segment mode segment).1) := by
  have same : (segment.action mode whole.cursor).1 = (segment.action mode part.cursor).1 := by
    rw [ahead.cursor, Segment.action_later]
  rw [segment_eq_perform, segment_eq_perform, same]
  exact perform_ahead (ahead.takeArguments mode segment) _

/-- A run keeps the head start, up to the offset of the directive at which it fails, or the one with
less room stops with a first part of the other's output. -/
theorem run_ahead (ahead : Ahead start whole part) (mode : Mode) (lead offset : Nat)
    (pieces : List Piece) :
    (Ahead start (whole.run mode (lead + offset) pieces).1 (part.run mode offset pieces).1 ∧
      (whole.run mode (lead + offset) pieces).2 =
        (part.run mode offset pieces).2.map (Stop.later lead)) ∨
    ((part.run mode offset pieces).2 = none ∧
      Exhausted start (whole.run mode (lead + offset) pieces).1
        (part.run mode offset pieces).1) := by
  induction pieces generalizing whole part offset with
  | nil => exact .inl ⟨ahead, rfl⟩
  | cons piece rest ih =>
      have room := ahead.room
      cases free : part.sink.isFull with
      | true =>
          have none := Sink.isFull_iff.mp free
          rw [run_of_full free]
          by_cases even : start.spare = 0
          · have full : whole.sink.isFull = true := Sink.isFull_iff.mpr (by omega)
            rw [run_of_full full]
            exact .inl ⟨ahead, rfl⟩
          · exact .inr ⟨rfl, by omega, free, ahead.output ▸ whole.output_prefix_run _ _ _⟩
      | false =>
          have some := Sink.isFull_eq_false_iff.mp free
          have freeWhole : whole.sink.isFull = false := Sink.isFull_eq_false_iff.mpr (by omega)
          rcases segment_ahead ahead mode piece.segment with
            ⟨aheadNext, same⟩ | ⟨stopped, exhausted⟩
          · rcases step : part.segment mode piece.segment with ⟨next, progress⟩
            rcases stepWhole : whole.segment mode piece.segment with ⟨nextWhole, progressWhole⟩
            rw [step, stepWhole] at aheadNext same
            obtain rfl : progressWhole = progress := same
            by_cases more : progressWhole = .more
            · rw [more] at step stepWhole
              rw [run_of_more free step, run_of_more freeWhole stepWhole, Nat.add_assoc]
              exact ih aheadNext _
            · rw [run_of_ended free step more, run_of_ended freeWhole stepWhole more]
              exact .inl ⟨aheadNext, progressWhole.stop?_later lead offset⟩
          · rw [run_of_done free (Prod.ext rfl stopped)]
            exact .inr ⟨rfl, exhausted.spare, exhausted.full,
              exhausted.output.trans (segment_output_prefix_run freeWhole)⟩

end Rendering

end BoundedPrintf
