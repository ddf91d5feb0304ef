import BoundedPrintf.Proofs.Rendering.Step

/-! Arguments are handed out in order and none is skipped, whatever a run does with them. -/
namespace BoundedPrintf

/-- The cursor stands in a list of arguments behind those that it has handed out. -/
def Cursor.Reads (args : List Argument) (cursor : Cursor) : Prop :=
  cursor.remaining = args.drop cursor.consumed

variable {args : List Argument} {cursor : Cursor}

theorem Cursor.reads_ofList (args : List Argument) : (Cursor.ofList args).Reads args := rfl

theorem Cursor.Reads.next (reads : cursor.Reads args) : cursor.next.2.Reads args := by
  obtain ⟨_ | ⟨arg, rest⟩, consumed⟩ := cursor
  · exact reads
  · have tail := congrArg List.tail reads
    rwa [List.tail_drop] at tail

theorem Spec.resolve_reads (spec : Spec) (reads : cursor.Reads args) :
    (spec.resolve cursor).2.Reads args := by
  by_cases width : spec.width = .argument
  · by_cases precision : spec.precision = .argument
    · simpa only [resolve, width, precision, if_true, withWidth] using reads.next.next
    · simpa only [resolve, width, precision, if_true, if_false, withWidth] using reads.next
  · by_cases precision : spec.precision = .argument
    · simpa only [resolve, width, precision, if_true, if_false] using reads.next
    · simpa only [resolve, width, precision, if_false] using reads

theorem Segment.action_reads [Build] (segment : Segment) (mode : Mode) (reads : cursor.Reads args) :
    (segment.action mode cursor).2.Reads args := by
  cases segment with
  | directive spec => exact (spec.resolve_reads reads).next
  | literal | percent | unsupported | incomplete => exact reads

namespace Rendering

theorem cursor_perform (rendering : Rendering) (action : Action) :
    (rendering.perform action).1.cursor = rendering.cursor := by
  cases action with
  | emit stream => rw [perform, wrote_eq]
  | store | skip | reject | stop | crash => rfl

variable [Build]

theorem segment_reads {rendering : Rendering} (reads : rendering.cursor.Reads args) (mode : Mode)
    (segment : Segment) :
    (rendering.segment mode segment).1.cursor.Reads args := by
  rw [segment_eq_perform, cursor_perform]
  exact segment.action_reads mode reads

theorem run_reads {rendering : Rendering} (reads : rendering.cursor.Reads args) (mode : Mode)
    (offset : Nat) (pieces : List Piece) : (rendering.run mode offset pieces).1.cursor.Reads args :=
  run_preserves (fun later => later.cursor.Reads args)
    (fun _ segment _ reads => segment_reads reads mode segment)
    reads offset pieces

end Rendering

end BoundedPrintf
