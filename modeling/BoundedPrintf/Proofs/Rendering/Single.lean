import BoundedPrintf.Proofs.Directive.Grammar
import BoundedPrintf.Proofs.Rendering.Contract
import BoundedPrintf.Proofs.Rendering.HeadStart
import BoundedPrintf.Proofs.Template.Pieces

/-! A template of one directive. All that it does is the action of the directive, so templates whose
directives act alike are rendered alike, whatever arguments they need for it. -/
namespace BoundedPrintf

/-- A percent sign, modifiers in any order and a conversion make one directive. -/
theorem segments_of_single {modifiers : Bytes} {conversion : UInt8}
    (all : ∀ b ∈ modifiers, isModifier b = true) (known : conversion ∈ Grammar.conversions) :
    Template.segments (octet '%' :: (modifiers ++ [conversion])) =
      [⟨.directive ((modifiers.foldl Directive.Draft.step {}).toSpec conversion),
        modifiers.length + 2⟩] := by
  obtain ⟨decides, finish⟩ := Grammar.conversion_decides known
  have clean : ∀ b ∈ octet '%' :: (modifiers ++ [conversion]), b ≠ 0 := by
    rw [List.forall_mem_cons, List.forall_mem_append]
    refine ⟨by decide, ?_, ?_⟩
    · rintro b member rfl
      exact absurd (all 0 member) (by decide)
    · have visible : ∀ b ∈ Grammar.conversions, b ≠ 0 := by decide +kernel
      exact List.forall_mem_singleton.mpr (visible conversion known)
  have parsed := @Directive.parse_decided modifiers [] conversion all decides
  have behind : (modifiers ++ [conversion]).drop (modifiers.length + 1 + 1 - 1) = [] := by
    apply List.drop_eq_nil_of_le
    rw [List.length_append, List.length_singleton, Nat.add_sub_cancel]
  rw [finish] at parsed
  rw [Template.segments, beforeNul_of_no_nul clean, Template.pieces_cons, Template.piece_percent,
    parsed, behind, Template.pieces]
  rfl

namespace Grammar.Written

/-- The template that consists of one directive. -/
def template (written : Written) : Bytes := octet '%' :: written.text

theorem segments_template (written : Written) : Template.segments written.template =
    [⟨.directive written.meaning, written.text.length + 1⟩] := by
  have modifiers := List.all_eq_true.mp (all_isModifier_modifiers written)
  rw [template, text, segments_of_single modifiers written.known, toSpec_modifiers,
    List.length_append, List.length_singleton]

end Grammar.Written

namespace Rendering

variable {rendering : Rendering}

/-- Actions do not look at the arguments that are left. -/
theorem perform_with_cursor (rendering : Rendering) (cursor : Cursor) (action : Action) :
    { rendering with cursor }.perform action =
      ({ (rendering.perform action).1 with cursor }, (rendering.perform action).2) := by
  cases action with
  | emit stream => simp only [perform, wrote_eq]
  | store | skip | reject | stop | crash => rfl

theorem run_directive [Build] (mode : Mode) (offset : Nat) (spec : Spec) (size : Nat)
    (free : rendering.sink.isFull = false) :
    rendering.run mode offset [⟨.directive spec, size⟩] =
      ({ (rendering.perform (spec.action rendering.cursor).1).1 with
        cursor := (spec.action rendering.cursor).2 },
        (rendering.perform (spec.action rendering.cursor).1).2.stop? offset) := by
  have step := rendering.segment_eq_perform mode (.directive spec)
  rw [perform_with_cursor] at step
  by_cases more : (rendering.perform (spec.action rendering.cursor).1).2 = .more
  · rw [run_of_more free (step.trans (by rw [Segment.action, more])), run, more]
    rfl
  · exact run_of_ended free step more

end Rendering

section Call

variable [Build] {buffer : Array UInt8} {template : Bytes} {spec : Spec} {size : Nat}

theorem ofCall_directive (nonempty : 0 < buffer.size) (args : List Argument) (mode : Mode)
    (single : Template.segments template = [⟨.directive spec, size⟩]) :
    Rendering.ofCall buffer nonempty template args mode =
      if buffer.size = 1 then (Rendering.start buffer nonempty args, none)
      else
        ({ ((Rendering.start buffer nonempty args).perform
            (spec.action (Cursor.ofList args)).1).1 with
          cursor := (spec.action (Cursor.ofList args)).2 },
          ((Rendering.start buffer nonempty args).perform
            (spec.action (Cursor.ofList args)).1).2.stop? 0) := by
  have room : (Rendering.start buffer nonempty args).sink.room = buffer.size - 1 := rfl
  rw [Rendering.ofCall, single]
  split
  · rw [Rendering.run_of_full (Sink.isFull_iff.mpr (by omega))]
  · rw [Rendering.run_directive _ _ _ _ (Sink.isFull_eq_false_iff.mpr (by omega))]
    rfl

/-- A directive that puts out a stream puts it into every buffer that has room for it. -/
theorem render_directive_emits {args : List Argument} {stream : Bytes}
    (single : Template.segments template = [⟨.directive spec, size⟩])
    (emits : (spec.action (Cursor.ofList args)).1 = .emit stream)
    (room : stream.length < buffer.size) (mode : Mode) :
    emitted buffer template args mode = stream ∧
      (render buffer template args mode).result = .ok stream.length := by
  have nonempty : 0 < buffer.size := by omega
  have call := ofCall_directive nonempty args mode single
  have output : emitted buffer template args mode = stream := by
    rw [emitted_eq_output nonempty, call]
    split
    · have none : stream = [] := List.eq_nil_of_length_eq_zero (by omega)
      rw [none]
      rfl
    · have taken := (Rendering.start buffer nonempty args).sink.takes_write stream
      have fits : stream.take (buffer.size - 1) = stream := List.take_of_length_le (by omega)
      rw [emits, Rendering.perform, Rendering.wrote_eq]
      exact taken.output.trans fits
  have answered : (Rendering.ofCall buffer nonempty template args mode).2 = none := by
    rw [call, emits, Rendering.perform, Rendering.wrote_eq]
    split
    · rfl
    · dsimp only
      split <;> rfl
  refine ⟨output, ?_⟩
  rw [result_render nonempty, output, answered]

/-- Two calls into a buffer that end alike, except that the first hands out some arguments more.
Without room for a byte of output neither of them hands out any. -/
structure Outcome.AlikeBut (target : Array UInt8) (extra : Nat) (first second : Outcome) : Prop where
  result : first.result = second.result
  buffer : first.buffer = second.buffer
  stores : first.stores = second.stores
  consumed : 2 ≤ target.size → first.consumed = second.consumed + extra

omit [Build] in
theorem Outcome.AlikeBut.trans {first second third : Outcome} {extra more : Nat}
    (front : AlikeBut buffer extra first second) (back : AlikeBut buffer more second third) :
    AlikeBut buffer (more + extra) first third := by
  refine ⟨front.result.trans back.result, front.buffer.trans back.buffer,
    front.stores.trans back.stores, ?_⟩
  intro room
  rw [front.consumed room, back.consumed room, Nat.add_assoc]

/-- Directives that act alike are rendered alike. -/
theorem render_directive_alike {other : Bytes} {otherSpec : Spec} {otherSize extra : Nat}
    {args otherArgs : List Argument}
    (single : Template.segments template = [⟨.directive spec, size⟩])
    (otherSingle : Template.segments other = [⟨.directive otherSpec, otherSize⟩])
    (alike : spec.action (Cursor.ofList args) =
      ((otherSpec.action (Cursor.ofList otherArgs)).1,
        (otherSpec.action (Cursor.ofList otherArgs)).2.later extra))
    (buffer : Array UInt8) (mode : Mode) :
    Outcome.AlikeBut buffer extra (render buffer template args mode)
      (render buffer other otherArgs mode) := by
  by_cases nonempty : 0 < buffer.size
  · have call := ofCall_directive nonempty args mode single
    have otherCall := ofCall_directive nonempty otherArgs mode otherSingle
    have start : Rendering.start buffer nonempty args =
        { Rendering.start buffer nonempty otherArgs with cursor := Cursor.ofList args } := rfl
    rw [alike, start] at call
    simp only [Rendering.perform_with_cursor] at call
    rw [render_eq_ofCall nonempty, render_eq_ofCall nonempty, call, otherCall]
    by_cases full : buffer.size = 1
    · simp only [full, if_true]
      exact ⟨rfl, rfl, rfl, by omega⟩
    · simp only [full, if_false]
      exact ⟨rfl, rfl, rfl, fun _ => Nat.add_comm _ _⟩
  · have closed : Sink.ofBuffer? buffer = none := by simp [Sink.ofBuffer?, nonempty]
    simp only [render, closed]
    exact ⟨rfl, rfl, rfl, by omega⟩

end Call

end BoundedPrintf
