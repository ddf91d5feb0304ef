import Mathlib
import BoundedPrintf.Proofs.Rendering.Visits

/-! The two modes side by side. A strict run is the compat run up to the first directive with an
unknown conversion that the compat run processes, and there it ends. -/
namespace BoundedPrintf

/-- The error that a visited directive causes in strict mode. -/
def Visit.rejection? (visit : Visit) : Option RenderError :=
  match visit.segment with
  | .unsupported conversion => some (.unsupportedDirective visit.offset conversion)
  | .literal _ | .percent | .directive _ | .incomplete => none

theorem Visit.rejection?_eq_some {visit : Visit} {error : RenderError} :
    visit.rejection? = some error ↔ ∃ conversion, visit.segment = .unsupported conversion ∧
      error = .unsupportedDirective visit.offset conversion := by
  rw [rejection?]
  cases visit.segment with
  | literal | percent | directive | incomplete => simp
  | unsupported conversion => simp [eq_comm]

theorem Visit.rejects_of_find {visits : List Visit} {visit : Visit}
    (first : visits.find? (·.rejection?.isSome) = some visit) :
    ∃ error, visit.rejection? = some error := by
  have rejects := List.find?_some first
  exact Option.isSome_iff_exists.mp rejects

section Runs

variable [Build]

namespace Rendering

/-- Only an unknown conversion tells the modes apart. -/
theorem segment_strict {segment : Segment}
    (known : ∀ conversion, segment ≠ .unsupported conversion) (rendering : Rendering) :
    rendering.segment .strict segment = rendering.segment .compat segment := by
  cases segment with
  | unsupported conversion => exact absurd rfl (known conversion)
  | literal | percent | directive | incomplete => rfl

theorem run_strict (rendering : Rendering) (offset : Nat) (pieces : List Piece) :
    rendering.run .strict offset pieces =
      match (rendering.visits .compat offset pieces).find? (·.rejection?.isSome) with
      | some visit => (visit.before, visit.rejection?.map .failed)
      | none => rendering.run .compat offset pieces := by
  induction pieces generalizing rendering offset with
  | nil => rfl
  | cons piece rest ih =>
      cases free : rendering.sink.isFull with
      | true => rw [visits_of_full free, run_of_full free, run_of_full free, List.find?_nil]
      | false =>
          by_cases known : ∀ conversion, piece.segment ≠ .unsupported conversion
          · have passes : (Visit.mk offset piece.segment rendering).rejection?.isSome = false := by
              rw [← Bool.not_eq_true, Option.isSome_iff_exists]
              rintro ⟨error, rejected⟩
              obtain ⟨conversion, unknown, _⟩ := Visit.rejection?_eq_some.mp rejected
              exact known conversion unknown
            rcases step : rendering.segment .compat piece.segment with ⟨next, progress⟩
            have stepStrict := (segment_strict known rendering).trans step
            by_cases more : progress = .more
            · rw [more] at step stepStrict
              rw [run_of_more free stepStrict, visits_of_more free step, run_of_more free step,
                List.find?_cons_of_neg (by simp [passes]), ih]
            · rw [run_of_ended free stepStrict more, visits_of_ended free step more,
                run_of_ended free step more, List.find?_cons_of_neg (by simp [passes]),
                List.find?_nil]
          · simp only [not_forall, not_not] at known
            obtain ⟨conversion, unknown⟩ := known
            have stepStrict : rendering.segment .strict piece.segment =
                (rendering, .rejected conversion) := by
              rw [unknown]
              rfl
            have step : rendering.segment .compat piece.segment = (rendering, .more) := by
              rw [unknown]
              rfl
            have rejected : (Visit.mk offset piece.segment rendering).rejection? =
                some (.unsupportedDirective offset conversion) :=
              Visit.rejection?_eq_some.mpr ⟨conversion, unknown, rfl⟩
            rw [run_of_rejected free stepStrict, visits_of_more free step,
              List.find?_cons_of_pos (by simp [rejected])]
            simp only [rejected]
            rfl

end Rendering

variable {buffer : Array UInt8} {template : Bytes} {args : List Argument}

theorem ofCall_strict (nonempty : 0 < buffer.size) (template : Bytes) (args : List Argument) :
    Rendering.ofCall buffer nonempty template args .strict =
      match (visitsOfCall buffer nonempty template args .compat).find? (·.rejection?.isSome) with
      | some visit => (visit.before, visit.rejection?.map .failed)
      | none => Rendering.ofCall buffer nonempty template args .compat :=
  Rendering.run_strict _ 0 (Template.segments template)

theorem render_compat_ne_error (buffer : Array UInt8) (nonempty : 0 < buffer.size)
    (template : Bytes) (args : List Argument) (error : RenderError) :
    (render buffer template args .compat).result ≠ .error error := by
  intro failed
  cases (render_fails nonempty failed).1

/-- A strict call that does not fail is the compat call. -/
theorem render_strict_of_no_failure (nonempty : 0 < buffer.size)
    (passes : ∀ error, (render buffer template args .strict).result ≠ .error error) :
    render buffer template args .compat = render buffer template args .strict := by
  have strict := ofCall_strict nonempty template args
  cases first : (visitsOfCall buffer nonempty template args .compat).find?
      (·.rejection?.isSome) with
  | none =>
      simp only [first] at strict
      rw [render_eq_ofCall nonempty, render_eq_ofCall nonempty, strict]
  | some visit =>
      obtain ⟨error, rejects⟩ := Visit.rejects_of_find first
      simp only [first, rejects] at strict
      refine absurd ?_ (passes error)
      rw [result_render nonempty, strict]
      rfl

theorem ofCall_of_failure (nonempty : 0 < buffer.size) {mode : Mode} {error : RenderError}
    (failed : (render buffer template args mode).result = .error error) :
    ∃ final, Rendering.ofCall buffer nonempty template args mode = (final, some (.failed error)) := by
  rw [render_eq_ofCall nonempty] at failed
  rcases ended : Rendering.ofCall buffer nonempty template args mode with ⟨final, _ | stopped | _⟩
  · rw [ended] at failed
    cases failed
  · rw [ended] at failed
    exact ⟨final, by rw [Ending.error.inj failed]⟩
  · rw [ended] at failed
    cases failed

/-- A strict call fails at the first visit of the compat call that causes an error. -/
theorem visit_of_failure (nonempty : 0 < buffer.size) {error : RenderError}
    (failed : (render buffer template args .strict).result = .error error) :
    ∃ front visit back,
      visitsOfCall buffer nonempty template args .compat = front ++ visit :: back ∧
        visit.rejection? = some error ∧ (∀ earlier ∈ front, earlier.rejection? = none) ∧
        Rendering.ofCall buffer nonempty template args .strict =
          (visit.before, some (.failed error)) := by
  obtain ⟨final, ended⟩ := ofCall_of_failure nonempty failed
  have strict := ofCall_strict nonempty template args
  rw [ended] at strict
  cases first : (visitsOfCall buffer nonempty template args .compat).find?
      (·.rejection?.isSome) with
  | none =>
      simp only [first] at strict
      refine absurd ?_ (render_compat_ne_error buffer nonempty template args error)
      rw [result_render nonempty, ← strict]
  | some visit =>
      obtain ⟨other, rejects⟩ := Visit.rejects_of_find first
      simp only [first, rejects] at strict
      cases strict
      obtain ⟨_, front, back, split, passes⟩ := List.find?_eq_some_iff_append.mp first
      refine ⟨front, visit, back, split, rejects, ?_, ended⟩
      intro earlier member
      simpa using passes earlier member

/-- A strict call fails where the compat call processes a directive with an unknown conversion. -/
theorem render_strict_fails_iff (nonempty : 0 < buffer.size) :
    (∃ error, (render buffer template args .strict).result = .error error) ↔
      ∃ visit ∈ visitsOfCall buffer nonempty template args .compat,
        ∃ conversion, visit.segment = .unsupported conversion := by
  constructor
  · rintro ⟨error, failed⟩
    obtain ⟨front, visit, back, split, rejects, _⟩ := visit_of_failure nonempty failed
    obtain ⟨conversion, unknown, _⟩ := Visit.rejection?_eq_some.mp rejects
    exact ⟨visit, split ▸ List.mem_append_right front List.mem_cons_self, conversion, unknown⟩
  · rintro ⟨visit, member, conversion, unknown⟩
    have rejects := Visit.rejection?_eq_some.mpr ⟨conversion, unknown, rfl⟩
    have strict := ofCall_strict nonempty template args
    cases first : (visitsOfCall buffer nonempty template args .compat).find?
        (·.rejection?.isSome) with
    | none =>
        have passes := List.find?_eq_none.mp first visit member
        simp [rejects] at passes
    | some earliest =>
        obtain ⟨error, rejectsFirst⟩ := Visit.rejects_of_find first
        simp only [first, rejectsFirst] at strict
        refine ⟨error, ?_⟩
        rw [result_render nonempty, strict]
        rfl

/-- Where a strict call fails, a directive with an unknown conversion stands, the first one of the
template. The output is that of the part in front of it. -/
theorem render_strict_of_failure (nonempty : 0 < buffer.size) {offset : Nat} {conversion : UInt8}
    (failed : (render buffer template args .strict).result =
      .error (.unsupportedDirective offset conversion)) :
    (∃ passed next rest, Template.segments template = passed ++ next :: rest ∧
      Template.extent passed = offset ∧ next.segment = .unsupported conversion ∧
      ∀ earlier ∈ passed, ∀ other, earlier.segment ≠ .unsupported other) ∧
    emitted buffer template args .strict = emitted buffer (template.take offset) args .compat ∧
    emitted buffer template args .strict <+: emitted buffer template args .compat := by
  obtain ⟨front, visit, back, split, rejects, passes, ended⟩ := visit_of_failure nonempty failed
  obtain ⟨_, unknown, cause⟩ := Visit.rejection?_eq_some.mp rejects
  obtain ⟨rfl, rfl⟩ := RenderError.unsupportedDirective.inj cause
  obtain ⟨passed, next, rest, cut, offset, segment, same, _, call⟩ := visitsOfCall_split split
  have output : emitted buffer template args .strict = visit.before.sink.output := by
    rw [emitted_eq_output nonempty, ended]
  refine ⟨⟨passed, next, rest, cut, offset.symm, segment.symm.trans unknown, ?_⟩, ?_, ?_⟩
  · intro earlier member other unknownEarlier
    have visited : earlier.segment ∈ front.map Visit.segment := same ▸ List.mem_map_of_mem member
    obtain ⟨before, inFront, segmentBefore⟩ := List.mem_map.mp visited
    have rejectsBefore := Visit.rejection?_eq_some.mpr
      ⟨other, segmentBefore.trans unknownEarlier, rfl⟩
    cases (passes before inFront).symm.trans rejectsBefore
  · rw [output, emitted_eq_output nonempty, call]
  · rw [output]
    exact (outputs_of_call nonempty template args .compat).2 visit
      (split ▸ List.mem_append_right front List.mem_cons_self)

/-- A compat call processes a directive with an unknown conversion where the part of the template in
front of it is complete and leaves room. -/
theorem unknown_visited_iff (nonempty : 0 < buffer.size) :
    (∃ visit ∈ visitsOfCall buffer nonempty template args .compat,
        ∃ conversion, visit.segment = .unsupported conversion) ↔
      ∃ passed next rest conversion, Template.segments template = passed ++ next :: rest ∧
        next.segment = .unsupported conversion ∧
        (∀ earlier ∈ passed, earlier.segment ≠ .incomplete) ∧
        ∃ written, (render buffer (template.take (Template.extent passed)) args .compat).result =
          .ok written ∧ written < buffer.size - 1 := by
  constructor
  · rintro ⟨visit, member, conversion, unknown⟩
    obtain ⟨answered, spare, _⟩ := render_before_visit member
    obtain ⟨front, back, split⟩ := List.append_of_mem member
    obtain ⟨passed, next, rest, cut, offset, segment, _⟩ := visitsOfCall_split split
    exact ⟨passed, next, rest, conversion, cut, segment ▸ unknown,
      Template.complete_before (fun _ => beforeNul_no_nul _) cut, _, offset ▸ answered,
      offset ▸ spare⟩
  · rintro ⟨passed, next, rest, conversion, cut, unknown, _, written, answered, spare⟩
    have course := visitsOfCall_whereRoom nonempty template args .compat
    obtain ⟨visit, member, _, segment⟩ :=
      (course.reached passed next rest cut).mpr ⟨_, answered, spare⟩
    exact ⟨visit, member, conversion, segment.trans unknown⟩

/-- A strict call that does not fail is the compat call, and one that fails is the compat call of what
stands in front of the first directive with an unknown conversion. It fails where such a directive
is reached before the buffer is full. -/
theorem strict_and_compat (nonempty : 0 < buffer.size) (template : Bytes) (args : List Argument) :
    let strict := render buffer template args .strict
    let compat := render buffer template args .compat
    ((∀ error, strict.result ≠ .error error) → compat = strict) ∧
    (∀ offset conversion, strict.result = .error (.unsupportedDirective offset conversion) →
      template[offset]? = some (octet '%') ∧
      (Directive.parse (template.drop (offset + 1))).1 = .unsupported conversion ∧
      (∃ passed next rest, Template.segments template = passed ++ next :: rest ∧
        Template.extent passed = offset ∧ next.segment = .unsupported conversion ∧
        ∀ earlier ∈ passed, ∀ other, earlier.segment ≠ .unsupported other) ∧
      emitted buffer template args .strict = emitted buffer (template.take offset) args .compat ∧
      emitted buffer template args .strict <+: emitted buffer template args .compat) ∧
    ((∃ error, strict.result = .error error) ↔
      ∃ passed next rest conversion, Template.segments template = passed ++ next :: rest ∧
        next.segment = .unsupported conversion ∧
        (∀ earlier ∈ passed, earlier.segment ≠ .incomplete) ∧
        ∃ written, (render buffer (template.take (Template.extent passed)) args .compat).result =
          .ok written ∧ written < buffer.size - 1) := by
  refine ⟨render_strict_of_no_failure nonempty, ?_, ?_⟩
  · intro offset conversion failed
    obtain ⟨⟨passed, next, rest, cut, rfl, unknown, first⟩, output⟩ :=
      render_strict_of_failure nonempty failed
    have reads : next.segment = (Directive.unsupported conversion).toSegment := unknown
    obtain ⟨percent, parsed⟩ := Template.directive_behind cut reads nofun
    exact ⟨percent, parsed, ⟨passed, next, rest, cut, rfl, unknown, first⟩, output⟩
  · exact (render_strict_fails_iff nonempty).trans (unknown_visited_iff nonempty)

end Runs

/-- The compat call goes on where the strict one ends. -/
theorem rejection_ends_output :
    let _ : Build := .checked
    let strict := emitted (Array.replicate 9 0xAA) (ascii "ab%d%-5qc%d") [.int 7, .int 8] .strict
    strict = ascii "ab7" ∧
      strict <+: emitted (Array.replicate 9 0xAA) (ascii "ab%d%-5qc%d") [.int 7, .int 8] .compat := by
  intro _
  have failed : (render (Array.replicate 9 0xAA) (ascii "ab%d%-5qc%d") [.int 7, .int 8]
      .strict).result = .error (.unsupportedDirective 4 (octet 'q')) := by cbv
  obtain ⟨_, _, _, output, front⟩ := (strict_and_compat
    (by decide : 0 < (Array.replicate 9 (0xAA : UInt8)).size) (ascii "ab%d%-5qc%d")
    [.int 7, .int 8]).2.1 4 (octet 'q') failed
  exact ⟨output.trans (by cbv), front⟩

end BoundedPrintf
