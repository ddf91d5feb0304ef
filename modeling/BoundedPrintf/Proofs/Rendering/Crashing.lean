import Mathlib
import BoundedPrintf.Proofs.Field.Overflowing
import BoundedPrintf.Proofs.Rendering.Visits

/-! Calls that do not return. A call crashes where it comes to a double in general style with more
decimal places than a size can count, and the build checks its sums. Every other call keeps the
contract with its buffer. -/
namespace BoundedPrintf

/-- The directive of a visit is given a double whose decimal places exceed the largest size. -/
def Visit.Overflows (visit : Visit) : Prop :=
  ∃ spec : Spec, visit.segment = .directive spec ∧
    Field.Overflows (.ofBits (spec.resolve visit.before.cursor).2.next.1.double)
      (spec.resolve visit.before.cursor).1

section Crashes

variable [Build]

theorem Spec.effect_eq_crash_iff {spec : Spec} {supply : Argument.Supply} :
    spec.effect supply = .crash ↔
      Build.checksSums = true ∧ Field.Overflows (.ofBits supply.double) spec := by
  constructor
  · intro crashes
    unfold effect at crashes
    split at crashes
    case h_7 | h_8 | h_9 | h_10 | h_11 | h_12 =>
      cases text : Field.float (.ofBits supply.double) spec with
      | none => exact Field.float_eq_none_iff.mp text
      | some chunks =>
          rw [text] at crashes
          cases crashes
    case h_16 => split at crashes <;> cases crashes
    all_goals cases crashes
  · rintro ⟨checks, overflows⟩
    have general : ∀ conversion : UInt8, Char.ofUInt8 (conversion ||| 0x20) = 'g' →
        Char.ofUInt8 conversion = 'g' ∨ Char.ofUInt8 conversion = 'G' := by
      decide +kernel
    have none := Field.float_eq_none_iff.mpr ⟨checks, overflows⟩
    rcases general _ overflows.style with letter | letter <;>
    · simp only [effect, letter, none]
      rfl

namespace Rendering

theorem segment_eq_crashed_iff (rendering : Rendering) (mode : Mode) (offset : Nat)
    (segment : Segment) : (rendering.segment mode segment).2 = .crashed ↔
      Build.checksSums = true ∧ (Visit.mk offset segment rendering).Overflows := by
  constructor
  · intro crashed
    obtain ⟨⟨spec, rfl, crashes⟩, -⟩ := segment_crashes (Prod.ext rfl crashed)
    obtain ⟨checks, overflows⟩ := Spec.effect_eq_crash_iff.mp crashes
    exact ⟨checks, spec, rfl, overflows⟩
  · rintro ⟨checks, spec, same, overflows⟩
    obtain rfl : segment = .directive spec := same
    have crashes : (spec.resolve rendering.cursor).1.effect (spec.resolve rendering.cursor).2.next.1 =
        .crash := Spec.effect_eq_crash_iff.mpr ⟨checks, overflows⟩
    simp only [Rendering.segment, directive, crashes]
    rfl

/-- A run crashes at its last visit, and only there. -/
theorem run_eq_crashed_iff (rendering : Rendering) (mode : Mode) (offset : Nat)
    (pieces : List Piece) : (rendering.run mode offset pieces).2 = some .crashed ↔
      Build.checksSums = true ∧
        ∃ visit ∈ rendering.visits mode offset pieces, visit.Overflows := by
  induction pieces generalizing rendering offset with
  | nil => simp [run, visits]
  | cons piece rest ih =>
      cases free : rendering.sink.isFull with
      | true => simp [run_of_full free, visits_of_full free]
      | false =>
          have here := rendering.segment_eq_crashed_iff mode offset piece.segment
          rcases step : rendering.segment mode piece.segment with ⟨next, progress⟩
          rw [step] at here
          by_cases more : progress = .more
          · rw [more] at step here
            rw [run_of_more free step, visits_of_more free step, ih]
            have first : Build.checksSums = true →
                ¬ (Visit.mk offset piece.segment rendering).Overflows := by
              intro checks overflows
              cases here.mpr ⟨checks, overflows⟩
            simp only [List.mem_cons, exists_eq_or_imp]
            exact and_congr_right fun checks => (or_iff_right (first checks)).symm
          · have crashed : progress.stop? offset = some .crashed ↔ progress = .crashed := by
              cases progress <;> simp [Progress.stop?]
            rw [run_of_ended free step more, visits_of_ended free step more, crashed, here]
            simp only [List.mem_singleton, exists_eq_left]

end Rendering

/-- A call crashes exactly if its build checks sums and one of its visits overflows. -/
theorem render_crash_iff_overflows {buffer : Array UInt8} (nonempty : 0 < buffer.size)
    (template : Bytes) (args : List Argument) (mode : Mode) :
    (render buffer template args mode).result = .crash ↔ Build.checksSums = true ∧
      ∃ visit ∈ visitsOfCall buffer nonempty template args mode, visit.Overflows :=
  (render_crash_iff nonempty template args mode).trans (Rendering.run_eq_crashed_iff _ _ _ _)

end Crashes

section LargestPrecision

/-- The general style with the largest precision. -/
def largestPrecision : Bytes := ascii "%.18446744073709551615g"

theorem overflows_largestPrecision (rendering : Rendering)
    (given : rendering.cursor.next.1 = some (.double 0x3FA999999999999A)) :
    (Visit.mk 0 (.directive { precision := .fixed maxSize, conversion := octet 'g' })
      rendering).Overflows := by
  refine ⟨_, rfl, ?_⟩
  have resolved : ({ precision := .fixed maxSize, conversion := octet 'g' } : Spec).resolve
      rendering.cursor = ({ precision := .fixed maxSize, conversion := octet 'g' }, rendering.cursor) :=
    rfl
  rw [resolved, given]
  exact Field.overflows_twentieth

/-- The number 0.05 is not written, and the buffer is left as it is. -/
theorem render_largestPrecision [Build] (checks : Build.checksSums = true) {buffer : Array UInt8}
    (room : 1 < buffer.size) (mode : Mode) :
    (render buffer largestPrecision [.double 0x3FA999999999999A] mode).result = .crash ∧
      (render buffer largestPrecision [.double 0x3FA999999999999A] mode).buffer = buffer := by
  have nonempty : 0 < buffer.size := Nat.lt_of_succ_lt room
  have segments : Template.segments largestPrecision =
      [⟨.directive { precision := .fixed maxSize, conversion := octet 'g' }, 23⟩] := by
    cbv
  have free : (Rendering.start buffer nonempty [.double 0x3FA999999999999A]).sink.isFull = false := by
    rw [Sink.isFull_eq_false_iff]
    simp only [Rendering.start, Sink.room, Sink.capacity]
    omega
  have overflows := overflows_largestPrecision
    (Rendering.start buffer nonempty [.double 0x3FA999999999999A]) rfl
  have crashed := (Rendering.segment_eq_crashed_iff _ mode 0 _).mpr ⟨checks, overflows⟩
  rcases step : (Rendering.start buffer nonempty [.double 0x3FA999999999999A]).segment mode
    (.directive { precision := .fixed maxSize, conversion := octet 'g' }) with ⟨final, progress⟩
  obtain rfl : progress = .crashed := (congrArg Prod.snd step).symm.trans crashed
  have ended : Rendering.ofCall buffer nonempty largestPrecision [.double 0x3FA999999999999A] mode =
      (final, some .crashed) := by
    rw [Rendering.ofCall, segments]
    exact Rendering.run_of_crashed free step
  have same : final.sink.buffer = buffer := by
    rw [(Rendering.segment_crashes step).2]
    rfl
  rw [render_eq_ofCall nonempty, ended]
  exact ⟨rfl, same⟩

end LargestPrecision

end BoundedPrintf
