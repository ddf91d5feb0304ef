import Mathlib
import BoundedPrintf.Proofs.Argument.Narrowing
import BoundedPrintf.Proofs.Field.Integer
import BoundedPrintf.Proofs.Rendering.Requests
import BoundedPrintf.Proofs.Rendering.Single

/-! The way of an integer from an argument to a text and back. What is read off the text is the part
of the integer that the length class has room for. -/
namespace BoundedPrintf

open Grammar
open Argument (Represents Supplied Supply kept)

theorem LengthClass.bits_bounds (length : LengthClass) : 0 < length.bits ∧ length.bits ≤ 64 := by
  cases length <;> decide

theorem Argument.natAbs_kept_lt (signed : Bool) (length : LengthClass) (value : Int) :
    (kept signed length.bits value).natAbs < 2 ^ 64 := by
  obtain ⟨positive, most⟩ := length.bits_bounds
  have size : 0 < 2 ^ length.bits := Nat.two_pow_pos _
  have bound : 2 ^ length.bits ≤ 2 ^ 64 := Nat.pow_le_pow_right (by decide) most
  cases signed with
  | false =>
      have nonneg := Int.emod_nonneg value (b := ((2 ^ length.bits : Nat) : Int)) (by omega)
      have below := Int.emod_lt_of_pos value (b := ((2 ^ length.bits : Nat) : Int)) (by omega)
      simp only [kept, Bool.false_eq_true, if_false]
      omega
  | true =>
      have least := @Int.le_bmod value _ size
      have most := @Int.bmod_lt value _ size
      simp only [kept, if_true]
      omega

namespace Spec

variable {spec : Spec} {conversion : IntegerConversion}

/-- What decides which kind of integer text a directive makes. -/
structure SameKind (first second : Spec) : Prop where
  conversion : first.conversion = second.conversion
  length : first.length = second.length
  alternate : first.flags.alternate = second.flags.alternate

theorem SameKind.trans {first second third : Spec} (front : SameKind first second)
    (back : SameKind second third) : SameKind first third :=
  ⟨front.conversion.trans back.conversion, front.length.trans back.length,
    front.alternate.trans back.alternate⟩

theorem sameKind_width (spec : Spec) (width : Int) (star : Prop) [Decidable star] :
    SameKind (if star then spec.withWidth width else spec) spec := by
  split <;> exact ⟨rfl, rfl, rfl⟩

theorem sameKind_precision (spec : Spec) (precision : Int) (star : Prop) [Decidable star] :
    SameKind (if star then spec.withPrecision precision else spec) spec := by
  split <;> exact ⟨rfl, rfl, rfl⟩

/-- The values of stars have no part in it. -/
theorem sameKind_answered (spec : Spec) (answer : Request → Supply) :
    SameKind (spec.answered answer) spec :=
  (sameKind_precision _ (answer .precision).star _).trans
    (sameKind_width spec (answer .width).star (spec.width = .argument))

theorem action_of_arguments [Build] (spec : Spec) (stars : List Argument) (last : Argument)
    (enough : stars.length + 1 = spec.requests.length) : ∃ answer,
    (spec.action (Cursor.ofList (stars ++ [last]))).1 =
      .ofEffect ((spec.answered answer).effect (some last)) := by
  have place : stars.length = spec.requests.idxOf .value := by
    have := spec.length_requests
    omega
  have start : Cursor.ofList (stars ++ [last]) = Cursor.after (stars ++ [last]) 0 := by
    simp [Cursor.ofList, Cursor.after]
  refine ⟨fun request => (stars ++ [last])[0 + spec.requests.idxOf request]?, ?_⟩
  rw [action, start, resolve_after]
  simp only [Cursor.next_after, Nat.zero_add, ← place, List.getElem?_concat_length]

theorem effect_of_integer [Build] (same : spec.conversion = conversion.byte) (supply : Supply) :
    spec.effect supply = .emit (if conversion.isSigned then
      Field.signed (supply.signed spec.length) spec
      else Field.unsigned (supply.unsigned spec.length) spec) := by
  rw [effect, same]
  cases conversion <;> rfl

theorem value?_of_integer [Build] (same : spec.conversion = conversion.byte) (supplied : Supplied) :
    ∃ text, Action.ofEffect (spec.effect (some supplied.argument)) = .emit text ∧
      Field.value? conversion spec.flags.alternate text =
        some (kept conversion.isSigned spec.length.bits supplied.value) := by
  have small := Argument.natAbs_kept_lt conversion.isSigned spec.length supplied.value
  rw [effect_of_integer same, Action.ofEffect]
  refine ⟨_, rfl, ?_⟩
  cases signed : conversion.isSigned with
  | true =>
      have narrowed := Supplied.signed_argument supplied spec.length
      rw [signed, kept, if_pos rfl, ← narrowed] at small
      rw [if_pos rfl, Field.value?_signed signed small, kept, if_pos rfl, narrowed]
  | false =>
      have narrowed := Supplied.unsigned_argument supplied spec.length
      rw [signed, kept, if_neg Bool.false_ne_true, ← narrowed, Int.natAbs_natCast] at small
      rw [if_neg Bool.false_ne_true, Field.value?_unsigned small same, kept,
        if_neg Bool.false_ne_true, narrowed]

end Spec

end BoundedPrintf
