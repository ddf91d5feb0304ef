import Mathlib
import BoundedPrintf.Proofs.Binary64.Rounding

/-! Finite values as rational numbers. -/
namespace BoundedPrintf.Binary64

/-- The number that a finite value stands for. What is not finite counts as zero. -/
def toRat : Binary64 → ℚ
  | .finite negative units => (signed negative units : ℚ) / oneUnits
  | _ => 0

variable {units count : Nat} {value : Binary64}

theorem oneUnits_pos_rat : (0 : ℚ) < oneUnits := Nat.cast_pos.mpr oneUnits_pos

theorem toRat_finite (units : Nat) : (finite false units).toRat = (units : ℚ) / oneUnits := by
  rw [toRat, signed, if_neg Bool.false_ne_true, Int.cast_natCast]

/-- A finite value from zero on is a number of units, or the zero with a sign. -/
theorem units_of_nonneg (isFinite : value.isFinite = true) (nonneg : 0 ≤ value.toRat) :
    ∃ units, (value = .finite false units ∨ value = .finite true 0 ∧ units = 0) ∧
      value.toRat = (units : ℚ) / oneUnits := by
  cases value with
  | nan => exact absurd isFinite Bool.false_ne_true
  | infinity negative => exact absurd isFinite Bool.false_ne_true
  | finite negative units =>
      cases negative with
      | false => exact ⟨units, .inl rfl, toRat_finite units⟩
      | true =>
          have opposite : (finite true units).toRat = -((units : ℚ) / oneUnits) := by
            rw [toRat, signed, if_pos rfl, Int.cast_neg, Int.cast_natCast, neg_div]
          have most : (units : ℚ) / oneUnits ≤ 0 := by
            rw [opposite] at nonneg
            exact neg_nonneg.mp nonneg
          have none : units = 0 := by
            by_contra some
            have positive : (0 : ℚ) < units := Nat.cast_pos.mpr (Nat.pos_of_ne_zero some)
            exact absurd most (div_pos positive oneUnits_pos_rat).not_ge
          refine ⟨0, .inr ⟨by rw [none], rfl⟩, ?_⟩
          rw [opposite, none, Nat.cast_zero, zero_div, neg_zero]

/-- A value from its units, as a fraction. -/
theorem toRat_eq_div {numerator denominator : Nat} (decoded : value = .finite false units)
    (positive : 0 < denominator) (same : units * denominator = numerator * oneUnits) :
    value.toRat = (numerator : ℚ) / denominator := by
  have nonzero : (denominator : ℚ) ≠ 0 := Nat.cast_ne_zero.mpr positive.ne'
  rw [decoded, toRat_finite, div_eq_div_iff oneUnits_pos_rat.ne' nonzero]
  exact_mod_cast same

theorem lt_of_toRat_lt (less : (units : ℚ) / oneUnits < count) : units < count * oneUnits := by
  rw [div_lt_iff₀ oneUnits_pos_rat] at less
  exact_mod_cast less

theorem le_of_le_toRat (reached : (count : ℚ) ≤ units / oneUnits) : count * oneUnits ≤ units := by
  rw [le_div_iff₀ oneUnits_pos_rat] at reached
  exact_mod_cast reached

/-- A part of a number, in units. -/
theorem div_oneUnits_le {part : Nat} (positive : 0 < part) (few : part * units ≤ count * oneUnits) :
    (units : ℚ) / oneUnits ≤ count / (part : Nat) := by
  have share : (0 : ℚ) < (part : Nat) := Nat.cast_pos.mpr positive
  rw [Nat.mul_comm] at few
  rw [div_le_div_iff₀ oneUnits_pos_rat share]
  exact_mod_cast few

theorem floor_units (units : Nat) : ⌊(units : ℚ) / oneUnits⌋₊ = units / oneUnits :=
  Nat.floor_div_eq_div units oneUnits

/-- The units of a fraction. -/
theorem fraction_units (units : Nat) :
    ((units % oneUnits : Nat) : ℚ) / oneUnits = (units : ℚ) / oneUnits - (units / oneUnits : Nat) := by
  have parts : ((units / oneUnits : Nat) : ℚ) * oneUnits + ((units % oneUnits : Nat) : ℚ) = units := by
    exact_mod_cast Nat.div_add_mod' units oneUnits
  rw [← parts, add_div, mul_div_cancel_right₀ _ oneUnits_pos_rat.ne']
  ring

end BoundedPrintf.Binary64
