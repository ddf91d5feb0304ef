import Mathlib
import BoundedPrintf.Proofs.FloatText.Digits

/-! The mantissa of the exponential style. The first guess is near for every encoding, so after the
moves and the rounding it has one digit before the point, and that digit is not zero. -/
namespace BoundedPrintf

namespace Binary64

variable {units : Nat}

theorem units_of_positive {value : Binary64} (finite : value.isFinite = true)
    (positive : value.isPositive = true) : ∃ units, value = .finite false units ∧ 0 < units := by
  cases value with
  | nan => exact absurd finite Bool.false_ne_true
  | infinity negative => exact absurd finite Bool.false_ne_true
  | finite negative units =>
      cases negative with
      | false =>
          rw [isPositive_finite, decide_eq_true_eq] at positive
          exact ⟨units, rfl, positive⟩
      | true =>
          have above : (0 : Int) < -(units : Int) := of_decide_eq_true positive
          omega

/-- The bounds of a mantissa as comparisons. -/
theorem le_lt_of_within {value : Binary64}
    (within : value.Within oneUnits (10 * oneUnits - 1)) :
    one.le value = true ∧ value.lt ten = true := by
  obtain ⟨units, rfl, low, high⟩ := within
  have less : units < 10 * oneUnits := by
    have some := oneUnits_pos
    omega
  rw [one_le_finite, ten, lt_finite]
  exact ⟨decide_eq_true low, decide_eq_true less⟩

end Binary64

theorem decimalDigit_bounds {digit : Nat} (least : 1 ≤ digit) (most : digit ≤ 9) :
    octet '1' ≤ decimalDigit digit ∧ decimalDigit digit ≤ octet '9' := by
  have all : ∀ digit : Fin 10, 1 ≤ digit.val →
      octet '1' ≤ decimalDigit digit ∧ decimalDigit digit ≤ octet '9' := by decide
  exact all ⟨digit, by omega⟩ least

namespace FloatText

/-- The exponential style is normalised. For every finite magnitude above zero the mantissa lies
between one and ten after rounding, and the text shows it as one digit that is not zero. -/
theorem exponential_normalised (bits : UInt64) (precision : Nat) (upper alternate : Bool)
    (finite : (Binary64.ofBits bits).isFinite = true)
    (positive : (Binary64.ofBits bits).isPositive = true) :
    let normalized := (Binary64.ofBits bits).normalize precision
    let text := exponential (.ofBits bits) precision upper alternate
    Binary64.one.le normalized.1 = true ∧ normalized.1.lt Binary64.ten = true ∧
      -324 ≤ normalized.2 ∧ normalized.2 ≤ 308 ∧
      (∃ digit, text.integral = [digit] ∧ octet '1' ≤ digit ∧ digit ≤ octet '9') ∧
      text.exponent = some (octet (if upper then 'E' else 'e'), normalized.2) := by
  intro normalized text
  obtain ⟨units, decoded, some⟩ := Binary64.units_of_positive finite positive
  obtain ⟨representable, small⟩ := Binary64.representable_ofBits decoded
  have bounds := Binary64.normalize_bounds representable some small precision
  rw [← decoded] at bounds
  obtain ⟨near, within⟩ := bounds
  obtain ⟨low, high⟩ := Binary64.le_lt_of_within within
  obtain ⟨first, least, most, bytes⟩ := IntegralDigits.split_mantissa within {}
  exact ⟨low, high, near.least, near.most,
    ⟨decimalDigit first, bytes, decimalDigit_bounds least most⟩, rfl⟩

/-- Rounding 9.996 to two places carries into the exponent. -/
theorem carry_normalised :
    (Binary64.ofBits 0x4023FDF3B645A1CB).isFinite = true ∧
      (Binary64.ofBits 0x4023FDF3B645A1CB).isPositive = true ∧
      ((Binary64.ofBits 0x4023FDF3B645A1CB).normalize 2).1.lt Binary64.ten = true ∧
      (exponential (.ofBits 0x4023FDF3B645A1CB) 2 false false).exponent = some (octet 'e', 1) := by
  have finite : (Binary64.ofBits 0x4023FDF3B645A1CB).isFinite = true := by decide +kernel
  have positive : (Binary64.ofBits 0x4023FDF3B645A1CB).isPositive = true := by decide +kernel
  obtain ⟨-, below, -, -, -, exponent⟩ :=
    exponential_normalised 0x4023FDF3B645A1CB 2 false false finite positive
  have one : ((Binary64.ofBits 0x4023FDF3B645A1CB).normalize 2).2 = 1 := by decide +kernel
  rw [one] at exponent
  exact ⟨finite, positive, below, exponent⟩

end FloatText

end BoundedPrintf
