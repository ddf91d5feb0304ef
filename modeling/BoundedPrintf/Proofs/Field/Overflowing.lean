import Mathlib
import BoundedPrintf.Field
import BoundedPrintf.Proofs.Binary64.Powers
import BoundedPrintf.Proofs.FloatText.Parts

/-! Fields that stop the program. The general style counts the decimal places of a number below one
in a machine word, and with a precision near the largest size the count does not fit. -/
namespace BoundedPrintf

/-- With so many places nothing is added. -/
theorem Binary64.roundAt_of_many {places : Nat} (many : infiniteTens ≤ places) (value : Binary64) :
    value.roundAt places = if wholeFrom.le value then value else value + half * zero := by
  have limit : infiniteTens = 309 := rfl
  have least : min (-(min places 400 : Nat) : Int).natAbs infiniteTens = infiniteTens := by omega
  have below : (-(min places 400 : Nat) : Int) < 0 := by omega
  have none : one / .infinity false = zero := by decide +kernel
  rw [roundAt, powerOfTen, least, tens_infiniteTens, if_pos below, none]

namespace Field

/-- The decimal places of a double in general style exceed the largest size. -/
structure Overflows (value : Binary64) (spec : Spec) : Prop where
  finite : value.isNaN = false ∧ value.isInfinite = false
  style : Char.ofUInt8 (spec.conversion ||| 0x20) = 'g'
  places :
    let significant := max (spec.precision.value?.getD defaultPrecision) 1
    let x := ((if value.isNegative then -value else value).normalize (significant - 1)).2
    x < 0 ∧ -4 < x ∧ maxSize < significant - 1 + x.natAbs

section Overflowing

variable {value : Binary64} {spec : Spec}

theorem Overflows.precision (overflows : Overflows value spec) :
    maxSize - 2 < spec.precision.value?.getD defaultPrecision := by
  obtain ⟨negative, least, more⟩ := overflows.places
  have word : maxSize = 2 ^ 64 - 1 := rfl
  omega

variable [Build]

theorem floatText_eq_none_iff {magnitude : Binary64} : floatText magnitude spec = none ↔
    Char.ofUInt8 (spec.conversion ||| 0x20) = 'g' ∧
      FloatText.general magnitude (spec.precision.value?.getD defaultPrecision) spec.uppercase
        spec.flags.alternate = none := by
  rw [floatText]
  split
  · next exponential =>
      refine iff_of_false nofun ?_
      rintro ⟨general, -⟩
      exact absurd (exponential.symm.trans general) (by decide)
  · next general => exact (and_iff_right general).symm
  · next other => exact iff_of_false nofun fun ⟨general, _⟩ => other general

/-- A double has no field where a build that checks its sums finds too many decimal places. -/
theorem float_eq_none_iff : float value spec = none ↔
    Build.checksSums = true ∧ Overflows value spec := by
  rw [float]
  split
  · next nan =>
      exact iff_of_false nofun fun ⟨_, overflows⟩ => Bool.false_ne_true (overflows.finite.1.symm.trans nan)
  · next number =>
      split
      · next infinite =>
          exact iff_of_false nofun fun ⟨_, overflows⟩ =>
            Bool.false_ne_true (overflows.finite.2.symm.trans infinite)
      · next finite =>
          rw [Option.map_eq_none_iff, floatText_eq_none_iff, FloatText.general_eq_none_iff]
          have finite := And.intro (Bool.eq_false_of_not_eq_true number)
            (Bool.eq_false_of_not_eq_true finite)
          exact ⟨fun ⟨style, checks, places⟩ => ⟨checks, finite, style, places⟩,
            fun ⟨checks, overflows⟩ => ⟨overflows.style, checks, overflows.places⟩⟩

end Overflowing

/-- The number 0.05 with the largest precision. -/
theorem overflows_twentieth : Overflows (.ofBits 0x3FA999999999999A)
    { precision := .fixed maxSize, conversion := octet 'g' } := by
  have exponent : ((Binary64.ofBits 0x3FA999999999999A).normalize (maxSize - 1)).2 = -2 := by
    have many : Binary64.infiniteTens ≤ maxSize - 1 := by decide
    simp only [Binary64.normalize, Binary64.roundAt_of_many many]
    decide +kernel
  have magnitude : (Binary64.ofBits 0x3FA999999999999A).isNegative = false := by decide +kernel
  have significant : max maxSize 1 = maxSize := by decide
  refine ⟨by decide +kernel, by decide, ?_⟩
  simp only [magnitude, Bool.false_eq_true, if_false, Extent.value?, Option.getD_some, significant,
    exponent]
  decide

end Field

end BoundedPrintf
