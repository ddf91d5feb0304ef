import Mathlib
import BoundedPrintf.Proofs.Binary64.Places
import BoundedPrintf.Proofs.Binary64.Value
import BoundedPrintf.Proofs.FloatText.Form
import BoundedPrintf.Proofs.FloatText.Whole

/-! The fixed style as rounding. The sum of a value and half a unit of the last place is cut off behind
that place. Adding is rounded, and so are the products that the digits are read off, so the text is that
of half away from zero only where no tie is too near. -/
namespace BoundedPrintf

open Binary64 (finite oneUnits halfUnits roundUnits HalfUnit Representable)

section Fractions

/-- What a leading digit leaves of a number up to ten. -/
theorem Binary64.leadingDigit_bounds {units : Nat} (few : units ≤ 10 * oneUnits) :
    (finite false units).leadingDigit * oneUnits ≤ units ∧
      units ≤ (finite false units).leadingDigit * oneUnits + oneUnits := by
  have digit : (finite false units).leadingDigit = min 9 (units / oneUnits) := rfl
  have least := Nat.div_mul_le_self units oneUnits
  have most := Nat.lt_mul_of_div_lt (Nat.lt_succ_self (units / oneUnits)) oneUnits_pos
  rw [Nat.succ_mul] at most
  rw [digit]
  rcases Nat.le_total 9 (units / oneUnits) with large | small
  · have nine : 9 * oneUnits ≤ units := (Nat.le_div_iff_mul_le oneUnits_pos).mp large
    rw [Nat.min_eq_left large]
    omega
  · rw [Nat.min_eq_right small]
    omega

variable {units : Nat} (most : units ≤ oneUnits)
include most

/-- One digit of a fraction. Multiplying by ten rounds, but taking the digit away does not. -/
theorem Binary64.peel_digit :
    let scaled := finite false units * ten
    ∃ rest, scaled - ofNat scaled.leadingDigit = finite false rest ∧
      rest ≤ oneUnits ∧ scaled.leadingDigit ≤ 9 ∧
      2 ^ 53 * (scaled.leadingDigit * oneUnits + rest) ≤ 2 ^ 53 * (10 * units) + 10 * oneUnits ∧
      2 ^ 53 * (10 * units) ≤ 2 ^ 53 * (scaled.leadingDigit * oneUnits + rest) + 10 * oneUnits := by
  intro scaled
  have ten : Representable (10 * oneUnits) := representable_mul_oneUnits (by decide)
  have few : roundUnits (10 * units * oneUnits) oneUnits ≤ 10 * oneUnits :=
    roundUnits_le oneUnits_pos ten (Nat.mul_le_mul_right _ (by omega))
  have product : scaled = finite false (roundUnits (10 * units * oneUnits) oneUnits) := by
    have same : units * (10 * oneUnits) = 10 * units * oneUnits := by ring
    rw [← round_eq_finite (few.trans_lt (small_multiple (by decide))), ← same]
    exact finite_mul
  have rounded := representable_roundUnits oneUnits_pos (10 * units * oneUnits)
  obtain ⟨lower, higher⟩ := roundUnits_whole_error oneUnits_pos (10 * units)
  rw [product]
  generalize roundUnits (10 * units * oneUnits) oneUnits = exact at few rounded lower higher ⊢
  have nine := leadingDigit_le (finite false exact)
  obtain ⟨least, most⟩ := leadingDigit_bounds few
  generalize (finite false exact).leadingDigit = digit at nine least most ⊢
  have rest : Representable (exact - digit * oneUnits) := by
    cases digit with
    | zero => rwa [Nat.zero_mul]
    | succ before =>
        apply rounded.sub (representable_mul_oneUnits (by omega)) least
        have one : oneUnits ≤ (before + 1) * oneUnits := Nat.le_mul_of_pos_left _ (Nat.succ_pos before)
        omega
  refine ⟨exact - digit * oneUnits, ?_, by omega, nine, by omega, by omega⟩
  rw [ofNat_eq_finite (by omega)]
  exact sub_exact least rest (few.trans_lt (small_multiple (by decide)))

/-- The digits of a fraction, read as a whole number, make up the fraction but for the last place and
for a rounding at each of the places. -/
theorem fractionDigits_near (count : Nat) :
    let read := Numeral.number (fractionDigits (finite false units) count)
    2 ^ 53 * (read * oneUnits) ≤ 2 ^ 53 * (units * 10 ^ count) + 2 * (10 ^ count * oneUnits) ∧
      2 ^ 53 * (units * 10 ^ count) ≤ 2 ^ 53 * (read * oneUnits + oneUnits) + 2 * (10 ^ count * oneUnits) := by
  induction count generalizing units with
  | zero =>
      have none : Numeral.number (fractionDigits (finite false units) 0) = 0 := rfl
      dsimp only
      rw [none, Nat.zero_mul, Nat.pow_zero]
      omega
  | succ count ih =>
      obtain ⟨rest, left, few, digit, lower, higher⟩ := Binary64.peel_digit most
      obtain ⟨least, greatest⟩ := ih few
      have read : Numeral.number (fractionDigits (finite false units) (count + 1)) =
          (finite false units * Binary64.ten).leadingDigit * 10 ^ count +
            Numeral.number (fractionDigits (finite false rest) count) := by
        rw [fractionDigits, ← left, ← List.singleton_append, Numeral.number_append,
          Numeral.number_digit digit, length_fractionDigits]
      dsimp only
      rw [read]
      generalize (finite false units * Binary64.ten).leadingDigit = digit at lower higher ⊢
      generalize Numeral.number (fractionDigits (finite false rest) count) = behind at least greatest ⊢
      have next : 10 ^ (count + 1) = 10 * 10 ^ count := Nat.pow_succ'
      rw [next]
      generalize 10 ^ count = power at least greatest ⊢
      have scaledLower : 2 ^ 53 * (digit * oneUnits * power + rest * power) ≤
          2 ^ 53 * (10 * (units * power)) + 10 * (power * oneUnits) := by
        calc 2 ^ 53 * (digit * oneUnits * power + rest * power)
          _ = 2 ^ 53 * (digit * oneUnits + rest) * power := by ring
          _ ≤ (2 ^ 53 * (10 * units) + 10 * oneUnits) * power := Nat.mul_le_mul_right _ lower
          _ = 2 ^ 53 * (10 * (units * power)) + 10 * (power * oneUnits) := by ring
      have scaledHigher : 2 ^ 53 * (10 * (units * power)) ≤
          2 ^ 53 * (digit * oneUnits * power + rest * power) + 10 * (power * oneUnits) := by
        calc 2 ^ 53 * (10 * (units * power))
          _ = 2 ^ 53 * (10 * units) * power := by ring
          _ ≤ (2 ^ 53 * (digit * oneUnits + rest) + 10 * oneUnits) * power := Nat.mul_le_mul_right _ higher
          _ = 2 ^ 53 * (digit * oneUnits * power + rest * power) + 10 * (power * oneUnits) := by ring
      have place : units * (10 * power) = 10 * (units * power) := Nat.mul_left_comm ..
      have parts : (digit * power + behind) * oneUnits = digit * oneUnits * power + behind * oneUnits := by
        ring
      rw [place, parts, Nat.mul_assoc 10]
      omega

end Fractions

section Rationals

variable {number units power one : Nat} {value error : ℚ}

theorem near_of_units (places : 0 < power) (unit : 0 < one)
    (above : 2 ^ 54 * (number * one) ≤
      2 ^ 54 * (units * power) + 2 ^ 53 * one + 2 * (units * power) + 16 * (power * one))
    (below : 2 ^ 54 * (units * power) ≤
      2 ^ 54 * (number * one) + 2 ^ 53 * one + 2 * (units * power) + 16 * (power * one)) :
    |(number : ℚ) / power - (units : ℚ) / one| ≤ 1 / 2 / power + ((units : ℚ) / one + 8) / 2 ^ 53 := by
  have upper : (2 ^ 54 * (number * one) : ℚ) ≤
      2 ^ 54 * (units * power) + 2 ^ 53 * one + 2 * (units * power) + 16 * (power * one) := by
    exact_mod_cast above
  have lower : (2 ^ 54 * (units * power) : ℚ) ≤
      2 ^ 54 * (number * one) + 2 ^ 53 * one + 2 * (units * power) + 16 * (power * one) := by
    exact_mod_cast below
  have places : (0 : ℚ) < power := Nat.cast_pos.mpr places
  have unit : (0 : ℚ) < one := Nat.cast_pos.mpr unit
  have scale : (0 : ℚ) < 2 ^ 54 * (power * one) := by positivity
  have bound : (1 / 2 / power + ((units : ℚ) / one + 8) / 2 ^ 53) * (2 ^ 54 * (power * one)) =
      2 ^ 53 * one + 2 * (units * power) + 16 * (power * one) := by
    field_simp
    ring
  have difference : ((number : ℚ) / power - (units : ℚ) / one) * (2 ^ 54 * (power * one)) =
      2 ^ 54 * (number * one) - 2 ^ 54 * (units * power) := by
    field_simp
  rw [← mul_le_mul_iff_left₀ scale, ← abs_of_pos scale, ← abs_mul, abs_of_pos scale, bound, difference,
    abs_le]
  constructor <;> linarith

/-- A number as near as half a unit of the last place and an error is the rounded one, if no tie is as
near as the error. -/
theorem eq_floor_of_no_tie (places : 0 < power) (nonneg : 0 ≤ value)
    (near : |(number : ℚ) / power - value| ≤ 1 / 2 / power + error)
    (far : ∀ tie : Nat, error < |value - (tie + 1 / 2) / power|) :
    number = ⌊value * power + 1 / 2⌋₊ := by
  have places : (0 : ℚ) < power := Nat.cast_pos.mpr places
  obtain ⟨lower, upper⟩ := abs_le.mp near
  symm
  rw [Nat.floor_eq_iff (by positivity)]
  constructor
  · by_contra above
    have some : 0 < number := by
      by_contra none
      have zero : number = 0 := Nat.eq_zero_of_not_pos none
      rw [zero, Nat.cast_zero] at above
      exact above (by positivity)
    obtain ⟨tie, rfl⟩ := Nat.exists_eq_succ_of_ne_zero some.ne'
    have distance := far tie
    rw [Nat.succ_eq_add_one, Nat.cast_add, Nat.cast_one] at above upper
    have below : value < (tie + 1 / 2) / power := by
      rw [lt_div_iff₀ places]
      linarith
    have split : ((tie : ℚ) + 1) / power = (tie + 1 / 2) / power + 1 / 2 / power := by
      rw [← add_div]
      ring
    rw [abs_of_neg (sub_neg.mpr below)] at distance
    linarith
  · by_contra below
    have distance := far number
    have above : ((number : ℚ) + 1 / 2) / power ≤ value := by
      rw [div_le_iff₀ places]
      linarith
    rw [abs_of_nonneg (sub_nonneg.mpr above), add_div] at distance
    linarith

end Rationals

namespace FloatText

section Numbers

variable {units half precision : Nat}

/-- The number that a rounded magnitude shows, in units of the last place. -/
def shown (units precision : Nat) : Nat :=
  units / oneUnits * 10 ^ precision +
    Numeral.number (fractionDigits (finite false (units % oneUnits)) precision)

theorem value_plain (value : Binary64) (precision : Nat) (alternate : Bool) :
    let form := (ofMagnitude value precision alternate).form
    form.value = (Numeral.number (form.whole ++ form.decimals) : ℚ) / 10 ^ precision := by
  intro form
  have exponent : form.exponent = none := rfl
  rw [DecimalForm.value, exponent, (decimals_ofMagnitude value precision alternate).2]
  exact mul_one _

/-- The number of a text whose digits are all taken from the magnitude. -/
theorem value_ofMagnitude (value : Binary64) (alternate : Bool) (few : precision ≤ maxFractionDigits) :
    (ofMagnitude value precision alternate).form.value =
      (Numeral.number (IntegralDigits.split value {}).1.bytes * 10 ^ precision +
        Numeral.number (fractionDigits (IntegralDigits.split value {}).2 precision) : Nat) /
          10 ^ precision := by
  have whole : (ofMagnitude value precision alternate).form.whole =
      (IntegralDigits.split value {}).1.bytes := rfl
  have decimals : (ofMagnitude value precision alternate).form.decimals =
      fractionDigits (IntegralDigits.split value {}).2 precision := by
    rw [form, ofMagnitude]
    dsimp only
    rw [length_fractionDigits, Nat.min_eq_left few, Nat.sub_self]
    exact List.append_nil _
  rw [value_plain, whole, decimals, Numeral.number_append, length_fractionDigits]

theorem value_eq_shown (representable : Representable units) (small : units < 2 ^ 53 * oneUnits)
    (few : precision ≤ maxFractionDigits) (alternate : Bool) :
    (ofMagnitude (finite false units) precision alternate).form.value =
      (shown units precision : ℚ) / 10 ^ precision := by
  obtain ⟨whole, fraction⟩ := IntegralDigits.split_small representable small {}
  rw [value_ofMagnitude _ alternate few, whole, fraction, Numeral.number_spelled, shown]

/-- What is shown is the magnitude, cut after the last place, but for the roundings of its digits. -/
theorem shown_near (units precision : Nat) :
    2 ^ 53 * (shown units precision * oneUnits) ≤
        2 ^ 53 * (units * 10 ^ precision) + 2 * (10 ^ precision * oneUnits) ∧
      2 ^ 53 * (units * 10 ^ precision) ≤
        2 ^ 53 * (shown units precision * oneUnits + oneUnits) + 2 * (10 ^ precision * oneUnits) := by
  have less : units % oneUnits < oneUnits := Nat.mod_lt _ Binary64.oneUnits_pos
  have near := fractionDigits_near less.le precision
  have parts : units * 10 ^ precision =
      units / oneUnits * oneUnits * 10 ^ precision + units % oneUnits * 10 ^ precision := by
    rw [← Nat.add_mul, Nat.div_add_mod']
  rw [shown, Nat.add_mul, Nat.mul_right_comm, parts]
  dsimp only at near
  omega

/-- The number shown is the exact one rounded, but for the error of half a unit of its last place and of the
sum. -/
theorem shown_rounded_near (near : HalfUnit precision half) :
    2 ^ 54 * (shown (roundUnits (units + half) 1) precision * oneUnits) ≤
        2 ^ 54 * (units * 10 ^ precision) + 2 ^ 53 * oneUnits + 2 * (units * 10 ^ precision) +
          16 * (10 ^ precision * oneUnits) ∧
      2 ^ 54 * (units * 10 ^ precision) ≤
        2 ^ 54 * (shown (roundUnits (units + half) 1) precision * oneUnits) + 2 ^ 53 * oneUnits +
          2 * (units * 10 ^ precision) + 16 * (10 ^ precision * oneUnits) := by
  have sum := Binary64.roundUnits_one_error (units + half)
  generalize roundUnits (units + half) 1 = rounded at sum ⊢
  obtain ⟨above, below⟩ := shown_near rounded precision
  obtain ⟨lower, higher⟩ := sum
  have some : oneUnits ≤ 10 ^ precision * oneUnits := Nat.le_mul_of_pos_left _ (Nat.pow_pos Nat.ofNat_pos)
  have halfAbove := near.above
  have halfBelow := near.below
  generalize shown rounded precision = number at above below ⊢
  generalize 10 ^ precision = power at *
  have scaledLower := Nat.mul_le_mul_right power lower
  have scaledHigher := Nat.mul_le_mul_right power higher
  simp only [Nat.add_mul, Nat.mul_add, Nat.mul_assoc (2 ^ 53)] at scaledLower scaledHigher
  omega

end Numbers

section Rounded

open Binary64 (belowHalf)

variable {units precision : Nat}

theorem fixed_negative_zero (few : precision ≤ maxFractionDigits) (alternate : Bool) :
    fixed (.finite true 0) precision alternate = fixed (.finite false 0) precision alternate := by
  rw [fixed, Binary64.roundAt_negative_zero few, fixed]

/-- The fixed style shows a sum. Without decimals what is added is exactly a half. -/
theorem fixed_shows (small : units < 2 ^ 52 * oneUnits) (few : precision ≤ maxFractionDigits)
    (alternate : Bool) :
    ∃ half, HalfUnit precision half ∧ (precision = 0 → half = halfUnits) ∧
      (fixed (finite false units) precision alternate).form.value =
        (shown (roundUnits (units + half) 1) precision : ℚ) / 10 ^ precision := by
  obtain ⟨half, product, near, whole⟩ : ∃ half,
      Binary64.half * Binary64.powerOfTen (-(precision : Int)) = finite false half ∧
        HalfUnit precision half ∧ (precision = 0 → half = halfUnits) := by
    cases precision with
    | zero =>
        obtain ⟨product, near⟩ := Binary64.halfUnit_zero
        exact ⟨halfUnits, product, near, fun _ => rfl⟩
    | succ before =>
        obtain ⟨half, product, near⟩ := Binary64.exists_halfUnit few
        exact ⟨half, product, near, nofun⟩
  obtain ⟨sum, most⟩ := Binary64.roundAt_eq_finite small few product near.most
  have representable := Binary64.representable_roundUnits Nat.one_pos (units + half)
  refine ⟨half, near, whole, ?_⟩
  have one := Binary64.oneUnits_pos
  rw [fixed, sum]
  exact value_eq_shown representable (by omega) few alternate

theorem shown_zero (units : Nat) : shown units 0 = units / oneUnits := by
  rw [shown, Nat.pow_zero, Nat.mul_one]
  rfl

theorem floor_add_half (units : Nat) :
    ⌊(units : ℚ) / oneUnits + 1 / 2⌋₊ = (units + halfUnits) / oneUnits := by
  have half : (halfUnits : ℚ) / oneUnits = 1 / 2 := by
    have double : (2 * halfUnits : ℚ) = oneUnits := by exact_mod_cast Binary64.two_mul_halfUnits
    rw [div_eq_iff Binary64.oneUnits_pos_rat.ne', ← double]
    ring
  rw [← half, ← add_div, ← Nat.cast_add, Binary64.floor_units]

/-- Among the values below 2^52 only the one right below a half is not rounded to the whole number
that half away from zero asks for. -/
theorem shown_whole_iff (representable : Representable units) (small : units < 2 ^ 52 * oneUnits) :
    shown (roundUnits (units + halfUnits) 1) 0 = (units + halfUnits) / oneUnits ↔ units ≠ belowHalf := by
  rw [shown_zero]
  constructor
  · intro same last
    have up : roundUnits (belowHalf + halfUnits) 1 / oneUnits ≠ (belowHalf + halfUnits) / oneUnits := by
      decide +kernel
    rw [last] at same
    exact up same
  · intro other
    rcases Nat.lt_or_ge units halfUnits with below | reached
    · have two := Binary64.two_mul_halfUnits
      rw [Nat.div_eq_of_lt (Binary64.roundUnits_add_half_lt representable below other),
        Nat.div_eq_of_lt (by omega)]
    · exact Binary64.roundUnits_add_half_div representable reached small

/-- What the fixed style shows of a number of units, as a rational number. -/
theorem fixed_value (representable : Representable units) (small : units < 2 ^ 52 * oneUnits)
    (few : precision ≤ maxFractionDigits) (alternate : Bool) :
    ∃ number : Nat,
      (fixed (finite false units) precision alternate).form.value = (number : ℚ) / 10 ^ precision ∧
      |(number : ℚ) / 10 ^ precision - (units : ℚ) / oneUnits| ≤
        1 / 2 / 10 ^ precision + ((units : ℚ) / oneUnits + 8) / 2 ^ 53 ∧
      (precision = 0 → (number = ⌊(units : ℚ) / oneUnits + 1 / 2⌋₊ ↔ units ≠ belowHalf)) := by
  obtain ⟨half, near, whole, value⟩ := fixed_shows small few alternate
  obtain ⟨above, below⟩ := @shown_rounded_near units half precision near
  have places : 0 < 10 ^ precision := Nat.pow_pos Nat.ofNat_pos
  have power : ((10 ^ precision : Nat) : ℚ) = 10 ^ precision := Nat.cast_pow 10 precision
  have bound := near_of_units places Binary64.oneUnits_pos above below
  rw [power] at bound
  refine ⟨_, value, bound, ?_⟩
  rintro rfl
  rw [whole rfl, floor_add_half]
  exact shown_whole_iff representable small

/-- A value below 2^52 is written as a number of units is. The zero with a sign is written as the
other one. -/
theorem exists_units {bits : UInt64} (few : precision ≤ maxFractionDigits)
    (isFinite : (Binary64.ofBits bits).isFinite = true)
    (nonneg : 0 ≤ (Binary64.ofBits bits).toRat) (small : (Binary64.ofBits bits).toRat < 2 ^ 52) :
    ∃ units, Representable units ∧ units < 2 ^ 52 * oneUnits ∧
      (Binary64.ofBits bits).toRat = (units : ℚ) / oneUnits ∧
      (∀ alternate, fixed (.ofBits bits) precision alternate =
        fixed (finite false units) precision alternate) ∧
      (Binary64.ofBits bits ≠ .ofBits 0x3FDFFFFFFFFFFFFF ↔ units ≠ belowHalf) := by
  have last : Binary64.ofBits 0x3FDFFFFFFFFFFFFF = finite false belowHalf := by decide +kernel
  obtain ⟨units, decoded, rational⟩ := Binary64.units_of_nonneg isFinite nonneg
  have less : units < 2 ^ 52 * oneUnits := by
    apply Binary64.lt_of_toRat_lt
    rw [← rational]
    exact_mod_cast small
  rcases decoded with positive | ⟨negative, rfl⟩
  · refine ⟨units, (Binary64.representable_ofBits positive).1, less, rational, ?_, ?_⟩
    · intro alternate
      rw [positive]
    · rw [positive, last, Ne, Binary64.finite.injEq]
      exact not_congr (and_iff_right rfl)
  · refine ⟨0, Binary64.representable_zero, less, rational, ?_, ?_⟩
    · intro alternate
      rw [negative]
      exact fixed_negative_zero few alternate
    · rw [negative, last]
      exact iff_of_true nofun (by decide +kernel)

end Rounded

/-- Below 2^52 the fixed style is off by half a unit of the last place and by the error of its
additions. So it rounds to the nearest decimal number unless a tie is as near as that error. Without
decimals ties go up, and only the value right below a half goes up with them. -/
theorem fixed_rounds (bits : UInt64) (precision : Nat) (alternate : Bool)
    (few : precision ≤ maxFractionDigits) (isFinite : (Binary64.ofBits bits).isFinite = true)
    (nonneg : 0 ≤ (Binary64.ofBits bits).toRat) (small : (Binary64.ofBits bits).toRat < 2 ^ 52) :
    let value := Binary64.ofBits bits
    let text := fixed value precision alternate
    let error := (value.toRat + 8) / 2 ^ 53
    text.Writes text.form.bytes ∧ text.form.Proper ∧ text.form.exponent = none ∧
      text.form.decimals.length = precision ∧
      |text.form.value - value.toRat| ≤ 1 / 2 / 10 ^ precision + error ∧
      ((∀ tie : Nat, error < |value.toRat - (tie + 1 / 2) / 10 ^ precision|) →
        text.form.value = (⌊value.toRat * 10 ^ precision + 1 / 2⌋₊ : ℚ) / 10 ^ precision) ∧
      (precision = 0 →
        (text.form.value = ⌊value.toRat + 1 / 2⌋₊ ↔ value ≠ .ofBits 0x3FDFFFFFFFFFFFFF)) := by
  intro value text error
  have room : precision ≤ 2 ^ 32 + 2 := few.trans (by decide)
  obtain ⟨units, representable, less, rational, same, other⟩ := exists_units few isFinite nonneg small
  obtain ⟨number, shown, near, whole⟩ := fixed_value representable less few alternate
  rw [← same alternate] at shown
  rw [← rational] at near whole
  refine ⟨fixed_writes value precision alternate room, proper_ofMagnitude _ _ _, rfl,
    (decimals_ofMagnitude _ _ _).2, ?_, ?_, ?_⟩
  · rw [shown]
    exact near
  · intro far
    have power : ((10 ^ precision : Nat) : ℚ) = 10 ^ precision := Nat.cast_pow 10 precision
    have places : 0 < 10 ^ precision := Nat.pow_pos Nat.ofNat_pos
    rw [← power] at near far ⊢
    rw [shown, eq_floor_of_no_tie places nonneg near far, power]
  · rintro rfl
    rw [shown, other, pow_zero, div_one, Nat.cast_inj]
    exact whole rfl

/-- Five sixteenths lie away from the ties of two decimals. -/
theorem five_sixteenths_rounded :
    let value := Binary64.ofBits 0x3FD4000000000000
    2 ≤ maxFractionDigits ∧ value.isFinite = true ∧ 0 ≤ value.toRat ∧ value.toRat < 2 ^ 52 ∧
      (fixed value 2 false).Writes (ascii "0.31") ∧ (fixed value 2 false).form.value = 31 / 100 := by
  intro value
  have few : 2 ≤ maxFractionDigits := by decide
  have isFinite : value.isFinite = true := by decide +kernel
  have decoded : value = finite false (5 * 2 ^ 1070) := by decide +kernel
  have rational : value.toRat = (5 : Nat) / (16 : Nat) :=
    Binary64.toRat_eq_div decoded (by decide) (by decide +kernel)
  have nonneg : 0 ≤ value.toRat := by
    rw [rational]
    positivity
  have small : value.toRat < 2 ^ 52 := by
    rw [rational]
    norm_num
  obtain ⟨writes, -, -, -, -, rounded, -⟩ :=
    fixed_rounds 0x3FD4000000000000 2 false few isFinite nonneg small
  have bytes : (fixed value 2 false).form.bytes = ascii "0.31" := by decide +kernel
  have far (tie : Nat) : (value.toRat + 8) / 2 ^ 53 < |value.toRat - (tie + 1 / 2) / 10 ^ 2| := by
    have apart : (1 : ℤ) ≤ |123 - 4 * (tie : ℤ)| := Int.one_le_abs (by omega)
    have distance : value.toRat - (tie + 1 / 2) / 10 ^ 2 = ((123 - 4 * (tie : ℤ) : ℤ) : ℚ) / 400 := by
      rw [rational]
      push_cast
      ring
    have least : (1 : ℚ) ≤ |((123 - 4 * (tie : ℤ) : ℤ) : ℚ)| := by exact_mod_cast apart
    rw [distance, abs_div, abs_of_pos (by norm_num : (0 : ℚ) < 400), rational]
    norm_num at least ⊢
    linarith
  have floor : ⌊value.toRat * 10 ^ 2 + 1 / 2⌋₊ = 31 := by
    rw [rational]
    norm_num [Nat.floor_eq_iff]
  have number := rounded far
  rw [bytes] at writes
  refine ⟨few, isFinite, nonneg, small, writes, ?_⟩
  calc (fixed value 2 false).form.value
    _ = (⌊value.toRat * 10 ^ 2 + 1 / 2⌋₊ : ℚ) / 10 ^ 2 := number
    _ = 31 / 100 := by
      rw [floor]
      norm_num

/-- A twentieth is not representable, and two and a quarter plus a twentieth is rounded to a number
below 2.3. So this tie goes down. -/
theorem tie_rounded_down :
    let value := Binary64.ofBits 0x4002000000000000
    value.isFinite = true ∧ value.toRat = 9 / 4 ∧ 1 ≤ maxFractionDigits ∧
      (fixed value 1 false).form.bytes = ascii "2.2" ∧
      (fixed value 1 false).form.value ≠ (⌊value.toRat * 10 ^ 1 + 1 / 2⌋₊ : ℚ) / 10 ^ 1 := by
  intro value
  have decoded : value = finite false (9 * 2 ^ 1072) := by decide +kernel
  have rational : value.toRat = (9 : Nat) / (4 : Nat) :=
    Binary64.toRat_eq_div decoded (by decide) (by decide +kernel)
  have floor : ⌊value.toRat * 10 ^ 1 + 1 / 2⌋₊ = 23 := by
    rw [rational]
    norm_num [Nat.floor_eq_iff]
  have number : Numeral.number ((fixed value 1 false).form.whole ++
      (fixed value 1 false).form.decimals) = 22 := by decide +kernel
  have plain := value_plain (value.roundAt 1) 1 false
  refine ⟨by decide +kernel, rational, by decide, by decide +kernel, ?_⟩
  rw [floor, fixed, plain, ← fixed, number]
  norm_num

end FloatText

end BoundedPrintf
