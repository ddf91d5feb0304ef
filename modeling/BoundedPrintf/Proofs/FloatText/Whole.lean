import Mathlib
import BoundedPrintf.Proofs.Binary64.Exact
import BoundedPrintf.Proofs.Binary64.Value
import BoundedPrintf.Proofs.FloatText.Digits
import BoundedPrintf.Proofs.Numeral.Spelling

/-! Whole parts without rounding. Where every number that long division passes through is representable,
each digit is the one of the exact quotient and what is left is the exact fraction. Below 2^53 that
is so for every value. -/
namespace BoundedPrintf

namespace Numeral

/-- A number with zeros in its last places. -/
def truncated (number place : Nat) : Nat := number / 10 ^ place * 10 ^ place

variable {number place : Nat}

theorem truncated_le (number place : Nat) : truncated number place ≤ number :=
  Nat.div_mul_le_self number (10 ^ place)

theorem truncated_zero (number : Nat) : truncated number 0 = number := by
  rw [truncated, Nat.pow_zero, Nat.div_one, Nat.mul_one]

theorem lt_truncated_add (number place : Nat) : number < truncated number place + 10 ^ place := by
  have positive : 0 < 10 ^ place := Nat.pow_pos Nat.ofNat_pos
  rw [truncated, ← Nat.succ_mul]
  exact Nat.lt_mul_of_div_lt (Nat.lt_succ_self _) positive

/-- The digit of a place makes up what the places above it leave. -/
theorem truncated_succ (number place : Nat) :
    truncated number (place + 1) + number / 10 ^ place % 10 * 10 ^ place = truncated number place := by
  rw [truncated, truncated, Nat.pow_succ, ← Nat.div_div_eq_div_mul, Nat.mul_comm _ 10,
    ← Nat.mul_assoc, ← Nat.add_mul, Nat.div_add_mod']

/-- One more digit behind a numeral. Here no digit stands for zero. -/
theorem bytes_digits_succ (positive : 0 < number) :
    bytes false (Nat.digits 10 number).reverse =
      bytes false (Nat.digits 10 (number / 10)).reverse ++ [decimalDigit (number % 10)] := by
  have digit : ∀ value : Fin 10, Numeral.digit false (UInt8.ofNat value) = decimalDigit value := by
    decide
  have last : Numeral.digit false (UInt8.ofNat (number % 10)) = decimalDigit (number % 10) :=
    digit ⟨number % 10, Nat.mod_lt number (by decide)⟩
  rw [Nat.digits_def' (by decide) positive, List.reverse_cons, bytes, List.map_append,
    List.map_singleton, last, bytes]

theorem bytes_digits_eq_spelled (positive : 0 < number) :
    bytes false (Nat.digits 10 number).reverse = spelled 10 false number := by
  rw [← bytes_places_eq_spelled (by decide) (by decide), places, if_neg positive.ne']

end Numeral

open Numeral (truncated)

namespace IntegralDigits

variable {digits : IntegralDigits} {number units place : Nat}

/-- The digits in the store are those of a number. None are there for zero. -/
def Shows (digits : IntegralDigits) (number : Nat) : Prop :=
  digits.bytes = Numeral.bytes false (Nat.digits 10 number).reverse

theorem shows_clear (digits : IntegralDigits) : digits.clear.Shows 0 := by
  rw [Shows, bytes_clear, Nat.digits_zero]
  rfl

theorem Shows.push (shown : digits.Shows (number / 10 ^ (place + 1)))
    (reached : 0 < number / 10 ^ place) (room : digits.length < maxIntegralDigits) :
    (digits.push (decimalDigit (number / 10 ^ place % 10))).Shows (number / 10 ^ place) := by
  rw [Shows, bytes_push room, Numeral.bytes_digits_succ reached, Nat.div_div_eq_div_mul,
    ← Nat.pow_succ, ← shown]

section Truncated

open Binary64 (oneUnits)

variable (units place : Nat)

theorem taken_le : truncated (units / oneUnits) place * oneUnits ≤ units := by
  calc truncated (units / oneUnits) place * oneUnits
    _ ≤ units / oneUnits * oneUnits := Nat.mul_le_mul_right _ (Numeral.truncated_le _ _)
    _ ≤ units := Nat.div_mul_le_self units oneUnits

theorem lt_taken_add :
    units < truncated (units / oneUnits) place * oneUnits + 10 ^ place * oneUnits := by
  have next := Numeral.lt_truncated_add (units / oneUnits) place
  rw [← Nat.add_mul]
  exact (Nat.div_lt_iff_lt_mul Binary64.oneUnits_pos).mp next

end Truncated

/-- A value whose whole part can be cut off at every place without rounding. No power of ten above
10^22 is representable. -/
structure Truncatable (units : Nat) : Prop where
  representable : Binary64.Representable units
  kept : ∀ place, Binary64.Representable (truncated (units / Binary64.oneUnits) place * Binary64.oneUnits)
  few : units / Binary64.oneUnits ≤ 10 ^ 22

namespace Truncatable

open Binary64 (finite oneUnits overflowUnits Representable)

variable (truncatable : Truncatable units)
include truncatable

theorem units_lt : units < overflowUnits := by
  have less : units / oneUnits < 10 ^ 22 + 1 := Nat.lt_succ_of_le truncatable.few
  have wide : 10 ^ 22 + 1 ≤ 11 * 10 ^ 22 := by decide
  calc units
    _ < (10 ^ 22 + 1) * oneUnits := (Nat.div_lt_iff_lt_mul Binary64.oneUnits_pos).mp less
    _ ≤ 11 * (10 ^ 22 * oneUnits) := by
      rw [← Nat.mul_assoc]
      exact Nat.mul_le_mul_right _ wide
    _ ≤ 11 * (10 ^ 307 * oneUnits) := Nat.mul_le_mul_left _ (Binary64.pow_mul_mono (by decide))
    _ ≤ overflowUnits := Binary64.overflowUnits_bounds.1.le

/-- What the places from some place on leave. -/
theorem representable_rest (place : Nat) :
    Representable (units - truncated (units / oneUnits) place * oneUnits) := by
  rcases Nat.eq_zero_or_pos (units / oneUnits / 10 ^ place) with none | some
  · rw [truncated, none, Nat.zero_mul, Nat.zero_mul]
    exact truncatable.representable
  · have below := taken_le units place
    have above := lt_taken_add units place
    have power : 10 ^ place * oneUnits ≤ truncated (units / oneUnits) place * oneUnits := by
      apply Nat.mul_le_mul_right
      exact Nat.le_mul_of_pos_left _ some
    exact truncatable.representable.sub (truncatable.kept place) below (by omega)

section Places

variable (reached : 0 < units / oneUnits / 10 ^ place)
include reached

theorem place_le : place ≤ 22 := by
  have most : 10 ^ place ≤ 10 ^ 22 :=
    ((Nat.div_pos_iff.mp reached).2).trans truncatable.few
  exact (Nat.pow_le_pow_iff_right (by decide)).mp most

/-- The multiples of a power that a digit is found between. -/
theorem representable_multiple {count : Nat} (most : count ≤ units / oneUnits / 10 ^ place % 10 + 1) :
    Representable (count * 10 ^ place * oneUnits) := by
  apply Binary64.representable_mul_pow
  rcases (truncatable.place_le reached).lt_or_eq with less | rfl
  · have power : 5 ^ place ≤ 5 ^ 21 := Nat.pow_le_pow_right (by decide) (Nat.le_of_lt_succ less)
    have digit : count ≤ 10 := by omega
    exact (Nat.mul_le_mul digit power).trans (by decide)
  · -- The only number with so many digits is the power itself.
    have one : units / oneUnits / 10 ^ 22 ≤ 1 := Nat.div_le_of_le_mul (by
      rw [Nat.mul_one]
      exact truncatable.few)
    have digit : count ≤ 2 := by omega
    exact (Nat.mul_le_mul_right _ digit).trans (by decide)

theorem leadingDigit_eq :
    ((finite false units - finite false (truncated (units / oneUnits) (place + 1) * oneUnits)) /
      Binary64.powerOfTen place).leadingDigit = units / oneUnits / 10 ^ place % 10 := by
  have power : 0 < 10 ^ place * oneUnits := Nat.mul_pos (Nat.pow_pos Nat.ofNat_pos) Binary64.oneUnits_pos
  have quotient : (units - truncated (units / oneUnits) (place + 1) * oneUnits) /
      (10 ^ place * oneUnits) = units / oneUnits / 10 ^ place % 10 := by
    have taken : truncated (units / oneUnits) (place + 1) * oneUnits =
        10 ^ place * oneUnits * (units / oneUnits / 10 ^ place / 10 * 10) := by
      rw [truncated, Nat.pow_succ, ← Nat.div_div_eq_div_mul]
      ring
    have whole : units / (10 ^ place * oneUnits) = units / oneUnits / 10 ^ place := by
      rw [Nat.mul_comm, Nat.div_div_eq_div_mul]
    rw [taken, Nat.sub_mul_div, whole]
    omega
  have below : units - truncated (units / oneUnits) (place + 1) * oneUnits <
      10 * (10 ^ place * oneUnits) := by
    have above := lt_taken_add units (place + 1)
    rw [Nat.pow_succ', Nat.mul_assoc] at above
    omega
  have representable := truncatable.representable_rest (place + 1)
  rw [Binary64.sub_exact (taken_le units _) representable truncatable.units_lt,
    Binary64.powerOfTen_eq_finite (truncatable.place_le reached),
    Binary64.leadingDigit_div power representable ?_ below, quotient]
  rw [quotient, ← Nat.mul_assoc]
  exact truncatable.representable_multiple reached le_rfl

theorem taken_eq :
    finite false (truncated (units / oneUnits) (place + 1) * oneUnits) +
        Binary64.ofNat (units / oneUnits / 10 ^ place % 10) * Binary64.powerOfTen place =
      finite false (truncated (units / oneUnits) place * oneUnits) := by
  have digit : units / oneUnits / 10 ^ place % 10 < 10 := Nat.mod_lt _ (by decide)
  have sum : truncated (units / oneUnits) (place + 1) * oneUnits +
      units / oneUnits / 10 ^ place % 10 * 10 ^ place * oneUnits =
        truncated (units / oneUnits) place * oneUnits := by
    rw [← Nat.add_mul, Numeral.truncated_succ]
  have small : truncated (units / oneUnits) place * oneUnits < overflowUnits :=
    (taken_le units place).trans_lt truncatable.units_lt
  have product : units / oneUnits / 10 ^ place % 10 * oneUnits * (10 ^ place * oneUnits) =
      units / oneUnits / 10 ^ place % 10 * 10 ^ place * oneUnits * oneUnits := by
    ring
  rw [Binary64.ofNat_eq_finite (by omega),
    Binary64.powerOfTen_eq_finite (truncatable.place_le reached),
    Binary64.mul_exact product (truncatable.representable_multiple reached (Nat.le_succ _)) (by omega),
    Binary64.add_exact ?_ (by rwa [sum]), sum]
  rw [sum]
  exact truncatable.kept place

end Places

/-- Long division writes the numeral of the whole part, and takes exactly that much. -/
theorem divide_exact (reached : 0 < units / oneUnits / 10 ^ place)
    (room : digits.length + place < maxIntegralDigits)
    (shown : digits.Shows (units / oneUnits / 10 ^ (place + 1))) :
    (divide (finite false units) place
        (finite false (truncated (units / oneUnits) (place + 1) * oneUnits)) digits).1.Shows
      (units / oneUnits) ∧
    (divide (finite false units) place
        (finite false (truncated (units / oneUnits) (place + 1) * oneUnits)) digits).2 =
      finite false (units / oneUnits * oneUnits) := by
  induction place generalizing digits with
  | zero =>
      have last := shown.push reached room
      rw [Nat.pow_zero, Nat.div_one] at last
      rw [divide, truncatable.leadingDigit_eq reached, truncatable.taken_eq reached,
        Numeral.truncated_zero, Nat.pow_zero, Nat.div_one]
      exact ⟨last, rfl⟩
  | succ place ih =>
      have here : digits.length < maxIntegralDigits := by omega
      have behind : 0 < units / oneUnits / 10 ^ place := by
        have split : units / oneUnits / 10 ^ place / 10 = units / oneUnits / 10 ^ (place + 1) := by
          rw [Nat.div_div_eq_div_mul, ← Nat.pow_succ]
        omega
      rw [divide, truncatable.leadingDigit_eq reached, truncatable.taken_eq reached]
      apply ih behind _ (shown.push reached here)
      rw [length_push here]
      omega

/-- The top place of the whole part. -/
theorem exists_top (large : oneUnits ≤ units) : ∃ top : Nat, top ≤ 22 ∧
    (finite false units).magnitude = top ∧ 0 < units / oneUnits / 10 ^ top ∧
      units / oneUnits / 10 ^ (top + 1) = 0 := by
  have below : units < Binary64.tensUnits 23 := by
    have less : units < (10 ^ 22 + 1) * oneUnits :=
      (Nat.div_lt_iff_lt_mul Binary64.oneUnits_pos).mp (Nat.lt_succ_of_le truncatable.few)
    have last : 9 * (10 ^ 22 * oneUnits) ≤ Binary64.tensUnits 23 :=
      (@Binary64.tensUnits_bounds 22 (by decide)).1
    omega
  obtain ⟨top, few, magnitude, least, most⟩ := Binary64.magnitude_below large (by decide) below
  rw [Binary64.tensUnits_eq_pow few] at least
  refine ⟨top, few, magnitude, ?_, ?_⟩
  · refine Nat.div_pos ?_ (Nat.pow_pos Nat.ofNat_pos)
    exact (Nat.le_div_iff_mul_le Binary64.oneUnits_pos).mpr least
  · apply Nat.div_eq_of_lt
    rcases few.lt_or_eq with less | rfl
    · rw [Binary64.tensUnits_eq_pow less] at most
      exact (Nat.div_lt_iff_lt_mul Binary64.oneUnits_pos).mpr most
    · exact truncatable.few.trans_lt (by decide)

/-- The whole part and the fraction of a number from one on. -/
theorem split_exact (large : oneUnits ≤ units) (digits : IntegralDigits) :
    (split (finite false units) digits).1.bytes = Numeral.spelled 10 false (units / oneUnits) ∧
      (split (finite false units) digits).2 = finite false (units % oneUnits) := by
  obtain ⟨top, few, magnitude, reached, none⟩ := truncatable.exists_top large
  have limit : maxIntegralDigits = 99 := rfl
  have room : digits.clear.length + top < maxIntegralDigits := by
    have empty : digits.clear.length = 0 := rfl
    omega
  have start : digits.clear.Shows (units / oneUnits / 10 ^ (top + 1)) := none ▸ shows_clear digits
  obtain ⟨shown, taken⟩ := truncatable.divide_exact reached room start
  rw [truncated, none, Nat.zero_mul, Nat.zero_mul] at shown taken
  have fraction : finite false units - finite false (units / oneUnits * oneUnits) =
      finite false (units % oneUnits) := by
    have whole := Nat.div_mul_le_self units oneUnits
    have rest := truncatable.representable_rest 0
    have parts : units - units / oneUnits * oneUnits = units % oneUnits := by
      have sum := Nat.div_add_mod' units oneUnits
      omega
    rw [Numeral.truncated_zero] at rest
    rw [Binary64.sub_exact whole rest truncatable.units_lt, parts]
  rw [split_of_magnitude large magnitude, if_neg (by omega), Binary64.zero]
  dsimp only
  rw [taken, fraction, Binary64.isPositive_finite]
  refine ⟨?_, ?_⟩
  · rw [shown, Numeral.bytes_digits_eq_spelled (Nat.div_pos large Binary64.oneUnits_pos)]
  · rcases Nat.eq_zero_or_pos (units % oneUnits) with zero | some
    · rw [zero]
      rfl
    · rw [decide_eq_true some, if_pos rfl]

end Truncatable

section Small

open Binary64 (oneUnits Representable)

theorem truncatable_of_small (representable : Representable units) (small : units < 2 ^ 53 * oneUnits) :
    Truncatable units := by
  have few : units / oneUnits < 2 ^ 53 := (Nat.div_lt_iff_lt_mul Binary64.oneUnits_pos).mpr small
  refine ⟨representable, ?_, few.le.trans (by decide)⟩
  intro place
  apply Binary64.representable_mul_oneUnits
  exact (Numeral.truncated_le _ _).trans few.le

theorem split_below_one (small : units < oneUnits) (digits : IntegralDigits) :
    split (.finite false units) digits =
      (digits.clear.push (octet '0'), .finite false units) := by
  rw [split, Binary64.finite_lt_one, Binary64.isPositive_finite, decide_eq_true small, Bool.true_or,
    if_pos rfl]
  rcases Nat.eq_zero_or_pos units with rfl | some
  · rfl
  · rw [decide_eq_true some]
    rfl

theorem split_negative_zero (digits : IntegralDigits) :
    split (.finite true 0) digits = (digits.clear.push (octet '0'), .zero) := by
  have none : (Binary64.finite true 0).isPositive = false := rfl
  rw [split, Binary64.negative_lt_one, none, Bool.true_or, if_pos rfl, Bool.false_and, if_neg Bool.false_ne_true]

/-- Below 2^53 nothing is rounded. -/
theorem split_small (representable : Representable units) (small : units < 2 ^ 53 * oneUnits)
    (digits : IntegralDigits) :
    (split (.finite false units) digits).1.bytes = Numeral.spelled 10 false (units / oneUnits) ∧
      (split (.finite false units) digits).2 = .finite false (units % oneUnits) := by
  rcases Nat.lt_or_ge units oneUnits with below | large
  · have room : digits.clear.length < maxIntegralDigits := (by decide : 0 < maxIntegralDigits)
    rw [split_below_one below, bytes_push room, bytes_clear, Nat.div_eq_of_lt below,
      Nat.mod_eq_of_lt below]
    exact ⟨rfl, rfl⟩
  · exact (truncatable_of_small representable small).split_exact large digits

end Small

/-- Below 2^53 the whole part of a value is the numeral of its floor, and what is left is exactly the
rest of the value. -/
theorem whole_part_exact (bits : UInt64) (digits : IntegralDigits)
    (isFinite : (Binary64.ofBits bits).isFinite = true)
    (nonneg : 0 ≤ (Binary64.ofBits bits).toRat) (small : (Binary64.ofBits bits).toRat < 2 ^ 53) :
    let value := Binary64.ofBits bits
    (split value digits).1.bytes = Numeral.spelled 10 false ⌊value.toRat⌋₊ ∧
      (split value digits).2.isFinite = true ∧
      (split value digits).2.toRat = value.toRat - ⌊value.toRat⌋₊ := by
  intro value
  have room : digits.clear.length < maxIntegralDigits := (by decide : 0 < maxIntegralDigits)
  obtain ⟨units, decoded, rational⟩ := Binary64.units_of_nonneg isFinite nonneg
  rw [rational, Binary64.floor_units, ← Binary64.fraction_units]
  rcases decoded with positive | ⟨zero, rfl⟩
  · have representable := (Binary64.representable_ofBits positive).1
    have few : units < 2 ^ 53 * Binary64.oneUnits := by
      have limit : ((2 ^ 53 : Nat) : ℚ) = 2 ^ 53 := by norm_num
      apply Binary64.lt_of_toRat_lt
      rw [limit, ← rational]
      exact small
    obtain ⟨bytes, fraction⟩ := split_small representable few digits
    have same : value = .finite false units := positive
    rw [same, fraction, Binary64.toRat_finite]
    exact ⟨bytes, rfl, rfl⟩
  · have same : value = .finite true 0 := zero
    rw [same, split_negative_zero, bytes_push room, bytes_clear, Nat.zero_div, Nat.zero_mod,
      Binary64.zero, Binary64.toRat_finite]
    exact ⟨rfl, rfl, rfl⟩

/-- The largest value with a fraction, split into a store full of nines. -/
theorem half_left_over :
    let value := Binary64.ofBits 0x432FFFFFFFFFFFFF
    value.isFinite = true ∧ 0 ≤ value.toRat ∧ value.toRat < 2 ^ 53 ∧
      (split value saturated).1.bytes = ascii "4503599627370495" ∧
      (split value saturated).2.toRat = 1 / 2 := by
  intro value
  have isFinite : value.isFinite = true := by decide +kernel
  have decoded : value = .finite false ((2 ^ 53 - 1) * 2 ^ 1073) := by decide +kernel
  have rational : value.toRat = (2 ^ 53 - 1 : Nat) / (2 : Nat) :=
    Binary64.toRat_eq_div decoded (by decide) (by decide +kernel)
  have nonneg : 0 ≤ value.toRat := by
    rw [rational]
    positivity
  have small : value.toRat < 2 ^ 53 := by
    rw [rational]
    norm_num
  have floor : ⌊value.toRat⌋₊ = 4503599627370495 := by
    rw [rational]
    norm_num [Nat.floor_eq_iff]
  have exact := whole_part_exact 0x432FFFFFFFFFFFFF saturated isFinite nonneg small
  have numeral : Numeral.spelled 10 false 4503599627370495 = ascii "4503599627370495" := by decide
  have rest : value.toRat - (4503599627370495 : Nat) = 1 / 2 := by
    rw [rational]
    norm_num
  dsimp only at exact
  obtain ⟨bytes, -, fraction⟩ := exact
  rw [floor, numeral] at bytes
  rw [floor, rest] at fraction
  exact ⟨isFinite, nonneg, small, bytes, fraction⟩

end IntegralDigits

end BoundedPrintf
