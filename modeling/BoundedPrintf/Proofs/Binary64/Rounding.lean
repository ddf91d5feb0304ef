import Mathlib
import BoundedPrintf.Binary64.Basic

/-! Rounding between representable numbers. A result is rounded within the representable numbers that
enclose it, so the exact bounds of a result are bounds of what arithmetic answers. -/
namespace BoundedPrintf.Binary64

/-- No more than 53 binary digits in front of zeros. -/
def Representable (units : Nat) : Prop :=
  ∃ digits places, digits ≤ 2 ^ 53 ∧ units = digits * 2 ^ places

section Rounding

variable {numerator denominator units bound : Nat}

theorem oneUnits_pos : 0 < oneUnits := by
  rw [oneUnits]
  exact Nat.two_pow_pos 1074

theorem representable_of_small (small : units ≤ 2 ^ 53) : Representable units :=
  ⟨units, 0, small, (Nat.mul_one units).symm⟩

theorem representable_two_pow (places : Nat) : Representable (2 ^ places) :=
  ⟨1, places, Nat.one_le_two_pow, (Nat.one_mul _).symm⟩

theorem mul_two_pow_lt {count few places most : Nat} (small : count < 2 ^ few)
    (room : few + places ≤ most) : count * 2 ^ places < 2 ^ most := by
  calc count * 2 ^ places
    _ < 2 ^ few * 2 ^ places := Nat.mul_lt_mul_of_pos_right small (Nat.two_pow_pos places)
    _ = 2 ^ (few + places) := (Nat.pow_add ..).symm
    _ ≤ 2 ^ most := Nat.pow_le_pow_right (by decide) room

theorem Representable.mul_two_pow (representable : Representable units) (count : Nat) :
    Representable (units * 2 ^ count) := by
  obtain ⟨digits, places, small, rfl⟩ := representable
  exact ⟨digits, places + count, small, by rw [Nat.pow_add, Nat.mul_assoc]⟩

theorem representable_mul_oneUnits (small : units ≤ 2 ^ 53) :
    Representable (units * oneUnits) := by
  rw [oneUnits]
  exact (representable_of_small small).mul_two_pow 1074

theorem div_le_divideToEven (numerator denominator : Nat) :
    numerator / denominator ≤ divideToEven numerator denominator := by
  unfold divideToEven
  dsimp only
  split
  · exact le_rfl
  · split <;> omega

theorem divideToEven_le_succ (numerator denominator : Nat) :
    divideToEven numerator denominator ≤ numerator / denominator + 1 := by
  unfold divideToEven
  dsimp only
  split
  · omega
  · split <;> omega

theorem divideToEven_mul (positive : 0 < denominator) (quotient : Nat) :
    divideToEven (quotient * denominator) denominator = quotient := by
  rw [divideToEven, Nat.mul_mod_left, Nat.mul_div_cancel _ positive]
  exact if_pos (by omega)

theorem le_divideToEven (positive : 0 < denominator) (below : bound * denominator ≤ numerator) :
    bound ≤ divideToEven numerator denominator :=
  ((Nat.le_div_iff_mul_le positive).mpr below).trans (div_le_divideToEven _ _)

theorem divideToEven_le (positive : 0 < denominator) (above : numerator ≤ bound * denominator) :
    divideToEven numerator denominator ≤ bound := by
  rcases above.lt_or_eq with less | same
  · have quotient := Nat.div_lt_of_lt_mul (Nat.mul_comm bound denominator ▸ less)
    have rounded := divideToEven_le_succ numerator denominator
    omega
  · rw [same, divideToEven_mul positive]

/-- The nearest integer is at most half a unit away. -/
theorem divideToEven_error (positive : 0 < denominator) (numerator : Nat) :
    2 * numerator ≤ 2 * (divideToEven numerator denominator * denominator) + denominator ∧
      2 * (divideToEven numerator denominator * denominator) ≤ 2 * numerator + denominator := by
  have parts := Nat.div_add_mod' numerator denominator
  have rest := Nat.mod_lt numerator positive
  unfold divideToEven
  dsimp only
  split
  · omega
  · split
    · rw [Nat.add_mul]
      omega
    · -- Half way between two integers either of them will do.
      rcases Nat.mod_two_eq_zero_or_one (numerator / denominator) with even | odd
      · rw [even, Nat.add_zero]
        omega
      · rw [odd, Nat.add_mul]
        omega

theorem spacing_pos (units : Nat) : 0 < spacing units := Nat.two_pow_pos _

/-- From 2^53 on, a magnitude has 53 binary digits in steps of its spacing. -/
theorem spacing_bounds (units : Nat) :
    units < 2 ^ 53 * spacing units ∧ (spacing units = 1 ∨ 2 ^ 52 * spacing units ≤ units) := by
  have above := Nat.lt_log2_self (n := units)
  rw [spacing]
  rcases Nat.lt_or_ge units.log2 53 with small | large
  · have none : units.log2 - 52 = 0 := by omega
    have few : 2 ^ (units.log2 + 1) ≤ 2 ^ 53 := Nat.pow_le_pow_right (by decide) (by omega)
    rw [none]
    omega
  · have some : units ≠ 0 := by
      rintro rfl
      exact absurd large (by decide)
    have below := Nat.log2_self_le some
    rw [← Nat.pow_add, ← Nat.pow_add, show 53 + (units.log2 - 52) = units.log2 + 1 by omega,
      show 52 + (units.log2 - 52) = units.log2 by omega]
    exact ⟨above, .inr below⟩

/-- A representable number below a magnitude is a number of its steps, or has fewer digits than the
magnitude. -/
theorem Representable.dvd_or_le (representable : Representable units) (quotient : Nat) :
    spacing quotient ∣ units ∨ spacing quotient ≠ 1 ∧ units ≤ 2 ^ 52 * spacing quotient := by
  obtain ⟨digits, places, small, rfl⟩ := representable
  rcases Nat.le_total (quotient.log2 - 52) places with coarse | fine
  · exact .inl (Dvd.dvd.mul_left (Nat.pow_dvd_pow 2 coarse) digits)
  · rcases fine.eq_or_lt with same | less
    · rw [same]
      exact .inl (Nat.dvd_mul_left _ _)
    · refine .inr ⟨(Nat.one_lt_two_pow (by omega)).ne', ?_⟩
      calc digits * 2 ^ places
        _ ≤ 2 ^ 53 * 2 ^ places := Nat.mul_le_mul_right _ small
        _ = 2 ^ 52 * 2 ^ (places + 1) := by rw [Nat.pow_succ]; omega
        _ ≤ 2 ^ 52 * 2 ^ (quotient.log2 - 52) :=
          Nat.mul_le_mul_left _ (Nat.pow_le_pow_right (by decide) less)

/-- A representable number is a number of the steps of every magnitude up to its own. -/
theorem Representable.spacing_dvd {quotient : Nat} (representable : Representable units)
    (reached : quotient ≤ units) : spacing quotient ∣ units := by
  rcases representable.dvd_or_le quotient with whole | ⟨coarse, small⟩
  · exact whole
  · have many := (spacing_bounds quotient).2.resolve_left coarse
    have same : units = 2 ^ 52 * spacing quotient := by omega
    exact ⟨2 ^ 52, by rw [same, Nat.mul_comm]⟩

section Bounds

variable (positive : 0 < denominator)
include positive

theorem representable_roundUnits (numerator : Nat) :
    Representable (roundUnits numerator denominator) := by
  refine ⟨_, _, ?_, rfl⟩
  obtain ⟨above, -⟩ := spacing_bounds (numerator / denominator)
  apply divideToEven_le (Nat.mul_pos positive (spacing_pos _))
  have quotient := (Nat.div_lt_iff_lt_mul positive).mp above
  rw [Nat.mul_comm denominator, ← Nat.mul_assoc]
  exact quotient.le

/-- Rounding does not go below a representable number. -/
theorem le_roundUnits (representable : Representable units)
    (below : units * denominator ≤ numerator) : units ≤ roundUnits numerator denominator := by
  have quotient : units ≤ numerator / denominator := (Nat.le_div_iff_mul_le positive).mpr below
  have step := Nat.mul_pos positive (spacing_pos (numerator / denominator))
  rw [roundUnits]
  rcases representable.dvd_or_le (numerator / denominator) with ⟨count, rfl⟩ | ⟨coarse, small⟩
  · rw [Nat.mul_comm (spacing _) count]
    apply Nat.mul_le_mul_right
    apply le_divideToEven step
    rwa [Nat.mul_comm denominator, ← Nat.mul_assoc, Nat.mul_comm count]
  · -- The steps are so wide that 2^52 of them lie between the two.
    have many := (spacing_bounds (numerator / denominator)).2.resolve_left coarse
    refine small.trans (Nat.mul_le_mul_right _ (le_divideToEven step ?_))
    rw [Nat.mul_comm denominator, ← Nat.mul_assoc]
    exact (Nat.le_div_iff_mul_le positive).mp many

/-- Rounding does not go above a representable number. -/
theorem roundUnits_le (representable : Representable units)
    (above : numerator ≤ units * denominator) : roundUnits numerator denominator ≤ units := by
  have quotient : numerator / denominator ≤ units := Nat.div_le_of_le_mul (by rwa [Nat.mul_comm])
  have step := Nat.mul_pos positive (spacing_pos (numerator / denominator))
  obtain ⟨count, steps⟩ := representable.spacing_dvd quotient
  rw [roundUnits, steps, Nat.mul_comm (spacing _) count]
  apply Nat.mul_le_mul_right
  apply divideToEven_le step
  rwa [Nat.mul_comm denominator, ← Nat.mul_assoc, Nat.mul_comm count, ← steps]

/-- Above the numbers with fewer than 53 binary digits, rounding changes a result by no more than a
2^53rd part of it. -/
theorem roundUnits_error (large : 2 ^ 52 * denominator ≤ numerator) :
    (2 ^ 53 - 1) * numerator ≤ 2 ^ 53 * (roundUnits numerator denominator * denominator) ∧
      2 ^ 53 * (roundUnits numerator denominator * denominator) ≤ (2 ^ 53 + 1) * numerator := by
  have step := spacing_pos (numerator / denominator)
  have quotient : 2 ^ 52 ≤ numerator / denominator := (Nat.le_div_iff_mul_le positive).mpr large
  have many : 2 ^ 52 * spacing (numerator / denominator) ≤ numerator / denominator := by
    rcases (spacing_bounds (numerator / denominator)).2 with one | many
    · rwa [one]
    · exact many
  have wide := (Nat.le_div_iff_mul_le positive).mp many
  obtain ⟨lower, higher⟩ := divideToEven_error (Nat.mul_pos positive step) numerator
  rw [roundUnits]
  generalize spacing (numerator / denominator) = step at wide lower higher
  have same : ∀ count : Nat, count * step * denominator = count * (denominator * step) := by
    intro count
    rw [Nat.mul_assoc, Nat.mul_comm step]
  rw [same] at wide ⊢
  omega

theorem roundUnits_mul (representable : Representable units) :
    roundUnits (units * denominator) denominator = units :=
  Nat.le_antisymm (roundUnits_le positive representable le_rfl)
    (le_roundUnits positive representable le_rfl)

end Bounds

section Encoding

variable {bits : UInt64} {negative : Bool}

/-- What a finite encoding says is representable and not too large. -/
theorem representable_ofBits (decoded : ofBits bits = .finite negative units) :
    Representable units ∧ units < overflowUnits := by
  have low : bits.toNat % 2 ^ 52 < 2 ^ 52 := Nat.mod_lt _ (Nat.two_pow_pos 52)
  have high : bits.toNat / 2 ^ 52 % 2 ^ 11 < 2048 := Nat.mod_lt _ (by decide)
  rw [ofBits] at decoded
  split at decoded
  · split at decoded <;> cases decoded
  · next notLast =>
    split at decoded
    · cases decoded
      have small : 2 ^ 52 < overflowUnits := by
        rw [overflowUnits]
        exact @Nat.pow_lt_pow_right 2 52 2098 (by decide) (by decide)
      exact ⟨representable_of_small (by omega), low.trans small⟩
    · cases decoded
      generalize bits.toNat % 2 ^ 52 = fraction at low ⊢
      generalize bits.toNat / 2 ^ 52 % 2 ^ 11 = exponent at high notLast ⊢
      refine ⟨(representable_of_small (by omega)).mul_two_pow _, ?_⟩
      rw [overflowUnits]
      exact @mul_two_pow_lt (2 ^ 52 + fraction) 53 (exponent - 1) 2098 (by omega) (by omega)

end Encoding

end Rounding

section Operations

variable {first second : Nat}

theorem finite_add :
    finite false first + finite false second = round false (first + second) 1 := by
  change add (finite false first) (finite false second) = _
  rw [add, if_pos rfl]

theorem finite_mul :
    finite false first * finite false second = round false (first * second) oneUnits := by
  change mul (finite false first) (finite false second) = _
  rw [mul, Bool.xor_self]

theorem finite_div (positive : 0 < second) :
    finite false first / finite false second = round false (first * oneUnits) second := by
  change div (finite false first) (finite false second) = _
  rw [div, if_neg positive.ne', Bool.xor_self]

theorem le_finite : (finite false first).le (finite false second) = decide (first ≤ second) := by
  simp [le, signed]

theorem lt_finite : (finite false first).lt (finite false second) = decide (first < second) := by
  simp [lt, signed]

end Operations

/-- A finite number between two numbers of units. -/
def Within (least most : Nat) (value : Binary64) : Prop :=
  ∃ units, value = .finite false units ∧ least ≤ units ∧ units ≤ most

section Intervals

variable {least most below above numerator denominator : Nat} {x y : Binary64}

theorem Within.mono (within : x.Within least most) (lower : below ≤ least) (higher : most ≤ above) :
    x.Within below above := by
  obtain ⟨units, rfl, low, high⟩ := within
  exact ⟨units, rfl, lower.trans low, high.trans higher⟩

section Results

variable (low : Representable least) (high : Representable most) (small : most < overflowUnits)
include low high small

theorem within_round (positive : 0 < denominator) (lower : least * denominator ≤ numerator)
    (higher : numerator ≤ most * denominator) :
    (round false numerator denominator).Within least most := by
  have atLeast := le_roundUnits positive low lower
  have atMost := roundUnits_le positive high higher
  refine ⟨_, ?_, atLeast, atMost⟩
  rw [round, if_pos (atMost.trans_lt small)]

variable {firstLeast firstMost secondLeast secondMost : Nat}
  (first : x.Within firstLeast firstMost) (second : y.Within secondLeast secondMost)
include first second

theorem Within.add (lower : least ≤ firstLeast + secondLeast)
    (higher : firstMost + secondMost ≤ most) : (x + y).Within least most := by
  obtain ⟨u, rfl, firstLow, firstHigh⟩ := first
  obtain ⟨v, rfl, secondLow, secondHigh⟩ := second
  rw [finite_add]
  exact within_round low high small Nat.one_pos (by omega) (by omega)

theorem Within.mul (lower : least * oneUnits ≤ firstLeast * secondLeast)
    (higher : firstMost * secondMost ≤ most * oneUnits) : (x * y).Within least most := by
  obtain ⟨u, rfl, firstLow, firstHigh⟩ := first
  obtain ⟨v, rfl, secondLow, secondHigh⟩ := second
  rw [finite_mul]
  exact within_round low high small oneUnits_pos
    (lower.trans (Nat.mul_le_mul firstLow secondLow))
    ((Nat.mul_le_mul firstHigh secondHigh).trans higher)

theorem Within.div (nonzero : 0 < secondLeast) (lower : least * secondMost ≤ firstLeast * oneUnits)
    (higher : firstMost * oneUnits ≤ most * secondLeast) : (x / y).Within least most := by
  obtain ⟨u, rfl, firstLow, firstHigh⟩ := first
  obtain ⟨v, rfl, secondLow, secondHigh⟩ := second
  have positive : 0 < v := nonzero.trans_le secondLow
  rw [finite_div positive]
  apply within_round low high small positive
  · calc least * v
      _ ≤ least * secondMost := Nat.mul_le_mul_left least secondHigh
      _ ≤ firstLeast * oneUnits := lower
      _ ≤ u * oneUnits := Nat.mul_le_mul_right oneUnits firstLow
  · calc u * oneUnits
      _ ≤ firstMost * oneUnits := Nat.mul_le_mul_right oneUnits firstHigh
      _ ≤ most * secondLeast := higher
      _ ≤ most * v := Nat.mul_le_mul_left most secondLow

end Results

end Intervals

end BoundedPrintf.Binary64
