import Mathlib
import BoundedPrintf.Proofs.Binary64.Exact

/-! Errors of single operations. A whole number of units is off by at most its 2^53rd part after it is
rounded, and the digit that is read off a rounded quotient is off by no more than the quotient. -/
namespace BoundedPrintf.Binary64

section Rounding

variable {denominator units share : Nat}

/-- Small numbers of units are not rounded at all, so no lower bound is needed. -/
theorem roundUnits_whole_error (positive : 0 < denominator) (units : Nat) :
    2 ^ 53 * units ≤ 2 ^ 53 * roundUnits (units * denominator) denominator + units ∧
      2 ^ 53 * roundUnits (units * denominator) denominator ≤ 2 ^ 53 * units + units := by
  rcases Nat.le_total units (2 ^ 53) with small | large
  · rw [roundUnits_mul positive (representable_of_small small)]
    exact ⟨Nat.le_add_right _ _, Nat.le_add_right _ _⟩
  · have wide : 2 ^ 52 * denominator ≤ units * denominator :=
      Nat.mul_le_mul_right denominator (by omega)
    obtain ⟨lower, higher⟩ := roundUnits_error positive wide
    rw [← Nat.mul_assoc, ← Nat.mul_assoc] at lower higher
    have least := Nat.le_of_mul_le_mul_right lower positive
    have most := Nat.le_of_mul_le_mul_right higher positive
    omega

theorem roundUnits_whole_near (positive : 0 < denominator) (few : units ≤ 2 ^ 53 * share) :
    units ≤ roundUnits (units * denominator) denominator + share ∧
      roundUnits (units * denominator) denominator ≤ units + share := by
  obtain ⟨lower, higher⟩ := roundUnits_whole_error positive units
  omega

theorem roundUnits_one_error (units : Nat) :
    2 ^ 53 * units ≤ 2 ^ 53 * roundUnits units 1 + units ∧
      2 ^ 53 * roundUnits units 1 ≤ 2 ^ 53 * units + units := by
  have error := roundUnits_whole_error Nat.one_pos units
  rwa [Nat.mul_one] at error

end Rounding

section Powers

variable {place most : Nat}

/-- Multiples of a power of ten, exact and rounded. -/
theorem tensUnits_near (few : place ≤ most) (small : most ≤ 2 ^ 52) (factor : Nat) :
    2 ^ 53 * (factor * (10 ^ place * oneUnits)) ≤
        2 ^ 53 * (factor * tensUnits place) + most * (factor * (10 ^ place * oneUnits)) ∧
      2 ^ 53 * (factor * tensUnits place) ≤
        2 ^ 53 * (factor * (10 ^ place * oneUnits)) + 2 * most * (factor * (10 ^ place * oneUnits)) := by
  obtain ⟨lower, higher⟩ := @tensUnits_error place (few.trans small)
  generalize 10 ^ place * oneUnits = exact at lower higher ⊢
  have share : place * exact ≤ most * exact := Nat.mul_le_mul_right exact few
  have less : 2 ^ 53 * exact ≤ 2 ^ 53 * tensUnits place + most * exact := by
    rw [Nat.sub_mul] at lower
    omega
  have more : 2 ^ 53 * tensUnits place ≤ 2 ^ 53 * exact + 2 * (most * exact) := by
    rw [Nat.add_mul, Nat.mul_assoc 2] at higher
    omega
  constructor
  · calc 2 ^ 53 * (factor * exact)
      _ = factor * (2 ^ 53 * exact) := Nat.mul_left_comm ..
      _ ≤ factor * (2 ^ 53 * tensUnits place + most * exact) := Nat.mul_le_mul_left factor less
      _ = 2 ^ 53 * (factor * tensUnits place) + most * (factor * exact) := by ring
  · calc 2 ^ 53 * (factor * tensUnits place)
      _ = factor * (2 ^ 53 * tensUnits place) := Nat.mul_left_comm ..
      _ ≤ factor * (2 ^ 53 * exact + 2 * (most * exact)) := Nat.mul_le_mul_left factor more
      _ = 2 ^ 53 * (factor * exact) + 2 * most * (factor * exact) := by ring

end Powers

section Differences

variable {first second share : Nat}

/-- A difference is off by a share of what it is taken from. -/
theorem sub_near (representable : Representable first) (small : first < overflowUnits)
    (below : second ≤ first) (few : first ≤ 2 ^ 53 * share) :
    ∃ rest, finite false first - finite false second = finite false rest ∧ rest ≤ first ∧
      first - second ≤ rest + share ∧ rest ≤ first - second + share := by
  have most : roundUnits (first - second) 1 ≤ first :=
    roundUnits_le Nat.one_pos representable (by omega)
  obtain ⟨lower, higher⟩ := roundUnits_one_error (first - second)
  refine ⟨roundUnits (first - second) 1, ?_, most, by omega, by omega⟩
  rw [sub_finite below, round_eq_finite (most.trans_lt small)]

theorem sub_negative (less : first < second) :
    finite false first - finite false second = round true (second - first) 1 := by
  change add (finite false first) (neg (finite false second)) = _
  rw [neg, add, if_neg (by decide), if_neg less.not_gt, if_pos less, Bool.not_false]

theorem isPositive_round_negative (numerator denominator : Nat) :
    (round true numerator denominator).isPositive = false := by
  rw [round]
  split
  · have below : ¬ (0 : Int) < -(roundUnits numerator denominator : Int) := by omega
    exact decide_eq_false below
  · rfl

/-- A negative remainder has the digit zero. -/
theorem leadingDigit_negative {divisor : Nat} (positive : 0 < divisor) (less : first < second) :
    ((finite false first - finite false second) / finite false divisor).leadingDigit = 0 := by
  rw [sub_negative less, round]
  split
  · change (div _ _).leadingDigit = 0
    rw [div, if_neg positive.ne', Bool.xor_false, round]
    split <;> rfl
  · rfl

end Differences

section Quotients

variable {power rest : Nat}

theorem leadingDigit_round (numerator denominator : Nat) :
    (round false numerator denominator).leadingDigit =
      min 9 (roundUnits numerator denominator / oneUnits) := by
  rw [round]
  split
  · rfl
  · next large =>
      have nine : 9 * oneUnits ≤ roundUnits numerator denominator :=
        (small_multiple (by decide)).le.trans (Nat.le_of_not_lt large)
      have enough : 9 ≤ roundUnits numerator denominator / oneUnits :=
        (Nat.le_div_iff_mul_le oneUnits_pos).mpr nine
      rw [Nat.min_eq_left enough]
      rfl

/-- What a digit stands for is the remainder at most, but for a rounding, and another power would exceed
it unless there is no higher digit. -/
theorem leadingDigit_error (positive : 0 < power) :
    let digit := (finite false rest / finite false power).leadingDigit
    digit ≤ 9 ∧ 2 ^ 53 * (digit * power) ≤ 2 ^ 53 * rest + rest ∧
      (digit < 9 → rest < (digit + 1) * power) := by
  intro digit
  have read : digit = min 9 (roundUnits (rest * oneUnits) power / oneUnits) := by
    rw [← leadingDigit_round, ← finite_div positive]
  have most : digit ≤ 9 := read.trans_le (Nat.min_le_left _ _)
  refine ⟨most, ?_, ?_⟩
  · rcases Nat.eq_zero_or_pos digit with none | some
    · rw [none, Nat.zero_mul]
      exact Nat.zero_le _
    · have reached : digit * oneUnits ≤ roundUnits (rest * oneUnits) power :=
        (Nat.le_div_iff_mul_le oneUnits_pos).mp (read.trans_le (Nat.min_le_right _ _))
      -- A quotient with a digit is far above the least numbers.
      have wide : 2 ^ 52 * power ≤ rest * oneUnits := by
        by_contra few
        have least : roundUnits (rest * oneUnits) power ≤ 2 ^ 52 :=
          roundUnits_le positive (representable_two_pow 52) (Nat.le_of_not_le few)
        have one : 2 ^ 52 < oneUnits := by
          rw [oneUnits]
          exact @Nat.pow_lt_pow_right 2 52 1074 (by decide) (by decide)
        have digits : oneUnits ≤ digit * oneUnits := Nat.le_mul_of_pos_left _ some
        omega
      have error := (roundUnits_error positive wide).2
      apply Nat.le_of_mul_le_mul_right _ oneUnits_pos
      calc 2 ^ 53 * (digit * power) * oneUnits
        _ = 2 ^ 53 * (digit * oneUnits * power) := by ring
        _ ≤ 2 ^ 53 * (roundUnits (rest * oneUnits) power * power) :=
          Nat.mul_le_mul_left _ (Nat.mul_le_mul_right _ reached)
        _ ≤ (2 ^ 53 + 1) * (rest * oneUnits) := error
        _ = (2 ^ 53 * rest + rest) * oneUnits := by ring
  · intro less
    by_contra enough
    have next : (digit + 1) * oneUnits ≤ roundUnits (rest * oneUnits) power := by
      apply le_roundUnits positive (representable_mul_oneUnits (by omega))
      calc (digit + 1) * oneUnits * power
        _ = (digit + 1) * power * oneUnits := Nat.mul_right_comm ..
        _ ≤ rest * oneUnits := Nat.mul_le_mul_right _ (Nat.le_of_not_lt enough)
    have higher := (Nat.le_div_iff_mul_le oneUnits_pos).mpr next
    omega

end Quotients

end BoundedPrintf.Binary64
