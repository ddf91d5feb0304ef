import Mathlib
import BoundedPrintf.Proofs.Binary64.Guessing

/-! Normalised mantissas. A near guess is moved by one place, then by another where a rounding has
carried it to ten, and rounding to the decimal places kept can carry once more. -/
namespace BoundedPrintf.Binary64

section Adjusting

variable {top units : Nat} {exponent : Int} {pair : Binary64 × Int}

theorem within_itself (units : Nat) : (finite false units).Within units units :=
  ⟨units, rfl, le_rfl, le_rfl⟩

theorem ten_le_finite : ten.le (finite false units) = decide (10 * oneUnits ≤ units) := le_finite

theorem within_ten : ten.Within (10 * oneUnits) (10 * oneUnits) := within_itself _

/-- The three moves of a mantissa. -/
theorem adjust_cases (units : Nat) (exponent : Int) :
    (10 * oneUnits ≤ units ∧ normalize.adjust (finite false units, exponent) =
      (finite false units / ten, exponent + 1)) ∨
    (units < oneUnits ∧ normalize.adjust (finite false units, exponent) =
      (finite false units * ten, exponent - 1)) ∨
    (oneUnits ≤ units ∧ units < 10 * oneUnits ∧ normalize.adjust (finite false units, exponent) =
      (finite false units, exponent)) := by
  rw [normalize.adjust, ten_le_finite, finite_lt_one]
  rcases Nat.lt_or_ge units (10 * oneUnits) with below | above
  · rw [decide_eq_false (Nat.not_le_of_lt below), if_neg Bool.false_ne_true]
    rcases Nat.lt_or_ge units oneUnits with small | large
    · rw [decide_eq_true small, if_pos rfl]
      exact .inr (.inl ⟨small, rfl⟩)
    · rw [decide_eq_false (Nat.not_lt_of_le large), if_neg Bool.false_ne_true]
      exact .inr (.inr ⟨large, below, rfl⟩)
  · rw [decide_eq_true above, if_pos rfl]
    exact .inl ⟨above, rfl⟩

theorem within_mul_ten (above : halfUnits ≤ units) (below : units ≤ oneUnits) :
    (finite false units * ten).Within oneUnits (10 * oneUnits) := by
  have enough : oneUnits * oneUnits ≤ units * (10 * oneUnits) := by
    calc oneUnits * oneUnits
      _ ≤ halfUnits * (10 * oneUnits) := oneUnits_mul_le
      _ ≤ units * (10 * oneUnits) := Nat.mul_le_mul_right _ above
  have room : units * (10 * oneUnits) ≤ 10 * oneUnits * oneUnits := by
    rw [Nat.mul_comm]
    exact Nat.mul_le_mul_left _ below
  exact (within_itself units).mul representable_oneUnits (representable_mul_oneUnits (by decide))
    (small_multiple (by decide)) within_ten enough room

theorem within_div_ten (above : 10 * oneUnits ≤ units) (below : units ≤ 16 * oneUnits) :
    (finite false units / ten).Within oneUnits (2 * oneUnits) := by
  have positive : 0 < 10 * oneUnits := Nat.mul_pos (by decide) oneUnits_pos
  exact within_quotient positive (by decide) above (by omega)

/-- A mantissa from one to ten is near, but for the last exponent. -/
theorem near_of_close {value : Binary64} (within : value.Within oneUnits (10 * oneUnits))
    (least : -324 ≤ exponent) (most : exponent ≤ 308)
    (atMost : exponent = 308 → value.Within oneUnits (top * oneUnits)) :
    Near top (value, exponent) := by
  have sixteen : 10 * oneUnits ≤ 16 * oneUnits := Nat.mul_le_mul_right _ (by decide)
  exact ⟨within.mono halfUnits_le sixteen, least, most, fun _ => within.mono le_rfl sixteen, atMost⟩

section Ends

variable (near : Near top (finite false units, exponent))
include near

/-- At the last exponent the mantissa does not reach ten. -/
theorem Near.before_last (few : top < 10) (above : 10 * oneUnits ≤ units) : exponent ≠ 308 := by
  intro last
  obtain ⟨_, same, -, high⟩ := near.atMost last
  cases same
  have less : top * oneUnits < 10 * oneUnits := Nat.mul_lt_mul_of_pos_right few oneUnits_pos
  omega

/-- At the first exponent the mantissa reaches one. -/
theorem Near.behind_first (small : units < oneUnits) : exponent ≠ -324 := by
  intro first
  obtain ⟨_, same, low, -⟩ := near.atLeast first
  cases same
  exact absurd low small.not_ge

end Ends

/-- One move keeps a guess near and leaves a mantissa from one to ten. -/
theorem Near.adjust (near : Near top pair) (some : 2 ≤ top) (few : top < 10) :
    Near top (normalize.adjust pair) ∧
      (normalize.adjust pair).1.Within oneUnits (10 * oneUnits) := by
  obtain ⟨value, exponent⟩ := pair
  obtain ⟨units, same, low, high⟩ := near.mantissa
  obtain rfl : value = finite false units := same
  have least : -324 ≤ exponent := near.least
  have most : exponent ≤ 308 := near.most
  rcases adjust_cases units exponent with ⟨above, moved⟩ | ⟨small, moved⟩ | ⟨large, below, same⟩
  · have inner := near.before_last few above
    have quotient := within_div_ten above high
    have wide := quotient.mono le_rfl (Nat.mul_le_mul_right oneUnits (by decide : 2 ≤ 10))
    have last := quotient.mono le_rfl (Nat.mul_le_mul_right oneUnits some)
    rw [moved]
    exact ⟨near_of_close wide (by omega) (by omega) fun _ => last, wide⟩
  · have inner := near.behind_first small
    have product := within_mul_ten low small.le
    have before : exponent - 1 ≠ 308 := by omega
    rw [moved]
    exact ⟨near_of_close product (by omega) (by omega) fun last => absurd last before, product⟩
  · have within : (finite false units).Within oneUnits (10 * oneUnits) :=
      (within_itself units).mono large below.le
    rw [same]
    exact ⟨near, within⟩

/-- A move of a mantissa that has reached one leaves it below ten. -/
theorem adjust_lt_ten (within : pair.1.Within oneUnits (11 * oneUnits)) :
    (normalize.adjust pair).1.Within oneUnits (10 * oneUnits - 1) := by
  obtain ⟨value, exponent⟩ := pair
  obtain ⟨units, same, low, high⟩ := within
  obtain rfl : value = finite false units := same
  rcases adjust_cases units exponent with ⟨above, moved⟩ | ⟨small, -⟩ | ⟨large, below, same⟩
  · have less : 2 * oneUnits ≤ 10 * oneUnits - 1 := by
      have positive := oneUnits_pos
      omega
    rw [moved]
    exact (within_div_ten above (by omega)).mono le_rfl less
  · exact absurd low small.not_ge
  · rw [same]
    exact (within_itself units).mono large (Nat.le_sub_one_of_lt below)

end Adjusting

section Rounding

variable {value : Binary64} {most : Nat} (places : Nat)

theorem within_half : half.Within halfUnits halfUnits :=
  ⟨halfUnits, by rw [half, halfUnits], le_rfl, le_rfl⟩

theorem wholeFrom_le_finite {units : Nat} :
    wholeFrom.le (finite false units) = decide (2 ^ 52 * oneUnits ≤ units) := le_finite

/-- Rounding to decimal places adds a half at most. -/
theorem within_roundAt {top : Nat} (within : value.Within oneUnits (most * oneUnits))
    (more : most < top) (few : top ≤ 16) :
    (value.roundAt places).Within oneUnits (top * oneUnits) := by
  have fraction : wholeFrom.le value = false := by
    obtain ⟨units, rfl, -, high⟩ := within
    have small : most * oneUnits < 2 ^ 52 * oneUnits :=
      Nat.mul_lt_mul_of_pos_right (by omega) oneUnits_pos
    rw [wholeFrom_le_finite]
    exact decide_eq_false (Nat.not_le_of_lt (high.trans_lt small))
  have last : (half * powerOfTen (-(min places 400 : Nat))).Within 0 halfUnits :=
    within_half.mul representable_zero representable_halfUnits
      (halfUnits_le.trans_lt oneUnits_lt_overflowUnits) (within_powerOfTen_neg (min places 400))
      (by omega) le_rfl
  rw [roundAt, fraction, if_neg Bool.false_ne_true]
  refine within.add representable_oneUnits (representable_mul_oneUnits (by omega))
    (small_multiple few) last (Nat.le_add_right oneUnits 0) ?_
  calc most * oneUnits + halfUnits
    _ ≤ most * oneUnits + oneUnits := Nat.add_le_add_left (by rw [← two_mul_halfUnits]; omega) _
    _ = (most + 1) * oneUnits := (Nat.succ_mul most oneUnits).symm
    _ ≤ top * oneUnits := Nat.mul_le_mul_right oneUnits more

end Rounding

section Normalizing

variable {value : Binary64} {units : Nat}

/-- The last step is one more move, since rounding does not go below one. -/
theorem normalize_eq_adjust (nonzero : value.isZero = false) (places : Nat)
    (reached : ((normalize.adjust (normalize.adjust (guess value))).1.roundAt places).lt one =
      false) :
    value.normalize places = normalize.adjust
      ((normalize.adjust (normalize.adjust (guess value))).1.roundAt places,
        (normalize.adjust (normalize.adjust (guess value))).2) := by
  rw [normalize, nonzero, if_neg Bool.false_ne_true]
  rw [guess] at reached ⊢
  dsimp only
  generalize normalize.adjust (normalize.adjust (_, value.magnitude)) = pair at reached ⊢
  rw [normalize.adjust, reached]
  simp only [Bool.false_eq_true, if_false]

/-- The mantissa of a number lies between one and ten. -/
theorem normalize_bounds (representable : Representable units) (positive : 0 < units)
    (small : units < overflowUnits) (places : Nat) :
    Near 3 ((finite false units).normalize places) ∧
      ((finite false units).normalize places).1.Within oneUnits (10 * oneUnits - 1) := by
  obtain ⟨first, wide⟩ := (near_guess representable positive small).adjust le_rfl (by decide)
  obtain ⟨second, -⟩ := first.adjust le_rfl (by decide)
  have eleven : 10 * oneUnits ≤ 11 * oneUnits := Nat.mul_le_mul_right oneUnits (by decide)
  have close := adjust_lt_ten (wide.mono le_rfl eleven)
  have normal := normalize_eq_adjust (isZero_finite positive) places
  generalize normalize.adjust (normalize.adjust (guess (finite false units))) = pair
    at second close normal
  have rounded : (pair.1.roundAt places).Within oneUnits (11 * oneUnits) :=
    within_roundAt places (close.mono le_rfl (Nat.sub_le _ 1)) (by decide) (by decide)
  have kept : Near 3 (pair.1.roundAt places, pair.2) := by
    have sixteen : 11 * oneUnits ≤ 16 * oneUnits := Nat.mul_le_mul_right oneUnits (by decide)
    exact ⟨rounded.mono halfUnits_le sixteen, second.least, second.most,
      fun _ => rounded.mono le_rfl sixteen,
      fun last => within_roundAt places (second.atMost last) (by decide) (by decide)⟩
  rw [normal (not_lt_one_of_within rounded)]
  exact ⟨(kept.adjust (by decide) (by decide)).1, adjust_lt_ten rounded⟩

end Normalizing

end BoundedPrintf.Binary64
