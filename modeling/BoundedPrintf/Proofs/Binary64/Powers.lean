import Mathlib
import BoundedPrintf.Binary64.Magnitude
import BoundedPrintf.Proofs.Binary64.Rounding

/-! Powers of ten as products of tens. Each factor adds one rounding, so a finite product is the power
of ten but for a small part of it. -/
namespace BoundedPrintf.Binary64

/-- The units of a product of so many tens, when no product is too large. -/
def tensUnits : Nat → Nat
  | 0 => oneUnits
  | count + 1 => roundUnits (tensUnits count * (10 * oneUnits)) oneUnits

section Constants

theorem small_multiple {count : Nat} (few : count ≤ 16) : count * oneUnits < overflowUnits := by
  rw [oneUnits, overflowUnits]
  exact @mul_two_pow_lt count 5 1074 2098 (by omega) (by decide)

theorem oneUnits_lt_overflowUnits : oneUnits < overflowUnits := by
  have once := small_multiple (by decide : 1 ≤ 16)
  rwa [Nat.one_mul] at once

/-- The largest finite values are those with 309 digits that begin with less than two. -/
theorem overflowUnits_bounds : 11 * (10 ^ 307 * oneUnits) < overflowUnits ∧
    overflowUnits ≤ 18 * (10 ^ 307 * oneUnits) ∧ overflowUnits ≤ 9 * (10 ^ 308 * oneUnits) := by
  decide +kernel

theorem pow_succ_mul (count : Nat) :
    10 ^ (count + 1) * oneUnits = 10 * (10 ^ count * oneUnits) := by
  ring

theorem pow_mul_mono {count more : Nat} (few : count ≤ more) :
    10 ^ count * oneUnits ≤ 10 ^ more * oneUnits :=
  Nat.mul_le_mul_right _ (Nat.pow_le_pow_right (by decide) few)

end Constants

section Products

variable {count : Nat}

theorem tensUnits_zero : tensUnits 0 = oneUnits := by rw [tensUnits]

theorem tensUnits_succ (count : Nat) :
    tensUnits (count + 1) = roundUnits (tensUnits count * (10 * oneUnits)) oneUnits := by
  rw [tensUnits]

theorem tens_succ (count : Nat) : tens (count + 1) = tens count * ten := by rw [tens]

theorem representable_tensUnits (count : Nat) : Representable (tensUnits count) := by
  cases count with
  | zero =>
      rw [tensUnits_zero, ← Nat.one_mul oneUnits]
      exact representable_mul_oneUnits (by decide)
  | succ count =>
      rw [tensUnits_succ]
      exact representable_roundUnits oneUnits_pos _

theorem tensUnits_one : tensUnits 1 = 10 * oneUnits := by
  rw [tensUnits_succ, tensUnits_zero, Nat.mul_comm]
  exact roundUnits_mul oneUnits_pos (representable_mul_oneUnits (by decide))

theorem tensUnits_le_succ (count : Nat) : tensUnits count ≤ tensUnits (count + 1) := by
  rw [tensUnits_succ]
  apply le_roundUnits oneUnits_pos (representable_tensUnits count)
  exact Nat.mul_le_mul_left _ (Nat.le_mul_of_pos_left _ (by decide))

theorem tensUnits_mono : Monotone tensUnits := monotone_nat_of_le_succ tensUnits_le_succ

theorem oneUnits_le_tensUnits (count : Nat) : oneUnits ≤ tensUnits count := by
  rw [← tensUnits_zero]
  exact tensUnits_mono (Nat.zero_le count)

/-- One more factor changes the error by one rounding. -/
theorem tensUnits_step (count : Nat) :
    (2 ^ 53 - 1) * (10 * tensUnits count) ≤ 2 ^ 53 * tensUnits (count + 1) ∧
      2 ^ 53 * tensUnits (count + 1) ≤ (2 ^ 53 + 1) * (10 * tensUnits count) := by
  have less : 2 ^ 52 ≤ oneUnits := by
    rw [oneUnits]
    exact @Nat.pow_le_pow_right 2 (by decide) 52 1074 (by decide)
  have wide : 2 ^ 52 ≤ 10 * oneUnits := by omega
  have large : 2 ^ 52 * oneUnits ≤ tensUnits count * (10 * oneUnits) := by
    rw [Nat.mul_comm]
    exact Nat.mul_le_mul (oneUnits_le_tensUnits count) wide
  obtain ⟨lower, higher⟩ := roundUnits_error oneUnits_pos large
  have product : tensUnits count * (10 * oneUnits) = 10 * tensUnits count * oneUnits := by ring
  rw [← tensUnits_succ, product, ← Nat.mul_assoc _ _ oneUnits, ← Nat.mul_assoc _ _ oneUnits]
    at lower higher
  exact ⟨Nat.le_of_mul_le_mul_right lower oneUnits_pos,
    Nat.le_of_mul_le_mul_right higher oneUnits_pos⟩

/-- The relative error of a product grows no faster than the number of its factors. -/
theorem tensUnits_error (few : count ≤ 2 ^ 52) :
    (2 ^ 53 - count) * (10 ^ count * oneUnits) ≤ 2 ^ 53 * tensUnits count ∧
      2 ^ 53 * tensUnits count ≤ (2 ^ 53 + 2 * count) * (10 ^ count * oneUnits) := by
  induction count with
  | zero => simp [tensUnits]
  | succ count ih =>
      obtain ⟨lower, higher⟩ := ih (by omega)
      obtain ⟨stepLower, stepHigher⟩ := tensUnits_step count
      rw [pow_succ_mul]
      generalize 10 ^ count * oneUnits = exact at lower higher ⊢
      constructor
      · have parts : 2 ^ 53 * (2 ^ 53 - (count + 1)) ≤ (2 ^ 53 - 1) * (2 ^ 53 - count) := by omega
        apply Nat.le_of_mul_le_mul_left _ (Nat.two_pow_pos 53)
        calc 2 ^ 53 * ((2 ^ 53 - (count + 1)) * (10 * exact))
          _ = 2 ^ 53 * (2 ^ 53 - (count + 1)) * (10 * exact) := (Nat.mul_assoc ..).symm
          _ ≤ (2 ^ 53 - 1) * (2 ^ 53 - count) * (10 * exact) := Nat.mul_le_mul_right _ parts
          _ = (2 ^ 53 - 1) * 10 * ((2 ^ 53 - count) * exact) := by ring
          _ ≤ (2 ^ 53 - 1) * 10 * (2 ^ 53 * tensUnits count) := Nat.mul_le_mul_left _ lower
          _ = 2 ^ 53 * ((2 ^ 53 - 1) * (10 * tensUnits count)) := by ring
          _ ≤ 2 ^ 53 * (2 ^ 53 * tensUnits (count + 1)) := Nat.mul_le_mul_left _ stepLower
      · have parts : (2 ^ 53 + 1) * (2 ^ 53 + 2 * count) ≤ 2 ^ 53 * (2 ^ 53 + 2 * (count + 1)) := by
          omega
        apply Nat.le_of_mul_le_mul_left _ (Nat.two_pow_pos 53)
        calc 2 ^ 53 * (2 ^ 53 * tensUnits (count + 1))
          _ ≤ 2 ^ 53 * ((2 ^ 53 + 1) * (10 * tensUnits count)) := Nat.mul_le_mul_left _ stepHigher
          _ = (2 ^ 53 + 1) * 10 * (2 ^ 53 * tensUnits count) := by ring
          _ ≤ (2 ^ 53 + 1) * 10 * ((2 ^ 53 + 2 * count) * exact) := Nat.mul_le_mul_left _ higher
          _ = (2 ^ 53 + 1) * (2 ^ 53 + 2 * count) * (10 * exact) := by ring
          _ ≤ 2 ^ 53 * (2 ^ 53 + 2 * (count + 1)) * (10 * exact) := Nat.mul_le_mul_right _ parts
          _ = 2 ^ 53 * ((2 ^ 53 + 2 * (count + 1)) * (10 * exact)) := Nat.mul_assoc ..

theorem tensUnits_succ_le (count : Nat) : tensUnits (count + 1) ≤ 16 * tensUnits count := by
  have step := (tensUnits_step count).2
  omega

/-- No product in use is off by as much as a tenth of the power. -/
theorem tensUnits_bounds (few : count < 2 ^ 40) :
    9 * (10 ^ count * oneUnits) ≤ tensUnits (count + 1) ∧
      tensUnits (count + 1) ≤ 11 * (10 ^ count * oneUnits) := by
  obtain ⟨lower, higher⟩ := @tensUnits_error (count + 1) (by omega)
  rw [pow_succ_mul] at lower higher
  generalize 10 ^ count * oneUnits = exact at lower higher ⊢
  have most : (2 ^ 53 - 2 ^ 40) * (10 * exact) ≤ (2 ^ 53 - (count + 1)) * (10 * exact) :=
    Nat.mul_le_mul_right _ (by omega)
  have least : (2 ^ 53 + 2 * (count + 1)) * (10 * exact) ≤ (2 ^ 53 + 2 ^ 41) * (10 * exact) :=
    Nat.mul_le_mul_right _ (by omega)
  omega

theorem tensUnits_lt_overflowUnits (finite : count < infiniteTens) :
    tensUnits count < overflowUnits := by
  have last := (@tensUnits_bounds 307 (by decide)).2
  have below : tensUnits count ≤ tensUnits (307 + 1) := tensUnits_mono (Nat.le_of_lt_succ finite)
  exact (below.trans last).trans_lt overflowUnits_bounds.1

theorem tens_eq_finite (finite : count < infiniteTens) :
    tens count = .finite false (tensUnits count) := by
  induction count with
  | zero => rw [tens, tensUnits_zero, one]
  | succ count ih =>
      have small := tensUnits_lt_overflowUnits finite
      rw [tensUnits_succ] at small
      rw [tens_succ, ih (Nat.lt_of_succ_lt finite), ten, finite_mul, round, if_pos small,
        tensUnits_succ]

theorem tens_infiniteTens : tens infiniteTens = .infinity false := by
  have last : tens 308 = .finite false (tensUnits 308) := tens_eq_finite (by decide)
  have large : ¬ tensUnits (308 + 1) < overflowUnits := by
    have least := (@tensUnits_bounds 308 (by decide)).1
    exact (overflowUnits_bounds.2.2.trans least).not_gt
  rw [tensUnits_succ] at large
  have product : tens infiniteTens = tens 308 * ten := tens_succ 308
  rw [product, last, ten, finite_mul, round, if_neg large]

theorem powerOfTen_natCast (finite : count < infiniteTens) : powerOfTen count = tens count := by
  have nonneg : ¬ (count : Int) < 0 := by omega
  rw [powerOfTen, if_neg nonneg, Int.natAbs_natCast, Nat.min_eq_left finite.le]

section Representable

theorem representable_zero : Representable 0 := representable_of_small (Nat.zero_le _)

theorem representable_oneUnits : Representable oneUnits :=
  tensUnits_zero ▸ representable_tensUnits 0

end Representable

theorem within_one : one.Within oneUnits oneUnits := ⟨oneUnits, rfl, le_rfl, le_rfl⟩

/-- The reciprocal of a product is at most one, and zero if the product is infinite. -/
theorem within_powerOfTen_neg (count : Nat) :
    (powerOfTen (-(count : Int))).Within 0 oneUnits := by
  rw [powerOfTen, Int.natAbs_neg, Int.natAbs_natCast]
  rcases Nat.lt_or_ge count infiniteTens with finite | infinite
  · rw [Nat.min_eq_left finite.le, tens_eq_finite finite]
    have least := oneUnits_le_tensUnits count
    split
    · exact within_one.div representable_zero representable_oneUnits oneUnits_lt_overflowUnits
        ⟨_, rfl, le_rfl, le_rfl⟩ (oneUnits_pos.trans_le least) (by omega)
        (Nat.mul_le_mul_left oneUnits least)
    · have none : count = 0 := by omega
      rw [none, tensUnits_zero]
      exact within_one.mono (Nat.zero_le _) le_rfl
  · have negative : -(count : Int) < 0 := by
      rw [infiniteTens] at infinite
      omega
    rw [Nat.min_eq_right infinite, tens_infiniteTens, if_pos negative]
    exact ⟨0, rfl, le_rfl, Nat.zero_le _⟩

end Products

section Scaling

/-- The units of the value nearest to 10^200. -/
def scaleUnits : Nat := roundUnits (10 ^ 200 * oneUnits) 1

/-- The units of the value nearest to 10^-200. -/
def smallestUnits : Nat := roundUnits (1 * oneUnits) (10 ^ 200)

/-- Every positive number has at least so many units once it is scaled. -/
def tinyUnits : Nat := 2 ^ 664

/-- How the constants of scaling compare. The two values are nearly inverse to each other, and what
either of them leaves below one takes 201 or 124 tens to get there. -/
structure ScalingBounds : Prop where
  scale_least : 9 * (10 ^ 199 * oneUnits) ≤ scaleUnits
  scale_most : scaleUnits ≤ 11 * (10 ^ 199 * oneUnits)
  product_least : oneUnits * oneUnits ≤ 2 * (smallestUnits * scaleUnits)
  product_most : smallestUnits * scaleUnits ≤ 2 * (oneUnits * oneUnits)
  smallest_pos : 0 < smallestUnits
  smallest_lt : smallestUnits < oneUnits
  smallest_reaches : oneUnits * oneUnits ≤ smallestUnits * (9 * (10 ^ 200 * oneUnits))
  tiny_le : tinyUnits * oneUnits ≤ scaleUnits
  tiny_reaches : oneUnits * oneUnits ≤ tinyUnits * (9 * (10 ^ 123 * oneUnits))

theorem scalingBounds : ScalingBounds := by
  have bounds : (9 * (10 ^ 199 * oneUnits) ≤ scaleUnits ∧ scaleUnits ≤ 11 * (10 ^ 199 * oneUnits)) ∧
      (oneUnits * oneUnits ≤ 2 * (smallestUnits * scaleUnits) ∧
        smallestUnits * scaleUnits ≤ 2 * (oneUnits * oneUnits)) ∧
      (0 < smallestUnits ∧ smallestUnits < oneUnits ∧
        oneUnits * oneUnits ≤ smallestUnits * (9 * (10 ^ 200 * oneUnits))) ∧
      tinyUnits * oneUnits ≤ scaleUnits ∧
        oneUnits * oneUnits ≤ tinyUnits * (9 * (10 ^ 123 * oneUnits)) := by
    decide +kernel
  obtain ⟨⟨least, most⟩, ⟨productLeast, productMost⟩, ⟨positive, less, reaches⟩, tiny, enough⟩ := bounds
  exact ⟨least, most, productLeast, productMost, positive, less, reaches, tiny, enough⟩

theorem scale_eq_finite : scale = .finite false scaleUnits := by
  have small : scaleUnits < overflowUnits := by
    have power := @pow_mul_mono 199 307 (by decide)
    exact (scalingBounds.scale_most.trans (Nat.mul_le_mul_left 11 power)).trans_lt
      overflowUnits_bounds.1
  rw [scaleUnits] at small
  rw [scale, ofRatio, round, if_pos small, scaleUnits]

theorem smallest_eq_finite : smallest = .finite false smallestUnits := by
  have small : smallestUnits < overflowUnits :=
    scalingBounds.smallest_lt.trans oneUnits_lt_overflowUnits
  rw [smallestUnits] at small
  rw [smallest, ofRatio, round, if_pos small, smallestUnits]

end Scaling

end BoundedPrintf.Binary64
