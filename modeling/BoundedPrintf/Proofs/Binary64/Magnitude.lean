import Mathlib
import BoundedPrintf.Proofs.Binary64.Powers

/-! Decimal magnitudes. From one on a magnitude counts the tens whose product does not exceed the
value; below one it counts the tens that take the value up to one. -/
namespace BoundedPrintf.Binary64

section Counting

/-- How many numbers in a row satisfy a test, up to a limit. -/
def countWhile (test : Nat → Bool) : Nat → Nat → Nat
  | 0, _ => 0
  | limit + 1, start => if test start then countWhile test limit (start + 1) + 1 else 0

theorem countWhile_spec (test : Nat → Bool) (limit start : Nat) :
    (∀ before < countWhile test limit start, test (start + before) = true) ∧
      (countWhile test limit start < limit →
        test (start + countWhile test limit start) = false) := by
  induction limit generalizing start with
  | zero => exact ⟨nofun, nofun⟩
  | succ limit ih =>
      obtain ⟨passed, stopped⟩ := ih (start + 1)
      rw [countWhile]
      cases first : test start with
      | false => exact ⟨nofun, fun _ => first⟩
      | true =>
          simp only [if_true]
          generalize countWhile test limit (start + 1) = count at passed stopped ⊢
          constructor
          · intro before inside
            cases before with
            | zero => exact first
            | succ before =>
                have shifted := passed before (Nat.lt_of_succ_lt_succ inside)
                rwa [Nat.add_right_comm] at shifted
          · intro inside
            have shifted := stopped (Nat.lt_of_succ_lt_succ inside)
            rwa [Nat.add_right_comm] at shifted

theorem stepsUp_tens (value : Binary64) (limit start : Nat) :
    stepsUp value limit (tens start) =
      countWhile (fun count => (tens (count + 1)).le value) limit start := by
  induction limit generalizing start with
  | zero => rfl
  | succ limit ih => rw [stepsUp, countWhile, ← tens_succ, ih]

theorem stepsDown_tens (value : Binary64) (limit start : Nat) :
    stepsDown value limit (tens start) =
      countWhile (fun count => (value * tens count).lt one) limit start := by
  induction limit generalizing start with
  | zero => rfl
  | succ limit ih => rw [stepsDown, countWhile, ← tens_succ, ih]

theorem stepsUp_spec (value : Binary64) (limit : Nat) :
    (∀ before < stepsUp value limit one, (tens (before + 1)).le value = true) ∧
      (stepsUp value limit one < limit →
        (tens (stepsUp value limit one + 1)).le value = false) := by
  have counted := countWhile_spec (fun count => (tens (count + 1)).le value) limit 0
  rw [← stepsUp_tens] at counted
  simp only [Nat.zero_add] at counted
  exact counted

theorem stepsDown_spec (value : Binary64) (limit : Nat) :
    (∀ before < stepsDown value limit one, (value * tens before).lt one = true) ∧
      (stepsDown value limit one < limit →
        (value * tens (stepsDown value limit one)).lt one = false) := by
  have counted := countWhile_spec (fun count => (value * tens count).lt one) limit 0
  rw [← stepsDown_tens] at counted
  simp only [Nat.zero_add] at counted
  exact counted

end Counting

section Signs

variable {units : Nat}

theorem isNegative_finite (units : Nat) : (finite false units).isNegative = false := by
  rw [isNegative, zero, lt_finite]
  exact decide_eq_false (Nat.not_lt_zero units)

theorem isPositive_finite : (finite false units).isPositive = decide (0 < units) := by
  rw [isPositive, zero, lt_finite]

theorem isZero_finite (positive : 0 < units) : (finite false units).isZero = false := by
  cases units with
  | zero => cases positive
  | succ units => rfl

theorem one_le_finite : one.le (finite false units) = decide (oneUnits ≤ units) := le_finite

theorem finite_lt_one : (finite false units).lt one = decide (units < oneUnits) := lt_finite

end Signs

section Products

variable {numerator denominator units most : Nat}

/-- A result below one was below one before it was rounded. -/
theorem lt_of_round_lt_one (positive : 0 < denominator)
    (less : (round false numerator denominator).lt one = true) :
    numerator < oneUnits * denominator := by
  by_contra enough
  have least := le_roundUnits positive representable_oneUnits (Nat.le_of_not_lt enough)
  rw [round] at less
  split at less
  · rw [finite_lt_one, decide_eq_true_eq] at less
    omega
  · exact absurd less Bool.false_ne_true

theorem Within.of_not_lt_one {value : Binary64} {least : Nat} (within : value.Within least most)
    (reached : value.lt one = false) : value.Within oneUnits most := by
  obtain ⟨units, rfl, -, high⟩ := within
  rw [finite_lt_one, decide_eq_false_iff_not] at reached
  exact ⟨units, rfl, Nat.le_of_not_lt reached, high⟩

theorem not_lt_one_of_within {value : Binary64} (within : value.Within oneUnits most) :
    value.lt one = false := by
  obtain ⟨units, rfl, low, -⟩ := within
  rw [finite_lt_one]
  exact decide_eq_false (Nat.not_lt_of_le low)

theorem mul_tens {count : Nat} (finite : count < infiniteTens) :
    .finite false units * tens count = round false (units * tensUnits count) oneUnits := by
  rw [tens_eq_finite finite, finite_mul]

theorem mul_scale : .finite false units * scale = round false (units * scaleUnits) oneUnits := by
  rw [scale_eq_finite, finite_mul]

/-- The first product of tens that takes a number up to one takes it not far above. -/
theorem within_first_product {count : Nat} (finite : count + 1 < infiniteTens)
    (below : (.finite false units * tens count).lt one = true)
    (reached : (.finite false units * tens (count + 1)).lt one = false) :
    (.finite false units * tens (count + 1)).Within oneUnits (16 * oneUnits) := by
  rw [mul_tens (Nat.lt_of_succ_lt finite)] at below
  have less := lt_of_round_lt_one oneUnits_pos below
  have more : units * tensUnits (count + 1) ≤ 16 * oneUnits * oneUnits := by
    calc units * tensUnits (count + 1)
      _ ≤ units * (16 * tensUnits count) := Nat.mul_le_mul_left units (tensUnits_succ_le count)
      _ = 16 * (units * tensUnits count) := by ring
      _ ≤ 16 * (oneUnits * oneUnits) := Nat.mul_le_mul_left 16 less.le
      _ = 16 * oneUnits * oneUnits := (Nat.mul_assoc ..).symm
  rw [mul_tens finite] at reached ⊢
  have upper : (round false (units * tensUnits (count + 1)) oneUnits).Within 0 (16 * oneUnits) :=
    within_round representable_zero (representable_mul_oneUnits (by decide))
      (small_multiple le_rfl) oneUnits_pos (by omega) more
  exact upper.of_not_lt_one reached

end Products

section Large

variable {units : Nat}

/-- The magnitude of a number from one on. -/
theorem magnitude_of_large (large : oneUnits ≤ units) : ∃ count < infiniteTens,
    (finite false units).magnitude = count ∧ tensUnits count ≤ units ∧
      (count + 1 = infiniteTens ∨ units < tensUnits (count + 1)) := by
  have positive : 0 < units := oneUnits_pos.trans_le large
  have magnitude : (finite false units).magnitude =
      stepsUp (finite false units) infiniteTens one := by
    have finite : (finite false units).isFinite = true := rfl
    rw [Binary64.magnitude, isNegative_finite]
    simp only [Bool.false_eq_true, if_false, isZero_finite positive, finite, Bool.not_true,
      Bool.or_self, one_le_finite, large, decide_true, if_true]
  obtain ⟨passed, stopped⟩ := stepsUp_spec (finite false units) infiniteTens
  rw [magnitude]
  generalize stepsUp (finite false units) infiniteTens one = count at passed stopped ⊢
  -- The product of all tens is infinite, so it exceeds every number.
  have few : count < infiniteTens := by
    by_contra many
    have exceeded := passed 308 (Nat.le_of_not_lt many)
    have infinite : tens (308 + 1) = .infinity false := tens_infiniteTens
    rw [infinite] at exceeded
    exact absurd exceeded Bool.false_ne_true
  refine ⟨count, few, rfl, ?_, ?_⟩
  · cases count with
    | zero => exact tensUnits_zero.le.trans large
    | succ before =>
        have reached := passed before (Nat.lt_succ_self before)
        rwa [tens_eq_finite few, le_finite, decide_eq_true_eq] at reached
  · rcases Nat.lt_or_ge (count + 1) infiniteTens with finite | last
    · have exceeds := stopped few
      rw [tens_eq_finite finite, le_finite, decide_eq_false_iff_not] at exceeds
      exact .inr (Nat.lt_of_not_le exceeds)
    · exact .inl (Nat.le_antisymm few last)

/-- The magnitude of a number below a power that is not the last. -/
theorem magnitude_below {limit : Nat} (large : oneUnits ≤ units) (finite : limit + 1 < infiniteTens)
    (below : units < tensUnits (limit + 1)) : ∃ count ≤ limit,
    (Binary64.finite false units).magnitude = count ∧ tensUnits count ≤ units ∧
      units < tensUnits (count + 1) := by
  obtain ⟨count, -, magnitude, reached, last⟩ := magnitude_of_large large
  have few : count ≤ limit := by
    by_contra more
    have above : tensUnits (limit + 1) ≤ tensUnits count := tensUnits_mono (Nat.lt_of_not_le more)
    omega
  exact ⟨count, few, magnitude, reached, last.resolve_left (by omega)⟩

end Large

section Small

variable {units : Nat}

/-- The tens that take a number up to one are no more than any tens that do. -/
theorem stepsDown_of_reached {value : Binary64} {reach : Nat} (finite : reach < infiniteTens)
    (reached : (value * tens reach).lt one = false) :
    stepsDown value infiniteTens one ≤ reach ∧
      (∀ before < stepsDown value infiniteTens one, (value * tens before).lt one = true) ∧
      (value * tens (stepsDown value infiniteTens one)).lt one = false := by
  obtain ⟨below, stopped⟩ := stepsDown_spec value infiniteTens
  have few : stepsDown value infiniteTens one ≤ reach := by
    by_contra more
    have less := below reach (Nat.lt_of_not_le more)
    rw [reached] at less
    exact absurd less Bool.false_ne_true
  exact ⟨few, below, stopped (few.trans_lt finite)⟩

/-- The first product of tens that reaches one, unless the number itself does. -/
theorem within_stepsDown {reach : Nat} (finite : reach < infiniteTens)
    (reached : (.finite false units * tens reach).lt one = false)
    (some : stepsDown (.finite false units) infiniteTens one ≠ 0) :
    (.finite false units * tens (stepsDown (.finite false units) infiniteTens one)).Within
      oneUnits (16 * oneUnits) := by
  obtain ⟨few, below, stopped⟩ := stepsDown_of_reached finite reached
  generalize stepsDown (.finite false units) infiniteTens one = count at some few below stopped ⊢
  obtain ⟨before, rfl⟩ := Nat.exists_eq_succ_of_ne_zero some
  exact within_first_product (few.trans_lt finite) (below before (Nat.lt_succ_self before)) stopped

section Below

variable (positive : 0 < units) (small : units < oneUnits)
include positive small

theorem magnitude_of_small : (finite false units).magnitude =
    if units < smallestUnits then
      -200 - (stepsDown (.finite false units * scale) infiniteTens one : Int)
    else -(stepsDown (.finite false units) infiniteTens one : Int) := by
  have finite : (finite false units).isFinite = true := rfl
  have below : ¬ oneUnits ≤ units := Nat.not_le_of_lt small
  rw [Binary64.magnitude, isNegative_finite]
  simp only [Bool.false_eq_true, if_false, isZero_finite positive, finite, Bool.not_true,
    Bool.or_self, one_le_finite, below, decide_false, smallest_eq_finite, lt_finite,
    decide_eq_true_eq]

end Below

end Small

end BoundedPrintf.Binary64
