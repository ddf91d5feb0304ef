import Mathlib
import BoundedPrintf.Proofs.Binary64.Error
import BoundedPrintf.Proofs.Binary64.Normalizing

/-! Half a unit of a decimal place. It is a quotient and so not exact, and adding it to a value rounds
once more. At the units half a unit is exact, and there only the number right below a half is rounded
across a whole number. -/
namespace BoundedPrintf.Binary64

section Half

variable {places : Nat}

/-- A half is near half a unit of a place. The bound is that of the last places; the first are nearer. -/
structure HalfUnit (places half : Nat) : Prop where
  most : half ≤ halfUnits
  above : 2 ^ 53 * oneUnits ≤ 2 ^ 53 * (2 * (half * 10 ^ places)) + 10 * (10 ^ places * oneUnits)
  below : 2 ^ 53 * (2 * (half * 10 ^ places)) ≤ 2 ^ 53 * oneUnits + 10 * (10 ^ places * oneUnits)

theorem half_eq_finite : half = finite false halfUnits := by rw [half, halfUnits]

theorem halfUnit_zero :
    half * powerOfTen (-((0 : Nat) : Int)) = finite false halfUnits ∧ HalfUnit 0 halfUnits := by
  have unit : powerOfTen (-((0 : Nat) : Int)) = finite false oneUnits := rfl
  have small : halfUnits < overflowUnits := halfUnits_le.trans_lt oneUnits_lt_overflowUnits
  have product : halfUnits * oneUnits = halfUnits * oneUnits := rfl
  refine ⟨?_, le_rfl, ?_, ?_⟩
  · rw [unit, half_eq_finite]
    exact mul_exact product representable_halfUnits small
  all_goals
    rw [Nat.pow_zero, Nat.mul_one, two_mul_halfUnits]
    exact Nat.le_add_right _ _

/-- The reciprocal of a product of tens is off by a rounding more than the product. -/
theorem powerOfTen_neg_near (some : 0 < places) (few : places ≤ 29) :
    ∃ units, powerOfTen (-(places : Int)) = finite false units ∧ units ≤ oneUnits ∧ 2 ^ 53 ≤ units ∧
      2 ^ 53 * (oneUnits * oneUnits) ≤ 2 ^ 53 * (units * tensUnits places) + oneUnits * oneUnits ∧
      2 ^ 53 * (units * tensUnits places) ≤ 2 ^ 53 * (oneUnits * oneUnits) + oneUnits * oneUnits := by
  have power : 0 < tensUnits places := oneUnits_pos.trans_le (oneUnits_le_tensUnits places)
  have wide : 2 ^ 53 * tensUnits places ≤ oneUnits * oneUnits := by
    have least : 2 ^ 53 * (11 * 10 ^ 28) ≤ oneUnits := by decide +kernel
    have last : tensUnits 29 ≤ 11 * (10 ^ 28 * oneUnits) := (@tensUnits_bounds 28 (by decide)).2
    calc 2 ^ 53 * tensUnits places
      _ ≤ 2 ^ 53 * tensUnits 29 := Nat.mul_le_mul_left _ (tensUnits_mono few)
      _ ≤ 2 ^ 53 * (11 * (10 ^ 28 * oneUnits)) := Nat.mul_le_mul_left _ last
      _ = 2 ^ 53 * (11 * 10 ^ 28) * oneUnits := by ring
      _ ≤ oneUnits * oneUnits := Nat.mul_le_mul_right _ least
  have most : roundUnits (oneUnits * oneUnits) (tensUnits places) ≤ oneUnits :=
    roundUnits_le power representable_oneUnits
      (Nat.mul_le_mul_left _ (oneUnits_le_tensUnits places))
  have enough : 2 ^ 53 ≤ roundUnits (oneUnits * oneUnits) (tensUnits places) :=
    le_roundUnits power (representable_two_pow 53) wide
  have value : powerOfTen (-(places : Int)) =
      finite false (roundUnits (oneUnits * oneUnits) (tensUnits places)) := by
    have negative : -(places : Int) < 0 := by omega
    have inside : places < infiniteTens := by
      rw [infiniteTens]
      omega
    rw [powerOfTen, Int.natAbs_neg, Int.natAbs_natCast, Nat.min_eq_left inside.le,
      tens_eq_finite inside, if_pos negative, one, finite_div power,
      round_eq_finite (most.trans_lt oneUnits_lt_overflowUnits)]
  have large : 2 ^ 52 * tensUnits places ≤ oneUnits * oneUnits := by omega
  obtain ⟨lower, higher⟩ := roundUnits_error power large
  generalize oneUnits * oneUnits = square at value most enough lower higher ⊢
  exact ⟨_, value, most, enough, by omega, by omega⟩

theorem halve_near {power : Nat} (enough : 2 ^ 53 ≤ power) :
    2 ^ 53 * power ≤ 2 ^ 53 * (2 * roundUnits (halfUnits * power) oneUnits) + power ∧
      2 ^ 53 * (2 * roundUnits (halfUnits * power) oneUnits) ≤ 2 ^ 53 * power + power := by
  have positive : 0 < halfUnits := by
    rw [halfUnits]
    exact Nat.two_pow_pos 1073
  have large : 2 ^ 52 * oneUnits ≤ halfUnits * power := by
    rw [← two_mul_halfUnits, Nat.mul_comm halfUnits, ← Nat.mul_assoc]
    exact Nat.mul_le_mul_right halfUnits enough
  obtain ⟨lower, higher⟩ := roundUnits_error oneUnits_pos large
  generalize roundUnits (halfUnits * power) oneUnits = half at lower higher ⊢
  have product : half * oneUnits = halfUnits * (2 * half) := by
    rw [← two_mul_halfUnits]
    ring
  rw [product] at lower higher
  generalize halfUnits = unit at positive lower higher
  have least : (2 ^ 53 - 1) * power ≤ 2 ^ 53 * (2 * half) := by
    apply Nat.le_of_mul_le_mul_left _ positive
    rwa [Nat.mul_left_comm, Nat.mul_left_comm unit (2 ^ 53)]
  have most : 2 ^ 53 * (2 * half) ≤ (2 ^ 53 + 1) * power := by
    apply Nat.le_of_mul_le_mul_left _ positive
    rwa [Nat.mul_left_comm, Nat.mul_left_comm unit (2 ^ 53 + 1)]
  omega

theorem halfUnit_pos (some : 0 < places) (few : places ≤ 29) :
    ∃ units, half * powerOfTen (-(places : Int)) = finite false units ∧ HalfUnit places units := by
  obtain ⟨power, value, atMost, enough, lower, higher⟩ := powerOfTen_neg_near some few
  have most : roundUnits (halfUnits * power) oneUnits ≤ halfUnits :=
    roundUnits_le oneUnits_pos representable_halfUnits (Nat.mul_le_mul_left _ atMost)
  have small : halfUnits < overflowUnits := halfUnits_le.trans_lt oneUnits_lt_overflowUnits
  have product : half * powerOfTen (-(places : Int)) =
      finite false (roundUnits (halfUnits * power) oneUnits) := by
    rw [value, half_eq_finite, finite_mul, round_eq_finite (most.trans_lt small)]
  obtain ⟨least, greatest⟩ := halve_near enough
  generalize roundUnits (halfUnits * power) oneUnits = half at most product least greatest
  -- Both roundings and that of the product of tens are relative, so they are compared at one product.
  obtain ⟨exactLeast, exactGreatest⟩ := tensUnits_near few (by decide) (2 * half)
  have scaledLeast := Nat.mul_le_mul_right (tensUnits places) least
  have scaledGreatest := Nat.mul_le_mul_right (tensUnits places) greatest
  have ten : 10 * (oneUnits * oneUnits) ≤ 10 ^ places * oneUnits * oneUnits := by
    have least : 10 ≤ 10 ^ places := Nat.le_self_pow some.ne' 10
    rw [← Nat.mul_assoc]
    exact Nat.mul_le_mul_right oneUnits (Nat.mul_le_mul_right oneUnits least)
  have parts : 2 * half * (10 ^ places * oneUnits) = 2 * (half * 10 ^ places) * oneUnits := by ring
  simp only [Nat.add_mul, Nat.mul_assoc (2 ^ 53)] at scaledLeast scaledGreatest
  rw [parts] at exactLeast exactGreatest
  refine ⟨half, product, most, ?_, ?_⟩
  · apply Nat.le_of_mul_le_mul_right _ oneUnits_pos
    rw [Nat.add_mul, Nat.mul_assoc (2 ^ 53), Nat.mul_assoc (2 ^ 53), Nat.mul_assoc 10]
    omega
  · apply Nat.le_of_mul_le_mul_right _ oneUnits_pos
    rw [Nat.add_mul, Nat.mul_assoc (2 ^ 53), Nat.mul_assoc (2 ^ 53), Nat.mul_assoc 10]
    omega

theorem exists_halfUnit (few : places ≤ 29) :
    ∃ units, half * powerOfTen (-(places : Int)) = finite false units ∧ HalfUnit places units := by
  cases places with
  | zero => exact ⟨halfUnits, halfUnit_zero⟩
  | succ before => exact halfUnit_pos (Nat.succ_pos before) few

theorem multiple_lt_overflowUnits {count : Nat} (few : count ≤ 2 ^ 53) :
    count * oneUnits < overflowUnits := by
  rw [oneUnits, overflowUnits]
  exact @mul_two_pow_lt count 54 1074 2098 (by omega) (by decide)

/-- Rounding at a place adds half a unit of it, with one more rounding. -/
theorem roundAt_eq_finite {units half : Nat} (small : units < 2 ^ 52 * oneUnits) (few : places ≤ 29)
    (product : Binary64.half * powerOfTen (-(places : Int)) = finite false half)
    (least : half ≤ halfUnits) :
    (finite false units).roundAt places = finite false (roundUnits (units + half) 1) ∧
      roundUnits (units + half) 1 ≤ (2 ^ 52 + 1) * oneUnits := by
  have limit : (2 ^ 52 + 1) * oneUnits < overflowUnits := multiple_lt_overflowUnits (by decide)
  have most : roundUnits (units + half) 1 ≤ (2 ^ 52 + 1) * oneUnits := by
    apply roundUnits_le Nat.one_pos (representable_mul_oneUnits (by decide))
    have one := halfUnits_le
    omega
  refine ⟨?_, most⟩
  rw [roundAt, wholeFrom_le_finite, decide_eq_false (Nat.not_le_of_lt small), if_neg Bool.false_ne_true,
    Nat.min_eq_left (by omega), product, finite_add, round_eq_finite (most.trans_lt limit)]

/-- The sign of a zero does not show after rounding. -/
theorem roundAt_negative_zero (few : places ≤ 29) :
    (finite true 0).roundAt places = (finite false 0).roundAt places := by
  obtain ⟨half, product, -⟩ := exists_halfUnit few
  have below (negative : Bool) : wholeFrom.le (finite negative 0) = false := by
    cases negative <;> decide +kernel
  have sum : finite true 0 + finite false half = finite false 0 + finite false half := by
    change add _ _ = add _ _
    rw [add, add, if_neg (by decide), if_pos rfl, if_neg (Nat.not_lt_zero _)]
    rcases Nat.eq_zero_or_pos half with rfl | some
    · decide +kernel
    · rw [if_pos some, Nat.sub_zero, Nat.zero_add]
  rw [roundAt, roundAt, below, below, if_neg Bool.false_ne_true, if_neg Bool.false_ne_true,
    Nat.min_eq_left (by omega), product, sum]

end Half

section Whole

/-- The number right below a half. -/
def belowHalf : Nat := (2 ^ 53 - 1) * 2 ^ 1020

theorem halfUnits_eq_mul : halfUnits = 2 ^ 53 * 2 ^ 1020 := by
  have exponent : 1073 = 53 + 1020 := rfl
  rw [halfUnits, exponent]
  exact Nat.pow_add 2 53 1020

variable {units places : Nat}

theorem two_pow_dvd_halfUnits (few : places ≤ 1073) : 2 ^ places ∣ halfUnits := by
  rw [halfUnits]
  exact @Nat.pow_dvd_pow places 1073 2 few

/-- A sum that has one binary digit more than its number lies between a whole number and the half behind
it, and both have few digits. -/
theorem add_half_carried (large : halfUnits ≤ units) (least : 1021 ≤ places) (most : places ≤ 1073)
    (next : units + 2 ^ places ≤ 2 ^ 53 * 2 ^ places)
    (carried : 2 ^ 53 * 2 ^ places < units + halfUnits) :
    roundUnits (units + halfUnits) 1 / oneUnits = (units + halfUnits) / oneUnits := by
  have two := two_mul_halfUnits
  have inner : places + 1 ≤ 1073 := by
    by_contra more
    have last : places = 1073 := by omega
    have same : 2 ^ places = halfUnits := by rw [halfUnits, last]
    rw [same] at next carried
    omega
  have double : 2 ^ 53 * 2 ^ places = 2 ^ 52 * 2 ^ (places + 1) := by
    rw [Nat.pow_succ]
    omega
  have start : Representable (2 ^ 53 * 2 ^ places) := (representable_of_small le_rfl).mul_two_pow places
  have behind : Representable (2 ^ 53 * 2 ^ places + halfUnits) := by
    apply @representable_of_dvd _ (places + 1)
    · apply Nat.dvd_add _ (two_pow_dvd_halfUnits inner)
      rw [double]
      exact Nat.dvd_mul_left ..
    · omega
  obtain ⟨whole, parts⟩ : oneUnits ∣ 2 ^ 53 * 2 ^ places := by
    rw [oneUnits, ← Nat.pow_add]
    exact @Nat.pow_dvd_pow 1074 (53 + places) 2 (by omega)
  have above := le_roundUnits Nat.one_pos start (by omega : _ ≤ units + halfUnits)
  have below := roundUnits_le Nat.one_pos behind (by omega : units + halfUnits ≤ _)
  rw [parts, Nat.mul_comm] at carried above below next
  have rounded : roundUnits (units + halfUnits) 1 / oneUnits = whole := by
    apply Nat.div_eq_of_lt_le above
    rw [Nat.succ_mul]
    omega
  have exact : (units + halfUnits) / oneUnits = whole := by
    apply Nat.div_eq_of_lt_le carried.le
    rw [Nat.succ_mul]
    omega
  rw [rounded, exact]

variable (representable : Representable units)
include representable

/-- Below 2^53 steps a number is a number of steps, or half as large. -/
theorem Representable.le_before_last (small : units < 2 ^ 53 * 2 ^ places)
    (other : units ≠ (2 ^ 53 - 1) * 2 ^ places) : units ≤ (2 ^ 53 - 2) * 2 ^ places := by
  rcases Nat.lt_or_ge units (2 ^ 52 * 2 ^ places) with below | reached
  · omega
  · have step : spacing (2 ^ 52 * 2 ^ places) = 2 ^ places := by
      rw [spacing, ← Nat.pow_add, Nat.log2_two_pow, Nat.add_sub_cancel_left]
    obtain ⟨count, parts⟩ := representable.spacing_dvd reached
    rw [step, Nat.mul_comm] at parts
    rw [parts] at small other ⊢
    have less : count < 2 ^ 53 := Nat.lt_of_mul_lt_mul_right small
    have last : count ≠ 2 ^ 53 - 1 := fun same => other (by rw [same])
    exact Nat.mul_le_mul_right _ (by omega)

/-- A number below a half stays below one, unless it is the last of them. -/
theorem roundUnits_add_half_lt (small : units < halfUnits) (other : units ≠ belowHalf) :
    roundUnits (units + halfUnits) 1 < oneUnits := by
  have two := two_mul_halfUnits
  have positive := Nat.two_pow_pos 1020
  have few := ((@representable_of_small (2 ^ 53 - 1) (by decide)).mul_two_pow 1020).mul_two_pow 1
  rw [halfUnits_eq_mul] at small two ⊢
  rw [belowHalf] at other
  have before := representable.le_before_last small other
  generalize 2 ^ 1020 = step at *
  have most := roundUnits_le Nat.one_pos few (by omega : units + 2 ^ 53 * step ≤ _)
  omega

/-- The step of a number between a half and 2^52. -/
theorem Representable.exists_step (large : halfUnits ≤ units) (small : units < 2 ^ 52 * oneUnits) :
    ∃ places, 1021 ≤ places ∧ places ≤ 1073 ∧ 2 ^ places ∣ units ∧
      units + 2 ^ places ≤ 2 ^ 53 * 2 ^ places := by
  obtain ⟨above, wide⟩ := spacing_bounds units
  have own : spacing units ∣ units := representable.spacing_dvd le_rfl
  rw [spacing] at above wide own
  refine ⟨_, ?_, ?_, own, ?_⟩
  all_goals generalize units.log2 - 52 = places at above wide own ⊢
  · have reached : halfUnits < 2 ^ (53 + places) := by
      rw [Nat.pow_add]
      omega
    rw [halfUnits] at reached
    have less := (@Nat.pow_lt_pow_iff_right 2 1073 (53 + places) (by decide)).mp reached
    omega
  · rcases wide with one | wide
    · have none : places = 0 := (Nat.pow_eq_one.mp one).resolve_left (by decide)
      omega
    · have less : 2 ^ places < oneUnits := by omega
      rw [oneUnits] at less
      exact Nat.le_of_lt_succ ((@Nat.pow_lt_pow_iff_right 2 places 1074 (by decide)).mp less)
  · obtain ⟨count, parts⟩ := own
    rw [parts, Nat.mul_comm] at above ⊢
    rw [← Nat.succ_mul]
    exact Nat.mul_le_mul_right _ (Nat.lt_of_mul_lt_mul_right above)

/-- From a half on no whole number is reached by rounding. -/
theorem roundUnits_add_half_div (large : halfUnits ≤ units) (small : units < 2 ^ 52 * oneUnits) :
    roundUnits (units + halfUnits) 1 / oneUnits = (units + halfUnits) / oneUnits := by
  obtain ⟨places, least, most, own, next⟩ := representable.exists_step large small
  rcases Nat.lt_or_ge (2 ^ 53 * 2 ^ places) (units + halfUnits) with carried | kept
  · exact add_half_carried large least most next carried
  · have steps : 2 ^ places ∣ units + halfUnits := Nat.dvd_add own (two_pow_dvd_halfUnits most)
    rw [roundUnits_one (representable_of_dvd steps kept)]

end Whole

end BoundedPrintf.Binary64
