import Mathlib
import BoundedPrintf.Proofs.Binary64.Magnitude

/-! First guesses of a mantissa. The magnitude of a value is found with products of tens and the mantissa
with a quotient or in chunks of 10^200, all of them rounded. Whatever the roundings do, the mantissa
lies between a half and sixteen. -/
namespace BoundedPrintf.Binary64

/-- The units of a half. -/
def halfUnits : Nat := 2 ^ 1073

/-- The mantissa and the exponent that the magnitude of a value gives. -/
def guess (value : Binary64) : Binary64 × Int :=
  (if 0 ≤ value.magnitude then value / powerOfTen value.magnitude
    else value.scaleUp value.magnitude.natAbs, value.magnitude)

/-- A guess of mantissa and exponent that is nearly right. At the ends of the exponents it is not
off to the outside. -/
structure Near (top : Nat) (guess : Binary64 × Int) : Prop where
  mantissa : guess.1.Within halfUnits (16 * oneUnits)
  least : -324 ≤ guess.2
  most : guess.2 ≤ 308
  atLeast : guess.2 = -324 → guess.1.Within oneUnits (16 * oneUnits)
  atMost : guess.2 = 308 → guess.1.Within oneUnits (top * oneUnits)

section Constants

theorem two_mul_two_pow (places : Nat) : 2 * 2 ^ places = 2 ^ (places + 1) := Nat.pow_succ'.symm

theorem two_mul_halfUnits : 2 * halfUnits = oneUnits := by
  have next : 1074 = 1073 + 1 := rfl
  rw [halfUnits, oneUnits, next]
  exact two_mul_two_pow 1073

theorem halfUnits_le : halfUnits ≤ oneUnits := by
  rw [← two_mul_halfUnits]
  exact Nat.le_mul_of_pos_left halfUnits (by decide)

theorem representable_mul_halfUnits {count : Nat} (few : count ≤ 2 ^ 53) :
    Representable (count * halfUnits) := by
  rw [halfUnits]
  exact (representable_of_small few).mul_two_pow 1073

theorem representable_halfUnits : Representable halfUnits := by
  rw [halfUnits]
  exact representable_two_pow 1073

theorem representable_tinyUnits : Representable tinyUnits := by
  rw [tinyUnits]
  exact representable_two_pow 664

theorem halfUnits_mul_le {product : Nat} (enough : oneUnits * oneUnits ≤ 2 * product) :
    halfUnits * oneUnits ≤ product := by
  apply Nat.le_of_mul_le_mul_left _ Nat.two_pos
  rwa [← Nat.mul_assoc, two_mul_halfUnits]

/-- Ten times a half exceeds one. -/
theorem oneUnits_mul_le : oneUnits * oneUnits ≤ halfUnits * (10 * oneUnits) := by
  calc oneUnits * oneUnits
    _ ≤ 5 * (oneUnits * oneUnits) := Nat.le_mul_of_pos_left _ (by decide)
    _ = 5 * (2 * halfUnits * oneUnits) := by rw [two_mul_halfUnits]
    _ = halfUnits * (10 * oneUnits) := by ring

theorem le_mul_halfUnits {count product : Nat} (few : 2 * product ≤ count * (oneUnits * oneUnits)) :
    product ≤ count * halfUnits * oneUnits := by
  apply Nat.le_of_mul_le_mul_left _ Nat.two_pos
  calc 2 * product
    _ ≤ count * (oneUnits * oneUnits) := few
    _ = 2 * (count * halfUnits * oneUnits) := by rw [← two_mul_halfUnits]; ring

end Constants

section Scaling

variable {value : Binary64} {count : Nat}

theorem scaleUp_of_le (few : count ≤ 200) : value.scaleUp count = value * tens count := by
  have finite : count < infiniteTens := by
    rw [infiniteTens]
    omega
  rw [scaleUp, if_neg (Nat.not_lt_of_le few), powerOfTen_natCast finite]

theorem scaleUp_of_lt (some : count ≠ 0) (few : count ≤ 200) :
    value.scaleUp (200 + count) = value * scale * tens count := by
  rw [scaleUp, if_pos (by omega), Nat.add_sub_cancel_left, scaleUp_of_le few]

end Scaling

section Guessing

variable {units : Nat}

/-- A quotient of numbers that are no more than a small factor apart. -/
theorem within_quotient {divisor most : Nat} (positive : 0 < divisor) (few : most ≤ 16)
    (reached : divisor ≤ units) (below : units ≤ most * divisor) :
    (finite false units / finite false divisor).Within oneUnits (most * oneUnits) := by
  have lower : oneUnits * divisor ≤ units * oneUnits := by
    rw [Nat.mul_comm]
    exact Nat.mul_le_mul_right oneUnits reached
  have upper : units * oneUnits ≤ most * oneUnits * divisor := by
    rw [Nat.mul_right_comm]
    exact Nat.mul_le_mul_right oneUnits below
  exact Within.div representable_oneUnits (representable_mul_oneUnits (by omega))
    (small_multiple few) ⟨units, rfl, le_rfl, le_rfl⟩ ⟨divisor, rfl, le_rfl, le_rfl⟩ positive
    lower upper

/-- Above the last finite product there is less than another factor of two. -/
theorem le_last_product (finite : units < overflowUnits) : units ≤ 2 * tensUnits 308 := by
  have least : 9 * (10 ^ 307 * oneUnits) ≤ tensUnits 308 := (@tensUnits_bounds 307 (by decide)).1
  have most := overflowUnits_bounds.2.1
  generalize 10 ^ 307 * oneUnits = power at least most
  omega

theorem near_of_large (large : oneUnits ≤ units) (finite : units < overflowUnits) :
    Near 2 (guess (.finite false units)) := by
  obtain ⟨count, few, magnitude, reached, last⟩ := magnitude_of_large large
  have positive : 0 < tensUnits count := oneUnits_pos.trans_le (oneUnits_le_tensUnits count)
  have guessed : guess (.finite false units) =
      (.finite false units / .finite false (tensUnits count), (count : Int)) := by
    rw [guess, magnitude, if_pos (Int.natCast_nonneg count), powerOfTen_natCast few,
      tens_eq_finite few]
  have wide : units ≤ 16 * tensUnits count := by
    rcases last with final | below
    · have same : count = 308 := Nat.succ.inj final
      have twice := le_last_product finite
      rw [same]
      omega
    · exact below.le.trans (tensUnits_succ_le count)
  have mantissa := within_quotient positive le_rfl reached wide
  rw [guessed]
  refine ⟨mantissa.mono halfUnits_le le_rfl, ?_, ?_, ?_, ?_⟩
  · exact (by decide : (-324 : Int) ≤ 0).trans (Int.natCast_nonneg count)
  · exact Int.ofNat_le.mpr (Nat.le_of_lt_succ few)
  · intro negative
    dsimp only at negative
    omega
  · intro final
    have same : count = 308 := Int.ofNat_inj.mp final
    have twice := le_last_product finite
    rw [← same] at twice
    exact within_quotient positive (by decide) reached twice

/-- Exact bounds of a small number times the product of 200 tens, which stands for the scale. -/
theorem mul_tens_bounds (units : Nat) :
    9 * (units * scaleUnits) ≤ 11 * (units * tensUnits 200) ∧
      9 * (units * tensUnits 200) ≤ 11 * (units * scaleUnits) := by
  have least := scalingBounds.scale_least
  have most := scalingBounds.scale_most
  have product : 9 * (10 ^ 199 * oneUnits) ≤ tensUnits 200 ∧
      tensUnits 200 ≤ 11 * (10 ^ 199 * oneUnits) := @tensUnits_bounds 199 (by decide)
  generalize 10 ^ 199 * oneUnits = power at least most product
  obtain ⟨lower, higher⟩ := product
  constructor
  · calc 9 * (units * scaleUnits)
      _ = units * (9 * scaleUnits) := Nat.mul_left_comm ..
      _ ≤ units * (11 * tensUnits 200) := Nat.mul_le_mul_left units (by omega)
      _ = 11 * (units * tensUnits 200) := Nat.mul_left_comm ..
  · calc 9 * (units * tensUnits 200)
      _ = units * (9 * tensUnits 200) := Nat.mul_left_comm ..
      _ ≤ units * (11 * scaleUnits) := Nat.mul_le_mul_left units (by omega)
      _ = 11 * (units * scaleUnits) := Nat.mul_left_comm ..

theorem tens_one : tens 1 = ten := by
  rw [tens_eq_finite (by decide), tensUnits_one, ten]

theorem mul_tens_zero (representable : Representable units) (finite : units < overflowUnits) :
    .finite false units * tens 0 = .finite false units := by
  rw [mul_tens (by decide), tensUnits_zero, round, roundUnits_mul oneUnits_pos representable, if_pos finite]

theorem round_not_lt_one {numerator denominator : Nat} (positive : 0 < denominator)
    (enough : oneUnits * denominator ≤ numerator) :
    (round false numerator denominator).lt one = false := by
  cases less : (round false numerator denominator).lt one with
  | false => rfl
  | true => exact absurd (lt_of_round_lt_one positive less) enough.not_gt

/-- One place more than the inverse of the least number takes every number from it on up to one. -/
theorem reaches_one_of_enough (least : smallestUnits ≤ units) :
    (.finite false units * tens 201).lt one = false := by
  have power : 9 * (10 ^ 200 * oneUnits) ≤ tensUnits 201 := (@tensUnits_bounds 200 (by decide)).1
  have room := scalingBounds.smallest_reaches
  rw [mul_tens (by decide)]
  exact round_not_lt_one oneUnits_pos (room.trans (Nat.mul_le_mul least power))

/-- A number that has been scaled needs 124 more places at most. -/
theorem reaches_one_of_scaled (least : tinyUnits ≤ units) :
    (.finite false units * tens 124).lt one = false := by
  have power : 9 * (10 ^ 123 * oneUnits) ≤ tensUnits 124 := (@tensUnits_bounds 123 (by decide)).1
  have room := scalingBounds.tiny_reaches
  rw [mul_tens (by decide)]
  exact round_not_lt_one oneUnits_pos (room.trans (Nat.mul_le_mul least power))

/-- A number below one needs at least one ten. -/
theorem not_reached_at_once (representable : Representable units) (small : units < oneUnits) :
    (.finite false units * tens 0).lt one ≠ false := by
  rw [mul_tens_zero representable (small.trans oneUnits_lt_overflowUnits), finite_lt_one]
  simpa only [ne_eq, decide_eq_false_iff_not, not_not] using small

/-- Away from the ends of the exponents any mantissa in the range will do. -/
theorem near_of_inside {top : Nat} {mantissa : Binary64} {exponent : Int}
    (near : mantissa.Within halfUnits (16 * oneUnits)) (least : -324 < exponent)
    (most : exponent < 308) : Near top (mantissa, exponent) :=
  ⟨near, least.le, most.le, fun first => absurd first least.ne', fun last => absurd last most.ne⟩

/-- A guess below the exponent zero whose mantissa reaches one. -/
theorem near_of_reached {mantissa : Binary64} {count : Nat}
    (reached : mantissa.Within oneUnits (16 * oneUnits)) (few : count ≤ 324) :
    Near 2 (mantissa, -(count : Int)) := by
  refine ⟨reached.mono halfUnits_le le_rfl, ?_, ?_, fun _ => reached, ?_⟩
  all_goals
    dsimp only
    omega

theorem le_of_round_not_lt_one {numerator denominator : Nat}
    (reached : (round false numerator denominator).lt one = false) :
    oneUnits ≤ roundUnits numerator denominator := by
  rw [round] at reached
  split at reached
  · rw [finite_lt_one, decide_eq_false_iff_not] at reached
    exact Nat.le_of_not_lt reached
  · next large => exact oneUnits_lt_overflowUnits.le.trans (Nat.le_of_not_lt large)

theorem guess_of_neg {value : Binary64} {count : Nat} (magnitude : value.magnitude = -(count : Int))
    (some : count ≠ 0) : guess value = (value.scaleUp count, -(count : Int)) := by
  have below : ¬ 0 ≤ -(count : Int) := by omega
  rw [guess, magnitude, if_neg below, Int.natAbs_neg, Int.natAbs_natCast]

/-- Past the chunk of 10^200 the product is taken in two roundings. -/
theorem within_scaleUp_succ (least : smallestUnits ≤ units)
    (before : (.finite false units * tens 200).lt one = true) :
    (scaleUp (.finite false units) 201).Within oneUnits (16 * oneUnits) := by
  rw [mul_tens (by decide)] at before
  have less := lt_of_round_lt_one oneUnits_pos before
  have scaled := (mul_tens_bounds units).1
  have enough : oneUnits * oneUnits ≤ 2 * (units * scaleUnits) :=
    scalingBounds.product_least.trans (Nat.mul_le_mul_left 2 (Nat.mul_le_mul_right _ least))
  have few : 2 * (units * scaleUnits) ≤ 3 * (oneUnits * oneUnits) := by
    generalize oneUnits * oneUnits = square at less
    omega
  have small : 3 * halfUnits < overflowUnits :=
    (Nat.mul_le_mul_left 3 halfUnits_le).trans_lt (small_multiple (by decide))
  have once : (.finite false units * scale).Within halfUnits (3 * halfUnits) := by
    rw [mul_scale]
    exact within_round representable_halfUnits (representable_mul_halfUnits (by decide)) small
      oneUnits_pos (halfUnits_mul_le enough) (le_mul_halfUnits few)
  have split : scaleUp (.finite false units) 201 = .finite false units * scale * ten := by
    rw [← tens_one]
    exact @scaleUp_of_lt (.finite false units) 1 (by decide) (by decide)
  rw [split]
  refine once.mul representable_oneUnits (representable_mul_oneUnits (by decide))
    (small_multiple le_rfl) ⟨_, rfl, le_rfl, le_rfl⟩ oneUnits_mul_le ?_
  calc 3 * halfUnits * (10 * oneUnits)
    _ = 15 * (2 * halfUnits) * oneUnits := by ring
    _ ≤ 16 * oneUnits * oneUnits := by
      rw [two_mul_halfUnits]
      exact Nat.mul_le_mul_right _ (Nat.mul_le_mul_right _ (by decide))

theorem near_of_small (representable : Representable units) (small : units < oneUnits)
    (least : smallestUnits ≤ units) : Near 2 (guess (.finite false units)) := by
  have positive : 0 < units := scalingBounds.smallest_pos.trans_le least
  have magnitude := magnitude_of_small positive small
  rw [if_neg (Nat.not_lt_of_le least)] at magnitude
  have reached := reaches_one_of_enough least
  obtain ⟨few, below, stopped⟩ := stepsDown_of_reached (by decide) reached
  have first := within_stepsDown (by decide) reached
  generalize stepsDown (.finite false units) infiniteTens one = count
    at magnitude few below stopped first
  have some : count ≠ 0 := by
    rintro rfl
    exact absurd stopped (not_reached_at_once representable small)
  have mantissa : (scaleUp (.finite false units) count).Within oneUnits (16 * oneUnits) := by
    rcases few.lt_or_eq with few | rfl
    · rw [scaleUp_of_le (Nat.le_of_lt_succ few)]
      exact first some
    · exact within_scaleUp_succ least (below 200 (by decide))
  rw [guess_of_neg magnitude some]
  exact near_of_reached mantissa (by omega)

section Tiny

variable (positive : 0 < units) (small : units < smallestUnits)
include positive small

theorem scaled_bounds : tinyUnits ≤ roundUnits (units * scaleUnits) oneUnits ∧
    roundUnits (units * scaleUnits) oneUnits ≤ 2 * oneUnits := by
  constructor
  · apply le_roundUnits oneUnits_pos representable_tinyUnits
    exact scalingBounds.tiny_le.trans (Nat.le_mul_of_pos_left scaleUnits positive)
  · apply roundUnits_le oneUnits_pos (representable_mul_oneUnits (by decide))
    rw [Nat.mul_assoc]
    exact (Nat.mul_le_mul_right scaleUnits small.le).trans scalingBounds.product_most

theorem mul_scale_eq_finite : .finite false units * scale =
    .finite false (roundUnits (units * scaleUnits) oneUnits) := by
  have most := (scaled_bounds positive small).2
  rw [mul_scale, round, if_pos (most.trans_lt (small_multiple (by decide)))]

/-- A number that the scale alone takes up to one. -/
theorem within_scaleUp_chunk (reached : (.finite false units * scale).lt one = false) :
    (scaleUp (.finite false units) 200).Within halfUnits (16 * oneUnits) := by
  have wide : 2 ^ 52 * oneUnits ≤ units * scaleUnits := by
    have less : 2 ^ 52 ≤ tinyUnits := by
      rw [tinyUnits]
      exact @Nat.pow_le_pow_right 2 (by decide) 52 664 (by decide)
    calc 2 ^ 52 * oneUnits
      _ ≤ tinyUnits * oneUnits := Nat.mul_le_mul_right oneUnits less
      _ ≤ scaleUnits := scalingBounds.tiny_le
      _ ≤ units * scaleUnits := Nat.le_mul_of_pos_left scaleUnits positive
  have most : units * scaleUnits ≤ 2 * (oneUnits * oneUnits) :=
    (Nat.mul_le_mul_right scaleUnits small.le).trans scalingBounds.product_most
  have rounded : oneUnits * oneUnits ≤ roundUnits (units * scaleUnits) oneUnits * oneUnits := by
    rw [mul_scale] at reached
    exact Nat.mul_le_mul_right oneUnits (le_of_round_not_lt_one reached)
  have error := (roundUnits_error oneUnits_pos wide).2
  obtain ⟨lower, higher⟩ := mul_tens_bounds units
  rw [scaleUp_of_le le_rfl, mul_tens (by decide)]
  apply within_round representable_halfUnits (representable_mul_oneUnits (by decide))
    (small_multiple le_rfl) oneUnits_pos
  · apply halfUnits_mul_le
    generalize oneUnits * oneUnits = square at rounded
    omega
  · rw [Nat.mul_assoc]
    generalize oneUnits * oneUnits = square at most
    omega

theorem near_of_tiny : Near 2 (guess (.finite false units)) := by
  have below : units < oneUnits := small.trans scalingBounds.smallest_lt
  have magnitude := magnitude_of_small positive below
  have chunk := within_scaleUp_chunk positive small
  have representable := representable_roundUnits oneUnits_pos (units * scaleUnits)
  have product := mul_scale_eq_finite positive small
  obtain ⟨least, most⟩ := scaled_bounds positive small
  rw [if_pos small] at magnitude
  rw [product] at magnitude chunk
  generalize roundUnits (units * scaleUnits) oneUnits = scaled
    at representable magnitude product chunk least most
  have reached := reaches_one_of_scaled least
  obtain ⟨few, -, stopped⟩ := stepsDown_of_reached (by decide) reached
  have first := within_stepsDown (by decide) reached
  generalize stepsDown (.finite false scaled) infiniteTens one = count at magnitude few stopped first
  have total : -200 - (count : Int) = -((200 + count : Nat) : Int) := by omega
  rw [total] at magnitude
  rw [guess_of_neg magnitude (by omega)]
  rcases Nat.eq_zero_or_pos count with rfl | some
  · rw [mul_tens_zero representable (most.trans_lt (small_multiple (by decide)))] at stopped
    exact near_of_inside (chunk stopped) (by decide) (by decide)
  · rw [scaleUp_of_lt some.ne' (by omega), product]
    exact near_of_reached (first some.ne') (by omega)

end Tiny

/-- The first guess of every number above zero. -/
theorem near_guess (representable : Representable units) (positive : 0 < units)
    (finite : units < overflowUnits) : Near 2 (guess (.finite false units)) := by
  rcases Nat.lt_or_ge units oneUnits with small | large
  · rcases Nat.lt_or_ge units smallestUnits with tiny | enough
    · exact near_of_tiny positive tiny
    · exact near_of_small representable small enough
  · exact near_of_large large finite

end Guessing

end BoundedPrintf.Binary64
