import Mathlib
import BoundedPrintf.Proofs.Binary64.Guessing

/-! Exact results. Powers of ten are not rounded as long as they have no more than 53 binary digits, and
neither are sums, differences and products that are representable. A quotient that does not reach a
whole number does not reach it by rounding either, so the digit read off it is right. -/
namespace BoundedPrintf.Binary64

section Steps

variable {units first second places : Nat}

/-- A number of steps of a power of two, no more of them than 53 binary digits can count. -/
theorem representable_of_dvd (steps : 2 ^ places ∣ units)
    (few : units ≤ 2 ^ 53 * 2 ^ places) : Representable units := by
  obtain ⟨count, rfl⟩ := steps
  have most : count * 2 ^ places ≤ 2 ^ 53 * 2 ^ places := by
    rwa [Nat.mul_comm count]
  exact ⟨count, places, Nat.le_of_mul_le_mul_right most (Nat.two_pow_pos places), Nat.mul_comm ..⟩

/-- What is not too small for its digits is a number of steps. -/
theorem Representable.two_pow_dvd (representable : Representable units)
    (large : 2 ^ 53 * 2 ^ places ≤ units) : 2 ^ places ∣ units := by
  obtain ⟨digits, own, few, rfl⟩ := representable
  have wide : 2 ^ 53 * 2 ^ places ≤ 2 ^ 53 * 2 ^ own := large.trans (Nat.mul_le_mul_right _ few)
  have steps : 2 ^ places ≤ 2 ^ own := Nat.le_of_mul_le_mul_left wide (Nat.two_pow_pos 53)
  exact Dvd.dvd.mul_left (Nat.pow_dvd_pow 2 ((Nat.pow_le_pow_iff_right (by decide)).mp steps)) digits

/-- Two numbers no more than a factor of two apart have a representable difference. -/
theorem Representable.sub (large : Representable first) (small : Representable second)
    (below : second ≤ first) (close : first ≤ 2 * second) : Representable (first - second) := by
  obtain ⟨count, coarse, few, rfl⟩ := large
  obtain ⟨less, fine, fewer, rfl⟩ := small
  rcases Nat.le_total coarse fine with order | order
  · refine @representable_of_dvd _ coarse ?_ ?_
    · exact Nat.dvd_sub (Nat.dvd_mul_left ..) ((Nat.pow_dvd_pow 2 order).mul_left less)
    · exact (Nat.sub_le _ _).trans (Nat.mul_le_mul_right _ few)
  · refine @representable_of_dvd _ fine ?_ ?_
    · exact Nat.dvd_sub ((Nat.pow_dvd_pow 2 order).mul_left count) (Nat.dvd_mul_left ..)
    · have rest : count * 2 ^ coarse - less * 2 ^ fine ≤ less * 2 ^ fine := by omega
      exact rest.trans (Nat.mul_le_mul_right _ fewer)

end Steps

section Sums

variable {first second : Nat}

theorem roundUnits_one (representable : Representable first) : roundUnits first 1 = first := by
  have rounded := roundUnits_mul Nat.one_pos representable
  rwa [Nat.mul_one] at rounded

theorem round_eq_finite {numerator denominator : Nat}
    (small : roundUnits numerator denominator < overflowUnits) :
    round false numerator denominator = finite false (roundUnits numerator denominator) := by
  rw [round, if_pos small]

theorem add_exact (representable : Representable (first + second))
    (small : first + second < overflowUnits) :
    finite false first + finite false second = finite false (first + second) := by
  rw [finite_add, round, roundUnits_one representable, if_pos small]

theorem sub_finite (below : second ≤ first) :
    finite false first - finite false second = round false (first - second) 1 := by
  change add (finite false first) (neg (finite false second)) = _
  rw [neg, add, if_neg (by decide)]
  rcases below.lt_or_eq with less | rfl
  · rw [if_pos less]
  · have small : 0 < overflowUnits := oneUnits_pos.trans oneUnits_lt_overflowUnits
    rw [if_neg (Nat.lt_irrefl second), if_neg (Nat.lt_irrefl second), Nat.sub_self, round,
      roundUnits_one representable_zero, if_pos small, zero]

theorem sub_exact (below : second ≤ first) (representable : Representable (first - second))
    (small : first < overflowUnits) :
    finite false first - finite false second = finite false (first - second) := by
  rw [sub_finite below, round, roundUnits_one representable, if_pos ((Nat.sub_le _ _).trans_lt small)]

theorem mul_exact {product : Nat} (same : first * second = product * oneUnits)
    (representable : Representable product) (small : product < overflowUnits) :
    finite false first * finite false second = finite false product := by
  rw [finite_mul, same, round, roundUnits_mul oneUnits_pos representable, if_pos small]

theorem ofNat_eq_finite {value : Nat} (few : value ≤ 16) :
    ofNat value = finite false (value * oneUnits) := by
  have representable : Representable (value * oneUnits) := representable_mul_oneUnits (by omega)
  rw [ofNat, ofRatio, round, roundUnits_one representable, if_pos (small_multiple few)]

end Sums

section Powers

variable {count place : Nat}

/-- A multiple of a power of ten has the binary digits of that multiple of the power of five. -/
theorem representable_mul_pow (few : count * 5 ^ place ≤ 2 ^ 53) :
    Representable (count * 10 ^ place * oneUnits) := by
  have ten : 10 = 5 * 2 := rfl
  have parts : count * 10 ^ place * oneUnits = count * 5 ^ place * 2 ^ place * oneUnits := by
    rw [ten, Nat.mul_pow, ← Nat.mul_assoc count]
  rw [parts, oneUnits]
  exact ((representable_of_small few).mul_two_pow place).mul_two_pow 1074

/-- Up to 10^22 the products of tens are the powers of ten. -/
theorem tensUnits_eq_pow (few : place ≤ 22) : tensUnits place = 10 ^ place * oneUnits := by
  induction place with
  | zero => rw [tensUnits_zero, Nat.pow_zero, Nat.one_mul]
  | succ place ih =>
      have five : 1 * 5 ^ (place + 1) ≤ 2 ^ 53 := by
        have most : 5 ^ (place + 1) ≤ 5 ^ 22 := Nat.pow_le_pow_right (by decide) few
        omega
      have product : 10 ^ place * oneUnits * (10 * oneUnits) =
          1 * 10 ^ (place + 1) * oneUnits * oneUnits := by
        ring
      rw [tensUnits_succ, ih (by omega), product,
        roundUnits_mul oneUnits_pos (representable_mul_pow five), Nat.one_mul]

theorem powerOfTen_eq_tensUnits (few : place < infiniteTens) :
    powerOfTen place = finite false (tensUnits place) := by
  rw [powerOfTen_natCast few, tens_eq_finite few]

theorem powerOfTen_eq_finite (few : place ≤ 22) :
    powerOfTen place = finite false (10 ^ place * oneUnits) := by
  have finite : place < infiniteTens := by
    rw [infiniteTens]
    omega
  rw [powerOfTen_eq_tensUnits finite, tensUnits_eq_pow few]

end Powers

section Quotients

variable {power rest count : Nat}

/-- Two representable numbers are a step of the smaller one apart. -/
theorem Representable.add_spacing_le (small : Representable rest) (large : Representable count)
    (less : rest < count) : rest + spacing rest ≤ count := by
  obtain ⟨few, own⟩ := small.spacing_dvd le_rfl
  obtain ⟨many, other⟩ := large.spacing_dvd less.le
  have fewer : few < many := by
    apply Nat.lt_of_mul_lt_mul_left (a := spacing rest)
    rwa [← own, ← other]
  calc rest + spacing rest
    _ = spacing rest * (few + 1) := by rw [Nat.mul_succ, ← own]
    _ ≤ spacing rest * many := Nat.mul_le_mul_left _ fewer
    _ = count := other.symm

variable (positive : 0 < power) (representable : Representable rest)
include positive representable

/-- A quotient is rounded below the whole numbers that it does not reach. -/
theorem roundUnits_lt (multiple : Representable (count * power)) (below : rest < count * power) :
    roundUnits (rest * oneUnits) power < count * oneUnits := by
  have some : 0 < count := by
    by_contra none
    rw [Nat.eq_zero_of_not_pos none, Nat.zero_mul] at below
    exact Nat.not_lt_zero _ below
  rcases Nat.lt_or_ge power (2 * rest) with close | far
  · -- Dividend and multiple are a step of the dividend apart, and rounding adds less than that.
    have apart := representable.add_spacing_le multiple below
    have above := (spacing_bounds rest).1
    have less : (2 ^ 53 + 1) * rest < 2 ^ 53 * (count * power) := by omega
    have large : 2 ^ 52 * power ≤ rest * oneUnits := by
      have wide : 2 ^ 53 ≤ oneUnits := by
        rw [oneUnits]
        exact @Nat.pow_le_pow_right 2 (by decide) 53 1074 (by decide)
      have room : rest * 2 ^ 53 ≤ rest * oneUnits := Nat.mul_le_mul_left rest wide
      omega
    have error := (roundUnits_error positive large).2
    apply Nat.lt_of_mul_lt_mul_right (a := 2 ^ 53 * power)
    calc roundUnits (rest * oneUnits) power * (2 ^ 53 * power)
      _ = 2 ^ 53 * (roundUnits (rest * oneUnits) power * power) := Nat.mul_left_comm ..
      _ ≤ (2 ^ 53 + 1) * (rest * oneUnits) := error
      _ = (2 ^ 53 + 1) * rest * oneUnits := (Nat.mul_assoc ..).symm
      _ < 2 ^ 53 * (count * power) * oneUnits := Nat.mul_lt_mul_of_pos_right less oneUnits_pos
      _ = count * oneUnits * (2 ^ 53 * power) := by ring
  · have few : roundUnits (rest * oneUnits) power ≤ halfUnits := by
      apply roundUnits_le positive representable_halfUnits
      calc rest * oneUnits
        _ = halfUnits * (2 * rest) := by rw [← two_mul_halfUnits]; ring
        _ ≤ halfUnits * power := Nat.mul_le_mul_left _ far
    have half := two_mul_halfUnits
    have one := oneUnits_pos
    calc roundUnits (rest * oneUnits) power
      _ ≤ halfUnits := few
      _ < oneUnits := by omega
      _ ≤ count * oneUnits := Nat.le_mul_of_pos_left _ some

/-- The digit of a remainder below ten powers is their whole quotient. -/
theorem leadingDigit_div (multiple : Representable ((rest / power + 1) * power))
    (few : rest < 10 * power) :
    (finite false rest / finite false power).leadingDigit = rest / power := by
  have digit : rest / power < 10 := (Nat.div_lt_iff_lt_mul positive).mpr few
  have below : rest < (rest / power + 1) * power := Nat.lt_mul_of_div_lt (Nat.lt_succ_self _) positive
  have most := roundUnits_lt positive representable multiple below
  have least : rest / power * oneUnits ≤ roundUnits (rest * oneUnits) power := by
    apply le_roundUnits positive (representable_mul_oneUnits (by omega))
    calc rest / power * oneUnits * power
      _ = rest / power * power * oneUnits := Nat.mul_right_comm ..
      _ ≤ rest * oneUnits := Nat.mul_le_mul_right _ (Nat.div_mul_le_self rest power)
  have small : (rest / power + 1) * oneUnits < overflowUnits := small_multiple (by omega)
  have whole : roundUnits (rest * oneUnits) power / oneUnits = rest / power :=
    Nat.div_eq_of_lt_le least most
  rw [finite_div positive, round, if_pos (most.trans small), leadingDigit, whole]
  omega

end Quotients

end BoundedPrintf.Binary64
