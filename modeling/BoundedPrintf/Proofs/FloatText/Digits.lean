import Mathlib
import BoundedPrintf.Proofs.Binary64.Normalizing
import BoundedPrintf.Proofs.FloatText.Parts

/-! The digits of a whole part. Long division starts at the place of the magnitude, where the quotient
is at least one whatever is rounded, so no numeral begins with a zero but that of a value below one. -/
namespace BoundedPrintf

namespace Binary64

variable {units numerator denominator : Nat}

/-- A quotient that reaches one has a digit, finite or not. -/
theorem one_le_leadingDigit_round (positive : 0 < denominator)
    (enough : oneUnits * denominator ≤ numerator) :
    1 ≤ (round false numerator denominator).leadingDigit := by
  have reached := le_roundUnits positive representable_oneUnits enough
  rw [round]
  split
  · have some : 1 ≤ roundUnits numerator denominator / oneUnits :=
      (Nat.one_le_div_iff oneUnits_pos).mpr reached
    exact Nat.le_min.mpr ⟨by decide, some⟩
  · exact (by decide : 1 ≤ 9)

theorem sub_zero_finite (positive : 0 < units) :
    finite false units - zero = round false units 1 := by
  change add (finite false units) (neg (finite false 0)) = _
  rw [neg, add, if_neg (by decide), if_pos positive, Nat.sub_zero]

/-- The first digit of a number whose magnitude is not too high. -/
theorem one_le_first_digit {place : Nat} (small : place < infiniteTens)
    (reached : tensUnits place ≤ units) :
    1 ≤ ((finite false units - zero) / powerOfTen place).leadingDigit := by
  have power : 0 < tensUnits place := oneUnits_pos.trans_le (oneUnits_le_tensUnits place)
  rw [sub_zero_finite (power.trans_le reached), powerOfTen_natCast small, tens_eq_finite small]
  have kept : tensUnits place ≤ roundUnits units 1 :=
    le_roundUnits Nat.one_pos (representable_tensUnits place) (by rwa [Nat.mul_one])
  rw [round]
  split
  · rw [finite_div power]
    apply one_le_leadingDigit_round power
    rw [Nat.mul_comm]
    exact Nat.mul_le_mul_right oneUnits kept
  · exact (by decide : 1 ≤ 9)

theorem negative_lt_one (units : Nat) : (finite true units).lt one = true := by
  have below : -(units : Int) < (oneUnits : Int) := by
    have positive := oneUnits_pos
    omega
  exact decide_eq_true below

theorem magnitude_eq_zero (large : oneUnits ≤ units) (small : units < 10 * oneUnits) :
    (finite false units).magnitude = 0 := by
  rw [← tensUnits_one] at small
  obtain ⟨count, few, magnitude, -⟩ := magnitude_below large (by decide : 0 + 1 < infiniteTens) small
  rw [magnitude, Nat.le_zero.mp few, Int.ofNat_zero]

end Binary64

theorem decimalDigit_ne_zero {digit : Nat} (least : 1 ≤ digit) (most : digit ≤ 9) :
    decimalDigit digit ≠ octet '0' := by
  have all : ∀ digit : Fin 10, 1 ≤ digit.val → decimalDigit digit ≠ octet '0' := by decide
  exact all ⟨digit, by omega⟩ least

namespace IntegralDigits

variable {digits : IntegralDigits} {value taken : Binary64} {place : Nat}

theorem length_push (room : digits.length < maxIntegralDigits) (byte : UInt8) :
    (digits.push byte).length = digits.length + 1 := by
  rw [push, dif_pos room]

/-- Long division appends one digit for its place and one for each below. -/
theorem bytes_divide (room : digits.length + place < maxIntegralDigits) :
    ∃ rest, rest.length = place ∧ (divide value place taken digits).1.bytes =
      digits.bytes ++
        decimalDigit ((value - taken) / Binary64.powerOfTen place).leadingDigit :: rest := by
  induction place generalizing taken digits with
  | zero => exact ⟨[], rfl, bytes_push room⟩
  | succ place ih =>
      have here : digits.length < maxIntegralDigits := by omega
      rw [divide]
      generalize decimalDigit ((value - taken) / Binary64.powerOfTen ↑(place + 1)).leadingDigit = first
      have behind : (digits.push first).length + place < maxIntegralDigits := by
        rw [length_push here]
        omega
      obtain ⟨rest, length, bytes⟩ := ih behind
      rw [bytes_push here, List.append_assoc, List.singleton_append] at bytes
      exact ⟨_, by rw [List.length_cons, length], bytes⟩

theorem bytes_clear (digits : IntegralDigits) : digits.clear.bytes = [] := List.take_zero

theorem bytes_saturated : saturated.bytes = List.replicate maxIntegralDigits (octet '9') := by
  have nines : saturated.slots.toList = List.replicate maxIntegralDigits (octet '9') :=
    Vector.toList_replicate
  have length : saturated.length = maxIntegralDigits := rfl
  rw [bytes, nines, length, List.take_replicate, Nat.min_self]

/-- What is not a number from one on has the whole part `0`. -/
theorem split_of_small (small : (value.lt Binary64.one || !value.isFinite) = true)
    (digits : IntegralDigits) : (split value digits).1.bytes = [octet '0'] := by
  have room : digits.clear.length < maxIntegralDigits := (by decide : 0 < maxIntegralDigits)
  rw [split, if_pos small]
  dsimp only
  rw [bytes_push room, bytes_clear, List.nil_append]

theorem eq_finite_of_large (large : ¬ (value.lt Binary64.one || !value.isFinite) = true) :
    ∃ units, value = .finite false units ∧ Binary64.oneUnits ≤ units := by
  rw [Bool.or_eq_true, not_or] at large
  obtain ⟨reached, finite⟩ := large
  cases value with
  | nan => exact absurd rfl finite
  | infinity negative => exact absurd rfl finite
  | finite negative units =>
      cases negative with
      | false =>
          rw [Binary64.finite_lt_one, decide_eq_true_eq] at reached
          exact ⟨units, rfl, Nat.le_of_not_lt reached⟩
      | true => exact absurd (Binary64.negative_lt_one units) reached

/-- A number from one on is divided from the place of its magnitude down, or has too many digits. -/
theorem split_of_magnitude {units top : Nat} (large : Binary64.oneUnits ≤ units)
    (magnitude : (Binary64.finite false units).magnitude = top) (digits : IntegralDigits) :
    split (.finite false units) digits =
      if maxIntegralDigits ≤ top then (saturated, Binary64.zero)
      else
        let divided := divide (.finite false units) top Binary64.zero digits.clear
        let fraction := .finite false units - divided.2
        (divided.1, if fraction.isPositive then fraction else Binary64.zero) := by
  have large : ¬ ((Binary64.finite false units).lt Binary64.one ||
      !(Binary64.finite false units).isFinite) = true := by
    rw [Binary64.finite_lt_one, decide_eq_false (Nat.not_lt_of_le large)]
    exact Bool.false_ne_true
  rw [split, if_neg large, magnitude]
  dsimp only
  rw [Int.natAbs_natCast]

/-- The whole part of a number from one on has a digit for each place up to its magnitude. -/
theorem split_of_large {units : Nat} (large : Binary64.oneUnits ≤ units) (digits : IntegralDigits) :
    (maxIntegralDigits ≤ (Binary64.finite false units).magnitude ∧
      (split (.finite false units) digits).1.bytes =
        List.replicate maxIntegralDigits (octet '9')) ∨
      ∃ first rest, 1 ≤ first ∧ first ≤ 9 ∧
        (split (.finite false units) digits).1.bytes = decimalDigit first :: rest ∧
        (Binary64.finite false units).magnitude = rest.length := by
  obtain ⟨count, few, magnitude, reached, -⟩ := Binary64.magnitude_of_large large
  rw [split_of_magnitude large magnitude, magnitude]
  split
  · next enough => exact .inl ⟨Int.ofNat_le.mpr enough, bytes_saturated⟩
  · next inside =>
      have room : digits.clear.length + count < maxIntegralDigits := by
        rw [Nat.add_comm]
        exact Nat.lt_of_not_le inside
      obtain ⟨rest, length, bytes⟩ :=
        @bytes_divide digits.clear (.finite false units) Binary64.zero count room
      rw [bytes_clear, List.nil_append] at bytes
      exact .inr ⟨_, rest, Binary64.one_le_first_digit few reached, Binary64.leadingDigit_le _, bytes,
        by rw [length]⟩

/-- A whole part has between one and 99 digits, and the first is a zero only if there is no other. -/
theorem split_numeral (value : Binary64) (digits : IntegralDigits) :
    (split value digits).1.bytes.length ≤ maxIntegralDigits ∧
      ((split value digits).1.bytes.head? = some (octet '0') →
        (split value digits).1.bytes = [octet '0']) := by
  constructor
  · rw [length_bytes]
    exact (split value digits).1.length_le
  · intro zero
    by_cases small : (value.lt Binary64.one || !value.isFinite) = true
    · exact split_of_small small digits
    · obtain ⟨units, rfl, large⟩ := eq_finite_of_large small
      rcases split_of_large large digits with ⟨-, nines⟩ | ⟨first, rest, least, most, bytes, -⟩
      · rw [nines] at zero
        exact absurd zero (by decide)
      · rw [bytes] at zero
        exact absurd (Option.some.inj zero) (decimalDigit_ne_zero least most)

/-- A mantissa has one digit before the point. -/
theorem split_mantissa (mantissa : value.Within Binary64.oneUnits (10 * Binary64.oneUnits - 1))
    (digits : IntegralDigits) : ∃ first, 1 ≤ first ∧ first ≤ 9 ∧
      (split value digits).1.bytes = [decimalDigit first] := by
  obtain ⟨units, rfl, large, most⟩ := mantissa
  have small : units < 10 * Binary64.oneUnits := by
    have positive := Binary64.oneUnits_pos
    omega
  have zero := Binary64.magnitude_eq_zero large small
  rcases split_of_large large digits with ⟨many, -⟩ | ⟨first, rest, least, most, bytes, length⟩
  · rw [zero] at many
    exact absurd many (by decide)
  · rw [zero] at length
    have none : rest = [] := List.eq_nil_of_length_eq_zero (Int.ofNat_inj.mp length.symm)
    exact ⟨first, least, most, by rw [bytes, none]⟩

section Stores

variable {other : IntegralDigits}

theorem bytes_push_congr (same : digits.bytes = other.bytes) (byte : UInt8) :
    (digits.push byte).bytes = (other.push byte).bytes := by
  have length : digits.length = other.length := by rw [← length_bytes, same, length_bytes]
  by_cases room : digits.length < maxIntegralDigits
  · rw [bytes_push room, bytes_push (length ▸ room), same]
  · rw [push, push, dif_neg room, dif_neg (length ▸ room), same]

theorem divide_congr (same : digits.bytes = other.bytes) :
    (divide value place taken digits).1.bytes = (divide value place taken other).1.bytes ∧
      (divide value place taken digits).2 = (divide value place taken other).2 := by
  induction place generalizing taken digits other with
  | zero => exact ⟨bytes_push_congr same _, rfl⟩
  | succ place ih => exact ih (bytes_push_congr same _)

/-- What was in the store before does not matter. -/
theorem split_congr (value : Binary64) (digits other : IntegralDigits) :
    (split value digits).1.bytes = (split value other).1.bytes ∧
      (split value digits).2 = (split value other).2 := by
  have empty : digits.clear.bytes = other.clear.bytes := by rw [bytes_clear, bytes_clear]
  by_cases small : (value.lt Binary64.one || !value.isFinite) = true
  · refine ⟨by rw [split_of_small small, split_of_small small], ?_⟩
    rw [split, split, if_pos small, if_pos small]
  · obtain ⟨units, rfl, large⟩ := eq_finite_of_large small
    obtain ⟨top, -, magnitude, -⟩ := Binary64.magnitude_of_large large
    obtain ⟨bytes, taken⟩ := @divide_congr digits.clear (.finite false units) .zero top other.clear empty
    rw [split_of_magnitude large magnitude, split_of_magnitude large magnitude]
    split
    · exact ⟨rfl, rfl⟩
    · dsimp only
      rw [bytes, taken]
      exact ⟨rfl, rfl⟩

end Stores

end IntegralDigits

section Fractions

theorem length_fractionDigits (fraction : Binary64) (count : Nat) :
    (fractionDigits fraction count).length = count := by
  induction count generalizing fraction with
  | zero => rfl
  | succ count ih => rw [fractionDigits, List.length_cons, ih]

/-- Whatever is left of a fraction, the next digit is one of the ten. -/
theorem isDigit_fractionDigits (fraction : Binary64) (count : Nat) :
    ∀ b ∈ fractionDigits fraction count, isDigit b = true := by
  induction count generalizing fraction with
  | zero => nofun
  | succ count ih =>
      rw [fractionDigits]
      intro b member
      rcases List.mem_cons.mp member with rfl | later
      · exact isDigit_decimalDigit (Binary64.leadingDigit_le _)
      · exact ih _ b later

end Fractions

end BoundedPrintf
