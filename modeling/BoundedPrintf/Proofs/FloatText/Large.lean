import Mathlib
import BoundedPrintf.Proofs.Binary64.Error
import BoundedPrintf.Proofs.FloatText.Whole
import BoundedPrintf.Proofs.Numeral.Reading

/-! Whole parts from 2^53 on. The powers of ten and the sums of leading digits are rounded there, so the
numeral is only near the value. Errors are counted in shares, 2^53rd parts of the value: every place adds
a few of them, and there are no more than 99 places. -/
namespace BoundedPrintf

open Numeral (truncated)

namespace IntegralDigits

open Binary64 (finite oneUnits tensUnits roundUnits overflowUnits powerOfTen Representable)

/-- Long division of a value of 2^53 shares with so many places left and so many done. Every place
adds some shares to the error of what is taken. The number read so far stands for a sum of exact powers,
what is taken for the same sum of rounded ones. -/
structure Divided (share left done taken read : Nat) : Prop where
  representable : Representable taken
  most : taken ≤ 2 ^ 53 * share + 6 * share
  least : 2 ^ 53 * share ≤ taken + tensUnits left + 6 * (done * share)
  sum : ∃ sum, taken ≤ sum + 4 * (done * share) ∧ sum ≤ taken + 4 * (done * share) ∧
    2 ^ 53 * (read * (10 ^ left * oneUnits)) ≤ 2 ^ 53 * sum + 98 * (read * (10 ^ left * oneUnits)) ∧
    2 ^ 53 * sum ≤ 2 ^ 53 * (read * (10 ^ left * oneUnits)) + 196 * (read * (10 ^ left * oneUnits))

namespace Divided

variable {share left done taken read : Nat}

section Step

variable (divided : Divided share (left + 1) done taken read)
  (small : 4 * (2 ^ 53 * share) < overflowUnits)
include divided small

/-- What is taken after the next place is the sum of both, but for two roundings. -/
theorem taken_near {digit : Nat} (digits : digit ≤ 9)
    (fits : digit = 0 ∨ taken + digit * tensUnits left ≤ 2 ^ 53 * share + 2 * share) :
    ∃ next, finite false taken + Binary64.ofNat digit * finite false (tensUnits left) = finite false next ∧
      Representable next ∧ next ≤ 2 ^ 53 * share + 6 * share ∧
      next ≤ taken + digit * tensUnits left + 4 * share ∧
      taken + digit * tensUnits left ≤ next + 4 * share := by
  have product : Binary64.ofNat digit * finite false (tensUnits left) =
      Binary64.round false (digit * tensUnits left * oneUnits) oneUnits := by
    rw [Binary64.ofNat_eq_finite (by omega), Binary64.finite_mul, Nat.mul_right_comm]
  rw [product]
  rcases fits with rfl | reached
  · have none : roundUnits (0 * tensUnits left * oneUnits) oneUnits = 0 := by
      rw [Nat.zero_mul]
      exact Binary64.roundUnits_mul Binary64.oneUnits_pos Binary64.representable_zero
    have most := divided.most
    refine ⟨taken, ?_, divided.representable, most, by omega, by omega⟩
    rw [Binary64.round_eq_finite (none.trans_lt (by omega)), none]
    exact Binary64.add_exact divided.representable (by omega)
  · have near := @Binary64.roundUnits_whole_near oneUnits (digit * tensUnits left) (2 * share)
      Binary64.oneUnits_pos (by omega)
    generalize digit * tensUnits left = exact at reached near ⊢
    rw [Binary64.round_eq_finite (by omega), Binary64.finite_add]
    generalize roundUnits (exact * oneUnits) oneUnits = product at near
    have next := Binary64.roundUnits_one_error (taken + product)
    have representable := Binary64.representable_roundUnits Nat.one_pos (taken + product)
    refine ⟨_, Binary64.round_eq_finite (by omega), representable, ?_⟩
    omega

variable (whole : Representable (2 ^ 53 * share))
include whole

/-- The next digit stands for what is left, but for one power and two shares. -/
theorem digit_near :
    let digit := ((finite false (2 ^ 53 * share) - finite false taken) /
      finite false (tensUnits left)).leadingDigit
    digit ≤ 9 ∧ (digit = 0 ∨ taken + digit * tensUnits left ≤ 2 ^ 53 * share + 2 * share) ∧
      2 ^ 53 * share ≤
        taken + digit * tensUnits left + tensUnits left + 6 * (done * share) + 2 * share := by
  intro digit
  have power : 0 < tensUnits left := Binary64.oneUnits_pos.trans_le (Binary64.oneUnits_le_tensUnits left)
  rcases Nat.lt_or_ge (2 ^ 53 * share) taken with above | below
  · have zero : digit = 0 := Binary64.leadingDigit_negative power above
    rw [zero]
    exact ⟨Nat.zero_le 9, .inl rfl, by omega⟩
  · obtain ⟨rest, difference, most, near⟩ := Binary64.sub_near whole (by omega) below le_rfl
    have read : digit = (finite false rest / finite false (tensUnits left)).leadingDigit := by
      rw [← difference]
    obtain ⟨least, high, low⟩ := @Binary64.leadingDigit_error (tensUnits left) rest power
    rw [← read] at least high low
    have reached : taken + digit * tensUnits left ≤ 2 ^ 53 * share + 2 * share := by omega
    refine ⟨least, .inr reached, ?_⟩
    rcases least.lt_or_eq with less | nine
    · have next := low less
      rw [Nat.succ_mul] at next
      omega
    · -- There is no higher digit, but the place above has left less than its power.
      have bound := divided.least
      have step := (Binary64.tensUnits_step left).2
      rw [nine] at reached ⊢
      omega

/-- One more place of the division. -/
theorem step (few : left ≤ 98) :
    let digit := ((finite false (2 ^ 53 * share) - finite false taken) /
      finite false (tensUnits left)).leadingDigit
    digit ≤ 9 ∧
      ∃ next, finite false taken + Binary64.ofNat digit * finite false (tensUnits left) = finite false next ∧
        Divided share left (done + 1) next (10 * read + digit) := by
  have near := divided.digit_near small whole
  dsimp only at near ⊢
  generalize ((finite false (2 ^ 53 * share) - finite false taken) /
    finite false (tensUnits left)).leadingDigit = digit at near ⊢
  obtain ⟨digits, fits, least⟩ := near
  obtain ⟨next, sum, representable, most, above, below⟩ := divided.taken_near small digits fits
  obtain ⟨exact, upper, lower, low, high⟩ := divided.sum
  obtain ⟨powerLow, powerHigh⟩ := Binary64.tensUnits_near few (by decide) digit
  have places : 10 ^ (left + 1) * oneUnits = 10 * (10 ^ left * oneUnits) := Binary64.pow_succ_mul left
  have budget : (done + 1) * share = done * share + share := Nat.succ_mul done share
  have number : (10 * read + digit) * (10 ^ left * oneUnits) =
      read * (10 * (10 ^ left * oneUnits)) + digit * (10 ^ left * oneUnits) := by ring
  rw [places] at low high
  refine ⟨digits, next, sum, representable, most, ?_, exact + digit * tensUnits left, ?_⟩
  · rw [budget]
    omega
  · rw [budget, number]
    omega

end Step

end Divided

section Division

variable {share top place done taken : Nat} {digits : IntegralDigits}

theorem number_push (room : digits.length < maxIntegralDigits) {digit : Nat} (small : digit ≤ 9) :
    Numeral.number (digits.push (decimalDigit digit)).bytes =
      10 * Numeral.number digits.bytes + digit := by
  rw [bytes_push room, Numeral.number_append, List.length_singleton, Nat.pow_one, Nat.mul_comm,
    Numeral.number_digit small]

variable (small : 4 * (2 ^ 53 * share) < overflowUnits) (whole : Representable (2 ^ 53 * share))
  (divided : Divided share (place + 1) done taken (Numeral.number digits.bytes))
include small whole divided

/-- One place of the division, with the powers as they are computed. -/
theorem divide_place (room : digits.length + place < maxIntegralDigits) :
    let digit := ((finite false (2 ^ 53 * share) - finite false taken) / powerOfTen place).leadingDigit
    ∃ next, finite false taken + Binary64.ofNat digit * powerOfTen place = finite false next ∧
      Divided share place (done + 1) next (Numeral.number (digits.push (decimalDigit digit)).bytes) := by
  have few : place ≤ 98 := by
    rw [maxIntegralDigits] at room
    omega
  have power : powerOfTen place = finite false (tensUnits place) := by
    apply Binary64.powerOfTen_eq_tensUnits
    rw [Binary64.infiniteTens]
    omega
  obtain ⟨digit, next, sum, after⟩ := divided.step small whole few
  rw [← number_push (by omega) digit] at after
  rw [power]
  exact ⟨next, sum, after⟩

/-- The division keeps its bounds down to the last place. -/
theorem divide_near (room : digits.length + place < maxIntegralDigits) :
    ∃ last, (divide (finite false (2 ^ 53 * share)) place (finite false taken) digits).2 = finite false last ∧
      Divided share 0 (done + place + 1) last
        (Numeral.number (divide (finite false (2 ^ 53 * share)) place (finite false taken) digits).1.bytes) := by
  induction place generalizing digits done taken with
  | zero =>
      obtain ⟨next, sum, after⟩ := divide_place small whole divided room
      rw [divide, sum]
      exact ⟨next, rfl, after⟩
  | succ place ih =>
      obtain ⟨next, sum, after⟩ := divide_place small whole divided room
      have order : done + (place + 1) = done + 1 + place := by omega
      rw [divide, sum, order]
      apply ih after
      rw [length_push (by omega)]
      omega

end Division

section Splitting

variable {number : Nat}

/-- The top place of a value with no more digits than there are slots. -/
theorem exists_top_of_few (large : oneUnits ≤ number * oneUnits) (few : number < 10 ^ 99) :
    ∃ top : Nat, top ≤ 98 ∧ (finite false (number * oneUnits)).magnitude = top ∧
      number * oneUnits < tensUnits (top + 1) := by
  have enough : 10 ^ 99 * oneUnits ≤ tensUnits 99 := by decide +kernel
  have below : number * oneUnits < 10 ^ 99 * oneUnits :=
    Nat.mul_lt_mul_of_pos_right few Binary64.oneUnits_pos
  obtain ⟨top, inside, magnitude, -, last⟩ :=
    Binary64.magnitude_below large (by decide) (below.trans_le enough)
  exact ⟨top, inside, magnitude, last⟩

/-- After the last place what has been read is the value but for 2048 shares, and no more than that
is left. -/
theorem Divided.last {share done taken read : Nat} (divided : Divided share 0 done taken read)
    (few : done ≤ 99) (one : oneUnits ≤ share) :
    read * oneUnits ≤ 2 ^ 53 * share + 2048 * share ∧ 2 ^ 53 * share ≤ read * oneUnits + 2048 * share ∧
      2 ^ 53 * share ≤ taken + 595 * share := by
  have most := divided.most
  have least := divided.least
  obtain ⟨sum, upper, lower, low, high⟩ := divided.sum
  have budget : done * share ≤ 99 * share := Nat.mul_le_mul_right share few
  rw [Binary64.tensUnits_zero] at least
  rw [Nat.pow_zero, Nat.one_mul] at low high
  omega

/-- What is left of a value from 2^53 on. -/
theorem fraction_near {share taken : Nat} (whole : Representable (2 ^ 53 * share))
    (small : 2 ^ 53 * share < overflowUnits) (least : 2 ^ 53 * share ≤ taken + 595 * share) :
    let rest := finite false (2 ^ 53 * share) - finite false taken
    ∃ left, (if rest.isPositive then rest else Binary64.zero) = finite false left ∧ left ≤ 2048 * share := by
  intro rest
  rcases Nat.lt_or_ge (2 ^ 53 * share) taken with above | below
  · have negative : rest.isPositive = false := by
      rw [← Binary64.isPositive_round_negative (taken - 2 ^ 53 * share) 1]
      exact congrArg _ (Binary64.sub_negative above)
    rw [negative]
    exact ⟨0, rfl, Nat.zero_le _⟩
  · obtain ⟨exact, difference, -, -, most⟩ := Binary64.sub_near whole small below le_rfl
    have same : rest = finite false exact := difference
    rw [same]
    split
    · exact ⟨_, rfl, by omega⟩
    · exact ⟨0, rfl, Nat.zero_le _⟩

/-- A share of a value from 2^53 on is no less than one. -/
theorem exists_share (large : 2 ^ 53 ≤ number) (few : number < 10 ^ 99) :
    ∃ share, number * oneUnits = 2 ^ 53 * share ∧ oneUnits ≤ share ∧
      4 * (2 ^ 53 * share) < overflowUnits := by
  obtain ⟨unit, same⟩ : 2 ^ 53 ∣ oneUnits := by
    rw [oneUnits]
    exact @Nat.pow_dvd_pow 53 1074 2 (by decide)
  have parts : number * oneUnits = 2 ^ 53 * (number * unit) := by rw [same, Nat.mul_left_comm]
  refine ⟨number * unit, parts, ?_, ?_⟩
  · have wide : 2 ^ 53 * oneUnits ≤ 2 ^ 53 * (number * unit) := by
      rw [← parts]
      exact Nat.mul_le_mul_right _ large
    omega
  · have below : number * oneUnits ≤ 10 ^ 99 * oneUnits := Nat.mul_le_mul_right oneUnits few.le
    have power := @Binary64.pow_mul_mono 99 307 (by decide)
    have limit := Binary64.overflowUnits_bounds.1
    generalize 10 ^ 307 * oneUnits = most at power limit
    omega

theorem divided_clear {share top : Nat} (below : 2 ^ 53 * share < tensUnits (top + 1))
    (digits : IntegralDigits) : Divided share (top + 1) 0 0 (Numeral.number digits.clear.bytes) := by
  have none : Numeral.number digits.clear.bytes = 0 := by
    rw [bytes_clear]
    rfl
  refine ⟨Binary64.representable_zero, Nat.zero_le _, by omega, 0, ?_⟩
  rw [none, Nat.zero_mul]
  omega

/-- The numeral of a value from 2^53 on is off by a 2^42nd part of the value at most, and no more than
that is answered as its fraction. -/
theorem split_near (representable : Representable (number * oneUnits)) (large : 2 ^ 53 ≤ number)
    (few : number < 10 ^ 99) (digits : IntegralDigits) :
    2 ^ 42 * Numeral.number (split (finite false (number * oneUnits)) digits).1.bytes ≤
        2 ^ 42 * number + number ∧
      2 ^ 42 * number ≤
        2 ^ 42 * Numeral.number (split (finite false (number * oneUnits)) digits).1.bytes + number ∧
      ∃ rest, (split (finite false (number * oneUnits)) digits).2 = finite false rest ∧
        2 ^ 42 * rest ≤ number * oneUnits := by
  have reached : oneUnits ≤ number * oneUnits := Nat.le_mul_of_pos_left _ (by omega)
  obtain ⟨top, inside, magnitude, last⟩ := exists_top_of_few reached few
  obtain ⟨share, parts, one, small⟩ := exists_share large few
  have room : digits.clear.length + top < maxIntegralDigits := by
    have empty : digits.clear.length = 0 := rfl
    rw [empty, maxIntegralDigits]
    omega
  have places : ¬ maxIntegralDigits ≤ top := by omega
  rw [split_of_magnitude reached magnitude, if_neg places, Binary64.zero]
  rw [parts] at representable last ⊢
  obtain ⟨taken, sum, divided⟩ := divide_near small representable (divided_clear last digits) room
  obtain ⟨above, below, least⟩ := divided.last (by omega) one
  obtain ⟨rest, fraction, most⟩ := fraction_near representable (by omega) least
  dsimp only
  rw [sum]
  refine ⟨?_, ?_, rest, fraction, by omega⟩
  · apply Nat.le_of_mul_le_mul_right _ Binary64.oneUnits_pos
    rw [Nat.add_mul, Nat.mul_assoc, Nat.mul_assoc, parts]
    omega
  · apply Nat.le_of_mul_le_mul_right _ Binary64.oneUnits_pos
    rw [Nat.add_mul, Nat.mul_assoc, Nat.mul_assoc, parts]
    omega

/-- Where no sum of leading digits is rounded, the numeral is that of the value. Below 2^54 this is so
since only even numbers are rounded to. -/
theorem split_eq_of_kept (representable : Representable (number * oneUnits)) (some : 0 < number)
    (kept : number < 2 ^ 54 ∨ number ≤ 10 ^ 22 ∧
      ∀ place, Representable (truncated number place * oneUnits)) (digits : IntegralDigits) :
    (split (finite false (number * oneUnits)) digits).1.bytes = Numeral.spelled 10 false number ∧
      (split (finite false (number * oneUnits)) digits).2 = Binary64.zero := by
  have whole : number * oneUnits / oneUnits = number := Nat.mul_div_cancel _ Binary64.oneUnits_pos
  have truncatable : Truncatable (number * oneUnits) := by
    rcases kept with small | ⟨few, kept⟩
    · refine ⟨representable, ?_, by omega⟩
      intro place
      rw [whole]
      cases place with
      | zero =>
          rw [Numeral.truncated_zero]
          exact representable
      | succ place =>
          obtain ⟨half, even⟩ : 2 ∣ truncated number (place + 1) := by
            apply Dvd.dvd.mul_left
            exact Dvd.dvd.pow (by decide) (Nat.succ_ne_zero place)
          have most := Numeral.truncated_le number (place + 1)
          have few : half ≤ 2 ^ 53 := by omega
          have double := (Binary64.representable_mul_oneUnits few).mul_two_pow 1
          rwa [Nat.pow_one, Nat.mul_right_comm, Nat.mul_comm half, ← even] at double
    · refine ⟨representable, ?_, by omega⟩
      intro place
      rw [whole]
      exact kept place
  have reached : oneUnits ≤ number * oneUnits := Nat.le_mul_of_pos_left _ some
  obtain ⟨bytes, fraction⟩ := truncatable.split_exact reached digits
  rw [whole] at bytes
  rw [Nat.mul_mod_left] at fraction
  exact ⟨bytes, fraction⟩

end Splitting

end IntegralDigits

end BoundedPrintf
