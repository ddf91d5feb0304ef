import Mathlib
import BoundedPrintf.Proofs.Binary64.Guessing

/-! The search for a decimal magnitude, without a limit. Its loops have tests and no counters. Each of
them ends, and what they find is the magnitude. -/
namespace BoundedPrintf

/-- Turns are taken as long as the test holds. -/
structure Loop (State : Type) where
  goesOn : State → Bool
  turn : State → State

namespace Loop

variable {State : Type} {loop : Loop State} {state last other : State}

/-- From one state the loop comes to an end in another, after any finite number of turns. -/
inductive Ends (loop : Loop State) : State → State → Prop
  | stop {state : State} : loop.goesOn state = false → Ends loop state state
  | turn {state last : State} :
      loop.goesOn state = true → Ends loop (loop.turn state) last → Ends loop state last

theorem Ends.unique (ends : loop.Ends state last) (again : loop.Ends state other) :
    other = last := by
  induction ends with
  | stop stops =>
      cases again with
      | stop => rfl
      | turn goes => simp [stops] at goes
  | turn goes _ ih =>
      cases again with
      | stop stops => simp [goes] at stops
      | turn _ later => exact ih later

/-- A loop ends where the states that its turns go through fail the test for the first time. -/
theorem ends_of_trail (trail : Nat → State) (turns : ∀ n, loop.turn (trail n) = trail (n + 1))
    (count : Nat) (goes : ∀ before < count, loop.goesOn (trail before) = true)
    (stops : loop.goesOn (trail count) = false) : loop.Ends (trail 0) (trail count) := by
  induction count generalizing trail with
  | zero => exact .stop stops
  | succ count ih =>
      apply Ends.turn (goes 0 (Nat.zero_lt_succ count))
      rw [turns]
      apply ih (fun n => trail (n + 1)) (fun n => turns (n + 1)) _ stops
      intro before inside
      exact goes (before + 1) (Nat.succ_lt_succ inside)

end Loop

namespace Binary64

/-- The absolute value. A zero keeps its sign. -/
def absolute (value : Binary64) : Binary64 := if value.isNegative then -value else value

/-- Zeros, infinities and NaN have no leading digit to search for. -/
def isTrivial (value : Binary64) : Bool := value.absolute.isZero || !value.absolute.isFinite

/-- A power of ten with its exponent goes up as long as the next one does not exceed a value. -/
def rising (value : Binary64) : Loop (Binary64 × Int) where
  goesOn := fun (power, _) => (power * ten).le value
  turn := fun (power, exponent) => (power * ten, exponent + 1)

/-- A value far below one is scaled up, and its exponent goes down by the same number of places. -/
def lifting : Loop (Binary64 × Int) where
  goesOn := fun (value, _) => value.lt smallest
  turn := fun (value, exponent) => (value * scale, exponent - 200)

/-- A power of ten goes up and its exponent down until the power takes a value up to one. -/
def falling (value : Binary64) : Loop (Binary64 × Int) where
  goesOn := fun (power, _) => (value * power).lt one
  turn := fun (power, exponent) => (power * ten, exponent - 1)

/-- The whole search. There is a derivation only if each of its loops comes to an end. -/
inductive Finds (value : Binary64) : Int → Prop
  | nothing : value.isTrivial = true → Finds value 0
  | large {power : Binary64} {exponent : Int} :
      value.isTrivial = false → one.le value.absolute = true →
      (rising value.absolute).Ends (one, 0) (power, exponent) → Finds value exponent
  | small {scaled power : Binary64} {shift exponent : Int} :
      value.isTrivial = false → one.le value.absolute = false →
      lifting.Ends (value.absolute, 0) (scaled, shift) →
      (falling scaled).Ends (one, shift) (power, exponent) → Finds value exponent

variable {value other : Binary64} {units : Nat}

/-- A search has one result at most. -/
theorem Finds.unique {first second : Int} (finds : value.Finds first) (again : value.Finds second) :
    second = first := by
  cases finds with
  | nothing none =>
      cases again with
      | nothing => rfl
      | large some => simp [none] at some
      | small some => simp [none] at some
  | large some reached rises =>
      cases again with
      | nothing none => simp [some] at none
      | large _ _ ends => exact congrArg Prod.snd (rises.unique ends)
      | small _ below => simp [reached] at below
  | small some below lifts falls =>
      cases again with
      | nothing none => simp [some] at none
      | large _ reached => simp [below] at reached
      | small _ _ ends falling =>
          cases lifts.unique ends
          exact congrArg Prod.snd (falls.unique falling)

section Signs

theorem absolute_zero (negative : Bool) : (finite negative 0).absolute = finite negative 0 := by
  cases negative <;> simp [absolute, isNegative, zero, lt, signed]

theorem absolute_finite (positive : 0 < units) (negative : Bool) :
    (finite negative units).absolute = finite false units := by
  cases negative with
  | false => rw [absolute, isNegative_finite, if_neg Bool.false_ne_true]
  | true =>
      have below : (finite true units).isNegative = true := by
        simpa [isNegative, zero, lt, signed] using positive
      rw [absolute, below, if_pos rfl]
      rfl

theorem isTrivial_infinity (negative : Bool) : (infinity negative).isTrivial = true := by
  cases negative <;> rfl

theorem isTrivial_zero (negative : Bool) : (finite negative 0).isTrivial = true := by
  rw [isTrivial, absolute_zero]
  rfl

theorem isTrivial_finite (positive : 0 < units) (negative : Bool) :
    (finite negative units).isTrivial = false := by
  rw [isTrivial, absolute_finite positive, isZero_finite positive]
  rfl

theorem magnitude_of_trivial (trivial : value.isTrivial = true) : value.magnitude = 0 := by
  unfold isTrivial absolute at trivial
  simp only [magnitude, trivial, if_true]

theorem magnitude_finite (positive : 0 < units) (negative : Bool) :
    (finite negative units).magnitude = (finite false units).magnitude := by
  have same := (absolute_finite positive negative).trans (absolute_finite positive false).symm
  unfold absolute at same
  rw [magnitude, magnitude, same]

/-- The magnitude does not depend on the sign. -/
theorem magnitude_neg (value : Binary64) : (-value).magnitude = value.magnitude := by
  cases value with
  | nan => rfl
  | infinity negative =>
      change (infinity (!negative)).magnitude = _
      rw [magnitude_of_trivial (isTrivial_infinity _), magnitude_of_trivial (isTrivial_infinity _)]
  | finite negative units =>
      change (finite (!negative) units).magnitude = _
      rcases Nat.eq_zero_or_pos units with rfl | positive
      · rw [magnitude_of_trivial (isTrivial_zero _), magnitude_of_trivial (isTrivial_zero _)]
      · rw [magnitude_finite positive (!negative), magnitude_finite positive negative]

end Signs

section Loops

variable {count reach : Nat}

theorem ends_rising (passed : ∀ before < count, (tens (before + 1)).le value = true)
    (stopped : (tens (count + 1)).le value = false) :
    (rising value).Ends (one, 0) (tens count, (count : Int)) :=
  Loop.ends_of_trail (fun n => (tens n, (n : Int))) (fun _ => rfl) count passed stopped

theorem ends_lifting_of_enough (exponent : Int) (enough : value.lt smallest = false) :
    lifting.Ends (value, exponent) (value, exponent) := .stop enough

theorem ends_lifting_of_tiny (exponent : Int) (tiny : value.lt smallest = true)
    (enough : (value * scale).lt smallest = false) :
    lifting.Ends (value, exponent) (value * scale, exponent - 200) :=
  .turn tiny (ends_lifting_of_enough (exponent - 200) enough)

theorem ends_falling (shift : Int) (below : ∀ before < count, (value * tens before).lt one = true)
    (stopped : (value * tens count).lt one = false) :
    (falling value).Ends (one, shift) (tens count, shift - count) := by
  have turns : ∀ n : Nat, (falling value).turn (tens n, shift - n) =
      (tens (n + 1), shift - (n + 1 : Nat)) := by
    intro n
    refine Prod.ext rfl ?_
    change shift - n - 1 = _
    omega
  have ends := Loop.ends_of_trail (fun n => (tens n, shift - n)) turns count below stopped
  simpa [tens] using ends

/-- If some product of tens takes a value up to one, the last loop ends at the first that does. -/
theorem ends_falling_of_reached (shift : Int) (finite : reach < infiniteTens)
    (reached : (value * tens reach).lt one = false) :
    stepsDown value infiniteTens one ≤ reach ∧
      (falling value).Ends (one, shift) (tens (stepsDown value infiniteTens one),
        shift - stepsDown value infiniteTens one) := by
  obtain ⟨few, below, stopped⟩ := stepsDown_of_reached finite reached
  exact ⟨few, ends_falling shift below stopped⟩

end Loops

section Large

/-- The next power is there too, if only as an infinity. -/
theorem powerOfTen_succ {count : Nat} (few : count < infiniteTens) :
    powerOfTen ((count : Int) + 1) = tens (count + 1) := by
  have nonneg : ¬ ((count : Int) + 1) < 0 := by omega
  have size : ((count : Int) + 1).natAbs = count + 1 := by omega
  rw [powerOfTen, if_neg nonneg, size, Nat.min_eq_left few]

theorem not_le_of_lt (less : value.lt other = true) : other.le value = false := by
  cases value with
  | nan => cases less
  | infinity negative => cases other <;> simp_all [lt, le]
  | finite negative units => cases other <;> simp_all [lt, le]

variable (large : oneUnits ≤ units)
include large

/-- From one on the first loop goes as far as the powers do not exceed the value. -/
theorem rising_ends : ∃ count < infiniteTens, (finite false units).magnitude = count ∧
    (rising (.finite false units)).Ends (one, 0) (tens count, (count : Int)) ∧
    (tens count).le (.finite false units) = true ∧
    (finite false units).lt (tens (count + 1)) = true := by
  obtain ⟨count, few, magnitude, reached, last⟩ := magnitude_of_large large
  have passed : ∀ before ≤ count, (tens before).le (.finite false units) = true := by
    intro before inside
    rw [tens_eq_finite (inside.trans_lt few), le_finite, decide_eq_true_eq]
    exact (tensUnits_mono inside).trans reached
  have below : (finite false units).lt (tens (count + 1)) = true := by
    rcases Nat.lt_or_ge (count + 1) infiniteTens with finite | final
    · rw [tens_eq_finite finite, lt_finite]
      exact decide_eq_true (last.resolve_left finite.ne)
    · have all : count + 1 = infiniteTens := Nat.le_antisymm few final
      rw [all, tens_infiniteTens]
      rfl
  have ends := ends_rising (fun before inside => passed (before + 1) inside) (not_le_of_lt below)
  exact ⟨count, few, magnitude, ends, passed count le_rfl, below⟩

theorem finds_large (negative : Bool) :
    (finite negative units).Finds (finite negative units).magnitude := by
  have positive : 0 < units := oneUnits_pos.trans_le large
  have absolute := absolute_finite positive negative
  obtain ⟨count, -, magnitude, ends, -⟩ := rising_ends large
  rw [← absolute] at ends
  rw [magnitude_finite positive, magnitude]
  apply Finds.large (isTrivial_finite positive negative) _ ends
  rw [absolute, one_le_finite]
  exact decide_eq_true large

end Large

section Small

/-- A number that has been scaled is not scaled again. -/
theorem smallestUnits_le_tinyUnits : smallestUnits ≤ tinyUnits := by
  have room : 1 * oneUnits ≤ tinyUnits * 10 ^ 200 := by decide +kernel
  rw [smallestUnits]
  exact roundUnits_le (Nat.pow_pos Nat.ofNat_pos) representable_tinyUnits room

variable (representable : Representable units) (positive : 0 < units) (small : units < oneUnits)
include representable positive small

/-- Below one a value is scaled once at most. The last loop then needs 201 or 124 turns at most. -/
theorem falling_ends : ∃ (scaled power : Binary64) (shift : Int),
    lifting.Ends (.finite false units, 0) (scaled, shift) ∧
    (falling scaled).Ends (one, shift) (power, (finite false units).magnitude) ∧
    -324 ≤ (finite false units).magnitude ∧ (finite false units).magnitude ≤ -1 := by
  have magnitude := magnitude_of_small positive small
  rcases Nat.lt_or_ge units smallestUnits with tiny | enough
  · have product := mul_scale_eq_finite positive tiny
    have least := (scaled_bounds positive tiny).1
    have wide := smallestUnits_le_tinyUnits.trans least
    have lifts : lifting.Ends (.finite false units, 0) (.finite false units * scale, 0 - 200) := by
      apply ends_lifting_of_tiny
      · rw [smallest_eq_finite, lt_finite]
        exact decide_eq_true tiny
      · rw [product, smallest_eq_finite, lt_finite]
        exact decide_eq_false wide.not_gt
    have reached : (.finite false units * scale * tens 124).lt one = false := by
      rw [product]
      exact reaches_one_of_scaled least
    obtain ⟨few, falls⟩ := ends_falling_of_reached (0 - 200) (by decide) reached
    rw [if_pos tiny, ← zero_sub 200] at magnitude
    rw [magnitude]
    exact ⟨_, _, _, lifts, falls, by omega, by omega⟩
  · have lifts : lifting.Ends (.finite false units, 0) (.finite false units, 0) := by
      apply ends_lifting_of_enough
      rw [smallest_eq_finite, lt_finite]
      exact decide_eq_false enough.not_gt
    obtain ⟨few, falls⟩ := ends_falling_of_reached 0 (by decide) (reaches_one_of_enough enough)
    have some : stepsDown (.finite false units) infiniteTens one ≠ 0 := by
      intro none
      have stopped := (stepsDown_of_reached (by decide) (reaches_one_of_enough enough)).2.2
      rw [none] at stopped
      exact not_reached_at_once representable small stopped
    rw [if_neg enough.not_gt] at magnitude
    rw [zero_sub] at falls
    rw [magnitude]
    exact ⟨_, _, _, lifts, falls, by omega, by omega⟩

theorem finds_small (negative : Bool) :
    (finite negative units).Finds (finite negative units).magnitude := by
  have absolute := absolute_finite positive negative
  obtain ⟨scaled, power, shift, lifts, falls, -⟩ := falling_ends representable positive small
  rw [← absolute] at lifts
  rw [magnitude_finite positive]
  apply Finds.small (isTrivial_finite positive negative) _ lifts falls
  rw [absolute, one_le_finite]
  exact decide_eq_false small.not_ge

end Small

/-- The search comes to an end for every value that there is, with its magnitude and nothing else. -/
theorem finds_iff (representable : ∀ negative units, value = .finite negative units →
      Representable units) (exponent : Int) :
    value.Finds exponent ↔ exponent = value.magnitude := by
  have found : value.Finds value.magnitude := by
    cases value with
    | nan => exact .nothing rfl
    | infinity negative =>
        rw [magnitude_of_trivial (isTrivial_infinity negative)]
        exact .nothing (isTrivial_infinity negative)
    | finite negative units =>
        rcases Nat.eq_zero_or_pos units with rfl | positive
        · rw [magnitude_of_trivial (isTrivial_zero negative)]
          exact .nothing (isTrivial_zero negative)
        · rcases Nat.lt_or_ge units oneUnits with small | large
          · exact finds_small (representable negative units rfl) positive small negative
          · exact finds_large large negative
  constructor
  · exact found.unique
  · rintro rfl
    exact found

section Sizes

theorem one_le_zero (negative : Bool) : one.le (finite negative 0) = false := by
  have nothing : signed negative 0 = 0 := by cases negative <;> rfl
  have above : ¬ signed false oneUnits ≤ 0 := by
    have positive := oneUnits_pos
    rw [signed, if_neg Bool.false_ne_true]
    omega
  rw [one, le, nothing]
  exact decide_eq_false above

theorem units_of_large (isFinite : value.isFinite = true) (large : one.le value.absolute = true) :
    ∃ negative units, value = .finite negative units ∧ oneUnits ≤ units := by
  cases value with
  | nan => cases isFinite
  | infinity negative => cases isFinite
  | finite negative units =>
      refine ⟨negative, units, rfl, ?_⟩
      rcases Nat.eq_zero_or_pos units with rfl | positive
      · rw [absolute_zero, one_le_zero] at large
        cases large
      · rw [absolute_finite positive, one_le_finite, decide_eq_true_eq] at large
        exact large

theorem units_of_small (positive : zero.lt value.absolute = true)
    (small : value.absolute.lt one = true) : ∃ negative units,
      value = .finite negative units ∧ 0 < units ∧ units < oneUnits := by
  cases value with
  | nan => cases positive
  | infinity negative => cases negative <;> cases small
  | finite negative units =>
      refine ⟨negative, units, rfl, ?_⟩
      rcases Nat.eq_zero_or_pos units with rfl | some
      · rw [absolute_zero] at positive
        cases negative <;> simp [zero, lt, signed] at positive
      · rw [absolute_finite some, finite_lt_one, decide_eq_true_eq] at small
        exact ⟨some, small⟩

end Sizes

/-- The search ends for every value. From one on it finds the power of ten, as the arithmetic has it,
that the value reaches while it stays below the next; below one it finds no exponent outside those of
the least values. The sign plays no part. -/
theorem search_ends_at_magnitude (bits : UInt64) :
    let value := ofBits bits
    (∀ exponent, value.Finds exponent ↔ exponent = value.magnitude) ∧
      (value.isFinite = true → one.le value.absolute = true →
        0 ≤ value.magnitude ∧ value.magnitude ≤ 308 ∧
        (powerOfTen value.magnitude).le value.absolute = true ∧
        value.absolute.lt (powerOfTen (value.magnitude + 1)) = true) ∧
      (zero.lt value.absolute = true → value.absolute.lt one = true →
        -324 ≤ value.magnitude ∧ value.magnitude ≤ -1) ∧
      (-value).magnitude = value.magnitude := by
  intro value
  have representable : ∀ negative units, value = .finite negative units → Representable units :=
    fun negative units decoded => (representable_ofBits decoded).1
  refine ⟨finds_iff representable, ?_, ?_, magnitude_neg value⟩
  · intro isFinite reached
    obtain ⟨negative, units, same, large⟩ := units_of_large isFinite reached
    have positive : 0 < units := oneUnits_pos.trans_le large
    have absolute := absolute_finite positive negative
    obtain ⟨count, few, magnitude, -, atLeast, below⟩ := rising_ends large
    have limit : infiniteTens = 309 := rfl
    rw [same, absolute, magnitude_finite positive, magnitude, powerOfTen_succ few,
      powerOfTen_natCast few]
    exact ⟨by omega, by omega, atLeast, below⟩
  · intro positive small
    obtain ⟨negative, units, same, some, below⟩ := units_of_small positive small
    obtain ⟨_, _, _, -, -, least, most⟩ := falling_ends (representable negative units same) some below
    rw [same, magnitude_finite some]
    exact ⟨least, most⟩

/-- A product of 23 tens, which is less than 10^23 and has that exponent all the same. The value nearest
to -10^-201 has a magnitude below 10^-201, whose exponent is -202. -/
theorem rounded_powers_searched :
    let product := ofBits 0x44B52D02C7E14AF6
    let tiny := ofBits 0x96339874DDD8C623
    (∃ units, product = .finite false units ∧ units < 10 ^ 23 * oneUnits) ∧
      product.isFinite = true ∧ one.le product.absolute = true ∧ product.Finds 23 ∧
      (powerOfTen 23).le product.absolute = true ∧
      zero.lt tiny.absolute = true ∧ tiny.absolute.lt one = true ∧ tiny.Finds (-202) := by
  intro product tiny
  have decoded : product = .finite false (0x152D02C7E14AF6 * 2 ^ 1098) := by decide +kernel
  have less : 0x152D02C7E14AF6 * 2 ^ 1098 < 10 ^ 23 * oneUnits := by decide +kernel
  have large : product.isFinite = true ∧ one.le product.absolute = true := by decide +kernel
  have small : zero.lt tiny.absolute = true ∧ tiny.absolute.lt one = true := by decide +kernel
  have exponent : product.magnitude = 23 := by decide +kernel
  have shifted : tiny.magnitude = -202 := by decide +kernel
  obtain ⟨ends, powers, -, -⟩ := search_ends_at_magnitude 0x44B52D02C7E14AF6
  obtain ⟨finds, -, -, -⟩ := search_ends_at_magnitude 0x96339874DDD8C623
  obtain ⟨-, -, reached, -⟩ := powers large.1 large.2
  change (powerOfTen product.magnitude).le product.absolute = true at reached
  rw [exponent] at reached
  exact ⟨⟨_, decoded, less⟩, large.1, large.2, (ends 23).mpr exponent.symm, reached, small.1, small.2,
    (finds (-202)).mpr shifted.symm⟩

end Binary64

end BoundedPrintf
