import Mathlib
import BoundedPrintf.Proofs.FloatText.Digits

/-! A store of digits in use again and again. What an earlier value has left behind the length is never
read, and no digit of any value is written outside the slots. -/
namespace BoundedPrintf.IntegralDigits

variable {digits : IntegralDigits} {place : Nat}

section Checked

/-- Writes a digit into the slot at the length. Outside the slots there is nothing to write to. -/
def push? (digits : IntegralDigits) (byte : UInt8) : Option IntegralDigits :=
  if room : digits.length < maxIntegralDigits then
    some { slots := digits.slots.set digits.length byte room, length := digits.length + 1, length_le := room }
  else none

/-- Long division that fails at the first digit without a slot. -/
def divide? (value : Binary64) : Nat → Binary64 → IntegralDigits → Option (IntegralDigits × Binary64)
  | place, taken, digits => do
      let power := Binary64.powerOfTen place
      let digit := ((value - taken) / power).leadingDigit
      let taken := taken + Binary64.ofNat digit * power
      let digits ← digits.push? (decimalDigit digit)
      match place with
      | 0 => some (digits, taken)
      | place + 1 => divide? value place taken digits

/-- The split of a value that fails at the first digit without a slot. -/
def split? (value : Binary64) (digits : IntegralDigits) : Option (IntegralDigits × Binary64) := do
  let digits := digits.clear
  if value.lt Binary64.one || !value.isFinite then
    let digits ← digits.push? (octet '0')
    some (digits, if value.isPositive && value.lt Binary64.one then value else Binary64.zero)
  else
    let top := value.magnitude.natAbs
    if maxIntegralDigits ≤ top then some (saturated, Binary64.zero)
    else
      let (digits, taken) ← divide? value top Binary64.zero digits
      let fraction := value - taken
      some (digits, if fraction.isPositive then fraction else Binary64.zero)

theorem push?_eq (room : digits.length < maxIntegralDigits) (byte : UInt8) :
    digits.push? byte = some (digits.push byte) := by
  rw [push?, push, dif_pos room, dif_pos room]

theorem divide?_eq (value taken : Binary64) (room : digits.length + place < maxIntegralDigits) :
    divide? value place taken digits = some (divide value place taken digits) := by
  induction place generalizing taken digits with
  | zero =>
      rw [divide?, push?_eq room]
      rfl
  | succ place ih =>
      have here : digits.length < maxIntegralDigits := by omega
      rw [divide?, push?_eq here]
      apply ih
      rw [length_push here]
      omega

/-- Every digit finds its slot. -/
theorem split?_eq (value : Binary64) (digits : IntegralDigits) :
    split? value digits = some (split value digits) := by
  have empty : digits.clear.length = 0 := rfl
  rw [split?, split]
  dsimp only
  split
  · rw [push?_eq (by rw [empty]; decide)]
    rfl
  · split
    · rfl
    · next few =>
        have room : digits.clear.length + value.magnitude.natAbs < maxIntegralDigits := by omega
        rw [divide?_eq value Binary64.zero room]
        rfl

end Checked

section Saturation

theorem bytes_of_full (full : digits.length = maxIntegralDigits) :
    digits.bytes = digits.slots.toList := by
  rw [bytes, full]
  exact List.take_of_length_le Vector.length_toList.le

/-- Saturation is seen in the digits alone, though it is read from the slots. -/
theorem isSaturated_iff :
    digits.isSaturated = true ↔ digits.bytes = List.replicate maxIntegralDigits (octet '9') := by
  simp only [isSaturated, Bool.and_eq_true, decide_eq_true_eq, List.all_eq_true]
  constructor
  · rintro ⟨full, nines⟩
    rw [bytes_of_full full]
    exact List.eq_replicate_iff.mpr ⟨Vector.length_toList, nines⟩
  · intro nines
    have full : digits.length = maxIntegralDigits := by
      rw [← length_bytes, nines, List.length_replicate]
    rw [bytes_of_full full] at nines
    exact ⟨full, (List.eq_replicate_iff.mp nines).2⟩

end Saturation

section Runs

variable {store : IntegralDigits}

/-- The store after a number of values, each given by its encoding. -/
def reuse (store : IntegralDigits) (values : List UInt64) : IntegralDigits :=
  values.foldl (fun store bits => (split (Binary64.ofBits bits) store).1) store

/-- The same run, which fails at the first digit of any value without a slot. -/
def reuse? (store : IntegralDigits) (values : List UInt64) : Option IntegralDigits :=
  values.foldlM (fun store bits => Prod.fst <$> split? (Binary64.ofBits bits) store) store

theorem reuse?_eq (values : List UInt64) : reuse? store values = some (reuse store values) := by
  induction values generalizing store with
  | nil => rfl
  | cons bits later ih =>
      rw [reuse?, List.foldlM_cons, split?_eq]
      exact ih

theorem reuse_append (earlier : List UInt64) (bits : UInt64) :
    reuse store (earlier ++ [bits]) = (split (Binary64.ofBits bits) (reuse store earlier)).1 := by
  rw [reuse, List.foldl_append]
  rfl

end Runs

/-- Earlier values leave nothing that a later one shows, and no digit of any of them is written
outside the slots. -/
theorem reused_store_forgets (earlier : List UInt64) (bits : UInt64) :
    let value := Binary64.ofBits bits
    let used := split value (reuse {} earlier)
    let fresh := split value {}
    used.2 = fresh.2 ∧ used.1.bytes = fresh.1.bytes ∧ used.1.isSaturated = fresh.1.isSaturated ∧
      1 ≤ used.1.bytes.length ∧ used.1.bytes.length ≤ maxIntegralDigits ∧
      (∀ b ∈ used.1.bytes, isDigit b = true) ∧ reuse? {} (earlier ++ [bits]) = some used.1 := by
  intro value used fresh
  obtain ⟨bytes, rest⟩ := split_congr value (reuse {} earlier) {}
  obtain ⟨some, decimal⟩ := split_digits value (reuse {} earlier)
  have length := length_bytes used.1
  refine ⟨rest, bytes, ?_, ?_, ?_, decimal, ?_⟩
  · rw [Bool.eq_iff_iff, isSaturated_iff, isSaturated_iff, bytes]
  · rw [length]
    exact some
  · rw [length]
    exact used.1.length_le
  · rw [reuse?_eq, reuse_append]

/-- The slots themselves do keep what was there: a nine stands behind the only digit of one. -/
example : let store := (split Binary64.one saturated).1
    store.bytes = [octet '1'] ∧ store.slots[1] = octet '9' := by
  decide +kernel

end BoundedPrintf.IntegralDigits
