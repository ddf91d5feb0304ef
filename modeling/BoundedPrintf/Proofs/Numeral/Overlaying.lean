import Mathlib
import BoundedPrintf.Proofs.Numeral.Positional

/-! Numerals at the end of a text. In every base from two on the room of the text is enough for every
number, so a numeral is never cut. It has no leading zero, and what stands in front of it is kept. -/
namespace BoundedPrintf.Numeral

/-- The last bytes of a text are a numeral, and the others are those of an earlier text. -/
structure Overlaid (base value : Nat) (upper : Bool) (text : Vector UInt8 maxPlaces) (size : Nat)
    (result : Vector UInt8 maxPlaces) : Prop where
  nonempty : 1 ≤ size
  fits : size ≤ maxPlaces
  /-- Every byte of the numeral is a digit of the base in letters of the chosen case. -/
  digits : ∀ b ∈ result.toList.drop (maxPlaces - size), ∃ d < base, digitOf? base upper b = some d
  /-- The digits stand for the number by their places. -/
  reads : value? base upper (result.toList.drop (maxPlaces - size)) = some value
  canonical : result[maxPlaces - size]? = some (octet '0') → value = 0 ∧ size = 1
  kept : ∀ i, i < maxPlaces - size → result[i]? = text[i]?

section Places

variable {base value : Nat} {upper : Bool}

theorem length_digits_le (base value : Nat) (upper : Bool) :
    (digits base value upper).length ≤ maxPlaces := by
  rw [digits]
  split
  · decide
  · simpa using length_prepend_le base upper maxPlaces value []

/-- The first digit of a number other than zero is not zero. -/
theorem head?_places_ne_zero (positive : value ≠ 0) :
    (places base value).head? ≠ some 0 := by
  have nonempty : Nat.digits base value ≠ [] := Nat.digits_ne_nil_iff_ne_zero.mpr positive
  rw [places, if_neg positive, List.head?_reverse, List.getLast?_eq_some_getLast nonempty]
  intro zero
  exact Nat.getLast_digit_ne_zero base positive (Option.some.inj zero)

/-- Only the numeral of zero begins with a zero. -/
theorem head?_digits (least : 2 ≤ base) (most : base ≤ 36) (small : value < 2 ^ 64)
    (zero : (digits base value upper).head? = some (octet '0')) : value = 0 := by
  by_contra positive
  rw [digits_eq_bytes least small, bytes, List.head?_map] at zero
  obtain ⟨d, first, byte⟩ := Option.map_eq_some_iff.mp zero
  have read := @digitOf?_digit base upper d most
    (places_lt least d (List.mem_of_mem_head? first))
  have none : digitOf? base upper (octet '0') = some 0 := by
    have digit : isDigit (octet '0') = true ∧ digitValue (octet '0') = 0 := ⟨rfl, rfl⟩
    have some : 0 < base := by omega
    simp [digitOf?, digit, some]
  rw [byte, none] at read
  obtain rfl : 0 = d := Option.some.inj read
  exact head?_places_ne_zero positive first

end Places

section Overlay

/-- A text with a numeral over its end. -/
def overlaid (text : Vector UInt8 maxPlaces) (numeral : Bytes) : Vector UInt8 maxPlaces :=
  Vector.ofFn fun i =>
    (if i < maxPlaces - numeral.length then none
      else numeral[i - (maxPlaces - numeral.length)]?).getD (text.get i)

variable {text : Vector UInt8 maxPlaces} {numeral : Bytes}

theorem getElem_overlaid {i : Nat} (inside : i < maxPlaces) : (overlaid text numeral)[i] =
    (if i < maxPlaces - numeral.length then none
      else numeral[i - (maxPlaces - numeral.length)]?).getD text[i] :=
  Vector.getElem_ofFn inside

theorem toList_overlaid (text : Vector UInt8 maxPlaces) (fits : numeral.length ≤ maxPlaces) :
    (overlaid text numeral).toList = text.toList.take (maxPlaces - numeral.length) ++ numeral := by
  have front : (text.toList.take (maxPlaces - numeral.length)).length = maxPlaces - numeral.length := by
    rw [List.length_take, Vector.length_toList]
    exact Nat.min_eq_left (Nat.sub_le _ _)
  apply List.ext_getElem
  · rw [Vector.length_toList, List.length_append, front]
    omega
  · intro i inside _
    rw [Vector.length_toList] at inside
    rw [Vector.getElem_toList, getElem_overlaid inside]
    rcases Nat.lt_or_ge i (maxPlaces - numeral.length) with before | behind
    · rw [List.getElem_append_left (before.trans_eq front.symm), if_pos before]
      simp
    · have place : i - (maxPlaces - numeral.length) < numeral.length := by omega
      rw [List.getElem_append_right (front.trans_le behind), if_neg behind.not_gt,
        List.getElem?_eq_getElem place]
      simp [front]

theorem overlay?_eq {value base : UInt64} (nonzero : base ≠ 0) (upper : Bool)
    (text : Vector UInt8 maxPlaces) : overlay? value base upper text =
      some ((digits base.toNat value.toNat upper).length,
        overlaid text (digits base.toNat value.toNat upper)) := by
  rw [overlay?, if_neg fun zero => nonzero zero.1]
  rfl

end Overlay

section Numerals

variable {base value : Nat} (least : 2 ≤ base) (most : base ≤ 36) (small : value < 2 ^ 64)
include least most small

theorem digits_denote (upper : Bool) :
    ∀ b ∈ digits base value upper, ∃ d < base, digitOf? base upper b = some d := by
  intro b member
  rw [digits_eq_bytes least small] at member
  obtain ⟨d, digit, rfl⟩ := List.mem_map.mp member
  have below := places_lt least d digit
  exact ⟨d, below, digitOf?_digit most below⟩

theorem overlaid_digits (upper : Bool) (text : Vector UInt8 maxPlaces) :
    Overlaid base value upper text (digits base value upper).length
      (overlaid text (digits base value upper)) := by
  have fits := length_digits_le base value upper
  have length := @length_digits base upper value least small
  have written := toList_overlaid text fits
  have last : (overlaid text (digits base value upper)).toList.drop
      (maxPlaces - (digits base value upper).length) = digits base value upper := by
    rw [written]
    apply List.drop_left'
    rw [List.length_take, Vector.length_toList]
    exact Nat.min_eq_left (Nat.sub_le _ _)
  constructor
  case nonempty => omega
  case fits => exact fits
  case digits =>
    rw [last]
    exact digits_denote least most small upper
  case reads =>
    rw [last]
    simpa using value?_zeros_digits least small upper 0 most
  case canonical =>
    intro zero
    rw [← Vector.getElem?_toList, ← List.head?_drop, last] at zero
    have none := head?_digits least most small zero
    rw [length, none, Nat.log_zero_right]
    exact ⟨rfl, rfl⟩
  case kept =>
    intro i front
    have inside : i < maxPlaces := by omega
    rw [Vector.getElem?_eq_getElem inside, Vector.getElem?_eq_getElem inside, getElem_overlaid inside,
      if_pos front, Option.getD_none]

end Numerals

/-- In every base up to 36 a numeral finds room at the end of a text, whatever the number. -/
theorem numeral_overlaid (value base : UInt64) (upper : Bool) (text : Vector UInt8 maxPlaces)
    (least : 2 ≤ base) (most : base ≤ 36) : ∃ size result,
      overlay? value base upper text = some (size, result) ∧
      Overlaid base.toNat value.toNat upper text size result := by
  have two : 2 ≤ base.toNat := UInt64.le_iff_toNat_le.mp least
  have few : base.toNat ≤ 36 := UInt64.le_iff_toNat_le.mp most
  have nonzero : base ≠ 0 := by
    rintro rfl
    cases two
  exact ⟨_, _, overlay?_eq nonzero upper text, overlaid_digits two few value.toNat_lt upper text⟩

/-- The largest number takes all the room in base two. -/
theorem largest_number_overlaid :
    let text : Vector UInt8 maxPlaces := Vector.replicate _ (octet '.')
    (2 : UInt64) ≤ 2 ∧ (2 : UInt64) ≤ 36 ∧ ∃ result,
      overlay? 0xFFFFFFFFFFFFFFFF 2 false text = some (maxPlaces, result) ∧
        Overlaid 2 (2 ^ 64 - 1) false text maxPlaces result := by
  intro text
  have least : (2 : UInt64) ≤ 2 := by decide
  have most : (2 : UInt64) ≤ 36 := by decide
  have full : (digits 2 (2 ^ 64 - 1) false).length = maxPlaces := by decide
  obtain ⟨size, result, written, overlaid⟩ :=
    numeral_overlaid 0xFFFFFFFFFFFFFFFF 2 false text least most
  have same := written.symm.trans (overlay?_eq (by decide) false text)
  obtain rfl : size = maxPlaces := (Prod.mk.inj (Option.some.inj same)).1.trans full
  exact ⟨least, most, result, written, overlaid⟩

end BoundedPrintf.Numeral
