import Mathlib
import BoundedPrintf.FloatText.Digits
import BoundedPrintf.Proofs.Numeral.Spelling

/-! Decimal digits read back by place value. -/
namespace BoundedPrintf.Numeral

/-- The number that decimal digits stand for, the most significant digit first. -/
def number (text : Bytes) : Nat := Nat.ofDigits 10 (text.map digitValue).reverse

theorem digitValue_decimalDigit {digit : Nat} (small : digit ≤ 9) :
    digitValue (decimalDigit digit) = digit := by
  have all : ∀ digit : Fin 10, digitValue (decimalDigit digit) = digit := by decide
  exact all ⟨digit, by omega⟩

theorem number_append (front back : Bytes) :
    number (front ++ back) = number front * 10 ^ back.length + number back := by
  have length : (back.map digitValue).reverse.length = back.length := by
    rw [List.length_reverse, List.length_map]
  rw [number, List.map_append, List.reverse_append, Nat.ofDigits_append, length, number, number,
    Nat.add_comm, Nat.mul_comm]

theorem number_digit {digit : Nat} (small : digit ≤ 9) : number [decimalDigit digit] = digit := by
  rw [number, List.map_singleton, List.reverse_singleton, Nat.ofDigits_singleton,
    digitValue_decimalDigit small]

theorem number_zeros (count : Nat) : number (List.replicate count (octet '0')) = 0 := by
  have zero : digitValue (octet '0') = 0 := rfl
  rw [number, List.map_replicate, List.reverse_replicate, zero, Nat.ofDigits_replicate_zero]

/-- A numeral stands for its number. -/
theorem number_spelled (value : Nat) : number (spelled 10 false value) = value := by
  have read : (bytes false (places 10 value)).map digitValue = places 10 value := by
    have all : ∀ d : Fin 10, digitValue (digit false (UInt8.ofNat d)) = d := by decide
    have each : ∀ d ∈ places 10 value, digitValue (digit false (UInt8.ofNat d)) = d :=
      fun d member => all ⟨d, places_lt (by decide) d member⟩
    rw [bytes, List.map_map]
    exact (List.map_congr_left each).trans (List.map_id _)
  rw [← bytes_places_eq_spelled (by decide) (by decide), number, read, ofDigits_places]

end BoundedPrintf.Numeral
