import Mathlib
import BoundedPrintf.Json.Printer
import BoundedPrintf.Json.Reader

/-! Integers in decimal digits. What follows an integer must not go on with the number. -/
namespace BoundedPrintf.Json

/-- A text that does not go on with a number in front of it. -/
def Ends (rest : List Char) : Prop := ∀ c ∈ rest.head?, ¬ c.isDigit ∧ c ≠ '.' ∧ c ≠ 'e' ∧ c ≠ 'E'

variable {rest : List Char} {value : Nat}

theorem isDigit_toDigits (value : Nat) : ∀ c ∈ Nat.toDigits 10 value, c.isDigit := fun _ =>
  Nat.isDigit_of_mem_toDigits (by decide) (by decide)

theorem readDigits_toDigits (value : Nat) (ends : Ends rest) :
    readDigits (Nat.toDigits 10 value ++ rest) = some (Nat.toDigits 10 value, rest) := by
  have none : rest.takeWhile Char.isDigit = [] ∧ rest.dropWhile Char.isDigit = rest := by
    cases rest with
    | nil => exact ⟨rfl, rfl⟩
    | cons c rest =>
        obtain ⟨noDigit, -⟩ := ends c rfl
        simp [noDigit]
  simp [readDigits, List.takeWhile_append_of_pos (isDigit_toDigits value),
    List.dropWhile_append_of_pos (isDigit_toDigits value), none]

theorem readFraction_of_ends (ends : Ends rest) : readFraction rest = some (none, rest) := by
  cases rest with
  | nil => rfl
  | cons c rest =>
      obtain ⟨-, noPoint, -⟩ := ends c rfl
      unfold readFraction
      split
      · next same => exact absurd (List.cons.inj same).1 noPoint
      · rfl

theorem readExponent_of_ends (ends : Ends rest) : readExponent rest = some (none, rest) := by
  cases rest with
  | nil => rfl
  | cons c rest =>
      obtain ⟨-, -, lower, upper⟩ := ends c rfl
      unfold readExponent
      split
      · next same => exact absurd (List.cons.inj same).1 lower
      · next same => exact absurd (List.cons.inj same).1 upper
      · rfl

theorem head?_toDigits (positive : 0 < value) : (Nat.toDigits 10 value).head? ≠ some '0' := by
  induction value using Nat.strongRecOn with
  | ind value ih =>
      rcases Nat.lt_or_ge value 10 with small | large
      · rw [Nat.toDigits_of_lt_base small]
        interval_cases value <;> decide
      · rw [Nat.toDigits_of_base_le (by decide) large,
          List.head?_append_of_ne_nil _ Nat.toDigits_ne_nil]
        exact ih (value / 10) (by omega) (by omega)

theorem readNumber_toDigits (negative : Bool) (value : Nat) (ends : Ends rest) :
    readNumber negative (Nat.toDigits 10 value ++ rest) =
      some (ofWhole negative (Nat.toDigits 10 value), rest) := by
  have proper : (Nat.toDigits 10 value).head? = some '0' → (Nat.toDigits 10 value).length = 1 := by
    rcases Nat.eq_zero_or_pos value with rfl | positive
    · exact fun _ => rfl
    · exact fun leading => absurd leading (head?_toDigits positive)
  simpa [readNumber, readDigits_toDigits value ends, readFraction_of_ends ends,
    readExponent_of_ends ends] using proper

theorem foldl_toDigits (value : Nat) :
    (Nat.toDigits 10 value).foldl (fun value c => 10 * value + Scaled.digit c) 0 = value :=
  Nat.ofDigitChars_toDigits (by decide) (by decide)

theorem ofWhole_toDigits (small : value ≤ maxSize) :
    ofWhole false (Nat.toDigits 10 value) = .integer value := by
  simp [ofWhole, foldl_toDigits, small]

theorem ofWhole_negative_toDigits (positive : 0 < value) (small : value ≤ 2 ^ 63) :
    ofWhole true (Nat.toDigits 10 value) = .integer (-value) := by
  rw [ofWhole, if_pos rfl]
  simp only [foldl_toDigits]
  rw [if_pos ⟨positive, small⟩]

end BoundedPrintf.Json
