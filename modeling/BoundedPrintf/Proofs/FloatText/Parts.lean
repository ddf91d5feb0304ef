import Mathlib
import BoundedPrintf.FloatText.Basic
import BoundedPrintf.Proofs.Numeral.Positional

/-! The parts of a float text. The whole part has at least one digit and nothing else, and an
exponent so few digits that the text has the size it is announced with. -/
namespace BoundedPrintf

namespace Binary64

variable {value : Binary64}

theorem leadingDigit_le (value : Binary64) : value.leadingDigit ≤ 9 := by
  unfold leadingDigit
  split
  · exact Nat.min_le_left _ _
  · exact le_rfl
  · exact Nat.zero_le 9

theorem stepsUp_le (value : Binary64) (limit : Nat) (power : Binary64) :
    stepsUp value limit power ≤ limit := by
  induction limit generalizing power with
  | zero => exact le_rfl
  | succ limit ih =>
      have more := ih (power * ten)
      rw [stepsUp]
      split <;> omega

theorem stepsDown_le (value : Binary64) (limit : Nat) (power : Binary64) :
    stepsDown value limit power ≤ limit := by
  induction limit generalizing power with
  | zero => exact le_rfl
  | succ limit ih =>
      have more := ih (power * ten)
      rw [stepsDown]
      split <;> omega

theorem natAbs_magnitude_le (value : Binary64) : value.magnitude.natAbs ≤ 509 := by
  have limit : infiniteTens = 309 := rfl
  rw [magnitude]
  generalize (if value.isNegative then -value else value) = value
  have up := stepsUp_le value infiniteTens one
  have down := stepsDown_le value infiniteTens one
  have far := stepsDown_le (value * scale) infiniteTens one
  split
  · exact Nat.zero_le _
  · split
    · omega
    · split <;> omega

theorem natAbs_adjust_le (scaled : Binary64 × Int) :
    (normalize.adjust scaled).2.natAbs ≤ scaled.2.natAbs + 1 := by
  rw [normalize.adjust]
  split
  · simp only
    omega
  · split
    · simp only
      omega
    · exact Nat.le_succ _

theorem natAbs_normalize_le (value : Binary64) (places : Nat) :
    (value.normalize places).2.natAbs ≤ 512 := by
  have least := natAbs_magnitude_le value
  rw [normalize]
  split
  · exact Nat.zero_le _
  · lift_lets
    intro exponent mantissa
    have once := natAbs_adjust_le (mantissa, exponent)
    have twice := natAbs_adjust_le (normalize.adjust (mantissa, exponent))
    generalize normalize.adjust (normalize.adjust (mantissa, exponent)) = moved at twice ⊢
    obtain ⟨scaled, shifted⟩ := moved
    simp only at once twice ⊢
    split <;> omega

end Binary64

theorem isDigit_decimalDigit {digit : Nat} (small : digit ≤ 9) : isDigit (decimalDigit digit) = true := by
  have all : ∀ digit : Fin 10, isDigit (decimalDigit digit) = true := by decide
  exact all ⟨digit, by omega⟩

namespace IntegralDigits

variable {digits : IntegralDigits} {byte : UInt8}

theorem bytes_push (room : digits.length < maxIntegralDigits) :
    (digits.push byte).bytes = digits.bytes ++ [byte] := by
  have inside : digits.length < (digits.slots.toList.set digits.length byte).length := by
    rwa [List.length_set, Vector.length_toList]
  rw [push, dif_pos room, bytes, bytes, Vector.toList_set, List.take_succ_eq_append_getElem inside,
    List.getElem_set_self, List.take_set_of_le le_rfl]

/-- All digits so far are digits. -/
def Decimal (digits : IntegralDigits) : Prop := ∀ b ∈ digits.bytes, isDigit b = true

theorem Decimal.push (decimal : digits.Decimal) (digit : isDigit byte = true) :
    (digits.push byte).Decimal := by
  by_cases room : digits.length < maxIntegralDigits
  · rw [Decimal, bytes_push room, List.forall_mem_append]
    exact ⟨decimal, List.forall_mem_singleton.mpr digit⟩
  · rw [IntegralDigits.push, dif_neg room]
    exact decimal

theorem length_push_pos (digits : IntegralDigits) (byte : UInt8) : 0 < (digits.push byte).length := by
  rw [push]
  split
  · exact Nat.succ_pos _
  · next full =>
      rw [maxIntegralDigits] at full
      omega

theorem length_divide_pos (value : Binary64) (place : Nat) (taken : Binary64)
    (digits : IntegralDigits) : 0 < (divide value place taken digits).1.length := by
  induction place generalizing taken digits with
  | zero => exact length_push_pos _ _
  | succ place ih => exact ih _ _

theorem Decimal.divide (decimal : digits.Decimal) (value : Binary64) (place : Nat)
    (taken : Binary64) : (divide value place taken digits).1.Decimal := by
  induction place generalizing taken digits with
  | zero => exact decimal.push (isDigit_decimalDigit (Binary64.leadingDigit_le _))
  | succ place ih => exact ih (decimal.push (isDigit_decimalDigit (Binary64.leadingDigit_le _))) _

theorem length_bytes (digits : IntegralDigits) : digits.bytes.length = digits.length := by
  rw [bytes, List.length_take, Vector.length_toList]
  exact Nat.min_eq_left digits.length_le

theorem decimal_clear (digits : IntegralDigits) : digits.clear.Decimal := by
  have none : digits.clear.bytes = [] := List.take_zero
  rw [Decimal, none]
  nofun

theorem decimal_saturated : saturated.Decimal := by
  intro b member
  have nines : saturated.slots.toList = List.replicate maxIntegralDigits (octet '9') :=
    Vector.toList_replicate
  have inside : b ∈ saturated.slots.toList := List.mem_of_mem_take member
  rw [nines] at inside
  rw [List.eq_of_mem_replicate inside]
  rfl

/-- A whole part has at least one digit and nothing else. -/
theorem split_digits (value : Binary64) (digits : IntegralDigits) :
    0 < (split value digits).1.length ∧ (split value digits).1.Decimal := by
  have clear := decimal_clear digits
  rw [split]
  split
  · exact ⟨length_push_pos _ _, clear.push rfl⟩
  · simp only
    split
    · exact ⟨Nat.succ_pos _, decimal_saturated⟩
    · exact ⟨length_divide_pos _ _ _ _, clear.divide _ _ _⟩

end IntegralDigits

namespace FloatText

variable {text : FloatText}

/-- A text begins with digits, and its exponent has at most three of them. -/
structure Regular (text : FloatText) : Prop where
  nonempty : text.integral ≠ []
  digits : ∀ b ∈ text.integral, isDigit b = true
  exponent : ∀ marker exponent, text.exponent = some (marker, exponent) → exponent.natAbs < 1000

theorem regular_ofMagnitude (value : Binary64) (precision : Nat) (alternate : Bool) :
    (ofMagnitude value precision alternate).Regular := by
  obtain ⟨positive, decimal⟩ := IntegralDigits.split_digits value {}
  refine ⟨?_, decimal, nofun⟩
  rw [← IntegralDigits.length_bytes] at positive
  exact List.ne_nil_of_length_pos positive

theorem Regular.strip (regular : text.Regular) (alternate : Bool) :
    (text.strip alternate).Regular :=
  ⟨regular.nonempty, regular.digits, regular.exponent⟩

theorem regular_exponential (value : Binary64) (precision : Nat) (upper alternate : Bool) :
    (exponential value precision upper alternate).Regular := by
  have small := Binary64.natAbs_normalize_le value precision
  rw [exponential]
  generalize value.normalize precision = normalized at small ⊢
  obtain ⟨nonempty, digits, -⟩ := regular_ofMagnitude normalized.1 precision alternate
  refine ⟨nonempty, digits, ?_⟩
  rintro _ _ ⟨⟩
  omega

section General

variable [Build] {value : Binary64} {precision : Nat} {upper alternate : Bool}

/-- The general style stops the program where a check finds the number of decimal places too large. -/
theorem general_eq_none_iff : general value precision upper alternate = none ↔
    Build.checksSums = true ∧ (value.normalize (max precision 1 - 1)).2 < 0 ∧
      -4 < (value.normalize (max precision 1 - 1)).2 ∧
      maxSize < max precision 1 - 1 + (value.normalize (max precision 1 - 1)).2.natAbs := by
  rw [general]
  generalize (value.normalize (max precision 1 - 1)).2 = x
  rw [Option.map_eq_none_iff]
  by_cases inside : -4 < x ∧ x < (max precision 1 : Nat)
  · rw [if_pos inside, Option.map_eq_none_iff, places?]
    by_cases whole : 0 ≤ x
    · rw [if_pos whole]
      exact iff_of_false nofun fun ⟨_, negative, _⟩ => absurd whole (Int.not_le.mpr negative)
    · rw [if_neg whole, sum?_eq_none_iff]
      exact ⟨fun ⟨checks, more⟩ => ⟨checks, Int.not_le.mp whole, inside.1, more⟩,
        fun ⟨checks, _, _, more⟩ => ⟨checks, more⟩⟩
  · rw [if_neg inside]
    refine iff_of_false nofun ?_
    rintro ⟨-, negative, least, -⟩
    exact inside ⟨least, by omega⟩

/-- Below the largest sizes the number of decimal places is exact. -/
theorem general_of_few (value : Binary64) (upper alternate : Bool) (few : precision ≤ maxSize - 2) :
    general value precision upper alternate = some (FloatText.strip
      (if -4 < (value.normalize (max precision 1 - 1)).2 ∧
          (value.normalize (max precision 1 - 1)).2 < (max precision 1 : Nat) then
        fixed value ((max precision 1 : Nat) - 1 - (value.normalize (max precision 1 - 1)).2).toNat alternate
      else exponential value (max precision 1 - 1) upper alternate) alternate) := by
  have word : maxSize = 2 ^ 64 - 1 := rfl
  rw [general]
  generalize (value.normalize (max precision 1 - 1)).2 = x
  by_cases inside : -4 < x ∧ x < (max precision 1 : Nat)
  · have places : places? (max precision 1) x =
        some ((max precision 1 : Nat) - 1 - x : Int).toNat := by
      rw [places?]
      split
      · congr 1
        omega
      · rw [sum?_of_le (by omega)]
        congr 1
        omega
    rw [if_pos inside, if_pos inside, places]
    rfl
  · rw [if_neg inside, if_neg inside]
    rfl

/-- A text of the general style is one of another style without the zeros at its end. -/
theorem plain_of_general (written : general value precision upper alternate = some text) :
    ∃ plain, text = plain.strip alternate ∧
      ((∃ places, plain = fixed value places alternate) ∨
        plain = exponential value (max precision 1 - 1) upper alternate) := by
  obtain ⟨plain, chosen, stripped⟩ := Option.map_eq_some_iff.mp written
  refine ⟨plain, stripped.symm, ?_⟩
  split at chosen
  · obtain ⟨places, -, fixed⟩ := Option.map_eq_some_iff.mp chosen
    exact .inl ⟨places, fixed.symm⟩
  · exact .inr (Option.some.inj chosen).symm

theorem regular_general (written : general value precision upper alternate = some text) :
    text.Regular := by
  obtain ⟨plain, rfl, ⟨places, rfl⟩ | rfl⟩ := plain_of_general written
  · exact (regular_ofMagnitude _ _ _).strip alternate
  · exact (regular_exponential _ _ _ _).strip alternate

end General

theorem length_exponentText {exponent : Int} (small : exponent.natAbs < 1000) :
    (exponentText exponent).length + 1 = exponentSize exponent := by
  have length : (Numeral.decimal exponent.natAbs).length = Nat.log 10 exponent.natAbs + 1 :=
    Numeral.length_digits (by decide) (by omega)
  rw [exponentText, exponentSize, List.length_cons]
  generalize exponent.natAbs = size at small length ⊢
  split
  · next single =>
      have none : Nat.log 10 size = 0 := Nat.log_of_lt single
      rw [if_pos (by omega), List.length_cons, length, none]
  · next several =>
      rw [length]
      split
      · next double =>
          have one : Nat.log 10 size = 1 := Nat.log_eq_of_pow_le_of_lt_pow (by omega) double
          rw [one]
      · next triple =>
          have two : Nat.log 10 size = 2 := Nat.log_eq_of_pow_le_of_lt_pow (by omega) small
          rw [two]

/-- A text has the size that it is announced with. -/
theorem Regular.sizes_chunks (regular : text.Regular) : Chunk.sizes text.chunks = text.size := by
  have point : (if text.point then [octet '.'] else []).length = text.point.toNat := by
    cases text.point <;> rfl
  rw [chunks, size]
  cases given : text.exponent with
  | none => simp only [Chunk.sizes, Chunk.size, List.append_nil, point]; omega
  | some exponent =>
      obtain ⟨marker, exponent⟩ := exponent
      have length := length_exponentText (regular.exponent marker exponent given)
      simp only [List.cons_append, List.nil_append, Chunk.sizes, Chunk.size, point,
        List.length_cons]
      omega

theorem Regular.exists_digit (regular : text.Regular) :
    ∃ digit rest, Chunk.flatten text.chunks = digit :: rest ∧ isDigit digit = true := by
  obtain ⟨digit, rest, begins⟩ := List.exists_cons_of_ne_nil regular.nonempty
  have first : isDigit digit = true := regular.digits digit (begins ▸ List.mem_cons_self)
  refine ⟨digit, rest ++ Chunk.flatten text.chunks.tail, ?_, first⟩
  have front : text.chunks = .text text.integral :: text.chunks.tail := rfl
  rw [front, begins]
  rfl

end FloatText

end BoundedPrintf
