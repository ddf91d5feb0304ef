import Mathlib
import BoundedPrintf.Numeral

/-! Numerals by place value. The digits that are written are those of the number in its base, so a
reader who adds them up by their places gets the number back, behind any zeros. -/
namespace BoundedPrintf.Numeral

/-- The digit that a byte stands for in a base, where digits past nine are letters of one case. -/
def digitOf? (base : Nat) (upper : Bool) (byte : UInt8) : Option Nat :=
  let first := octet (if upper then 'A' else 'a')
  let last := octet (if upper then 'Z' else 'z')
  let digit :=
    if isDigit byte then some (digitValue byte)
    else if first ≤ byte ∧ byte ≤ last then some (10 + (byte - first).toNat)
    else none
  digit.filter (· < base)

/-- The number that a text of one or more digits stands for. -/
def value? (base : Nat) (upper : Bool) (text : Bytes) : Option Nat :=
  if text = [] then none
  else (text.mapM (digitOf? base upper)).map fun digits => Nat.ofDigits base digits.reverse

/-- The bytes of digits, in the same order. -/
def bytes (upper : Bool) (digits : List Nat) : Bytes :=
  digits.map fun value => digit upper (UInt8.ofNat value)

/-- The digits of a number, the most significant one first. Zero has one digit. -/
def places (base value : Nat) : List Nat :=
  if value = 0 then [0] else (Nat.digits base value).reverse

variable {base : Nat} {upper : Bool} {value : Nat}

theorem digitOf?_digit (most : base ≤ 36) (small : value < base) :
    digitOf? base upper (digit upper (UInt8.ofNat value)) = some value := by
  have all : ∀ (upper : Bool) (value : Fin 36),
      digitOf? 36 upper (digit upper (UInt8.ofNat value)) = some value.val := by
    decide
  have read := all upper ⟨value, by omega⟩
  simp only [digitOf?, Option.filter_eq_some_iff] at read ⊢
  exact ⟨read.1, by simpa using small⟩

theorem mapM_bytes (most : base ≤ 36) {digits : List Nat} (small : ∀ d ∈ digits, d < base) :
    (bytes upper digits).mapM (digitOf? base upper) = some digits := by
  induction digits with
  | nil => rfl
  | cons first rest ih =>
      have head := @digitOf?_digit base upper first most (small first List.mem_cons_self)
      have tail := ih fun d member => small d (List.mem_cons_of_mem first member)
      rw [bytes, List.map_cons, List.mapM_cons, head]
      rw [bytes] at tail
      rw [tail]
      rfl

theorem prepend_eq_bytes (least : 2 ≤ base) (room : Nat) (small : value < base ^ room)
    (tail : Bytes) :
    prepend base upper room value tail = bytes upper (Nat.digits base value).reverse ++ tail := by
  induction room generalizing value tail with
  | zero =>
      obtain rfl : value = 0 := by simpa using small
      rw [Nat.digits_zero]
      rfl
  | succ room ih =>
      rw [prepend]
      split
      case isTrue zero =>
        rw [zero, Nat.digits_zero]
        rfl
      case isFalse positive =>
        have shorter : value / base < base ^ room :=
          Nat.div_lt_of_lt_mul (by rwa [Nat.pow_succ'] at small)
        rw [ih shorter, Nat.digits_def' least (Nat.pos_of_ne_zero positive)]
        simp [bytes]

theorem digits_eq_bytes (least : 2 ≤ base) (small : value < 2 ^ 64) :
    digits base value upper = bytes upper (places base value) := by
  rw [digits, places]
  split
  · cases upper <;> rfl
  · have fits : value < base ^ maxPlaces :=
      Nat.lt_of_lt_of_le small (Nat.pow_le_pow_left least maxPlaces)
    rw [prepend_eq_bytes least maxPlaces fits, List.append_nil]

theorem length_digits (least : 2 ≤ base) (small : value < 2 ^ 64) :
    (digits base value upper).length = Nat.log base value + 1 := by
  rw [digits_eq_bytes least small, bytes, List.length_map, places]
  split
  case isTrue zero => rw [zero, Nat.log_zero_right, List.length_singleton]
  case isFalse positive => rw [List.length_reverse, Nat.length_digits base value least positive]

theorem places_lt (least : 2 ≤ base) : ∀ d ∈ places base value, d < base := by
  intro d member
  rw [places] at member
  split at member
  · obtain rfl := List.mem_singleton.mp member
    omega
  · exact Nat.digits_lt_base least (List.mem_reverse.mp member)

theorem places_ne_nil (base value : Nat) : places base value ≠ [] := by
  rw [places]
  split
  case isTrue => nofun
  case isFalse positive =>
    rw [ne_eq, List.reverse_eq_nil_iff]
    exact Nat.digits_ne_nil_iff_ne_zero.mpr positive

theorem ofDigits_places (base value : Nat) : Nat.ofDigits base (places base value).reverse = value := by
  rw [places]
  split
  case isTrue zero => simp [zero]
  case isFalse => rw [List.reverse_reverse, Nat.ofDigits_digits]

theorem zeros_places_lt (least : 2 ≤ base) (zeros : Nat) :
    ∀ d ∈ List.replicate zeros 0 ++ places base value, d < base := by
  intro d member
  rcases List.mem_append.mp member with zero | digit
  · rw [List.eq_of_mem_replicate zero]
    omega
  · exact places_lt least d digit

/-- A numeral behind zeros, as the bytes of digits. -/
theorem zeros_digits_eq_bytes (least : 2 ≤ base) (small : value < 2 ^ 64) (zeros : Nat) :
    List.replicate zeros (octet '0') ++ digits base value upper =
      bytes upper (List.replicate zeros 0 ++ places base value) := by
  rw [digits_eq_bytes least small, bytes, bytes, List.map_append, List.map_replicate]
  cases upper <;> rfl

section Reading

variable (least : 2 ≤ base) (small : value < 2 ^ 64) (upper : Bool) (zeros : Nat)
include least small

theorem zeros_digits_ne_nil :
    List.replicate zeros (octet '0') ++ digits base value upper ≠ [] := by
  rw [zeros_digits_eq_bytes least small]
  simp [bytes, places_ne_nil]

theorem mapM_zeros_digits (most : base ≤ 36) :
    (List.replicate zeros (octet '0') ++ digits base value upper).mapM (digitOf? base upper) =
      some (List.replicate zeros 0 ++ places base value) := by
  rw [zeros_digits_eq_bytes least small]
  exact mapM_bytes most (zeros_places_lt least zeros)

/-- A numeral stands for its number, whatever number of zeros leads it. -/
theorem value?_zeros_digits (most : base ≤ 36) :
    value? base upper (List.replicate zeros (octet '0') ++ digits base value upper) = some value := by
  rw [value?, if_neg (zeros_digits_ne_nil least small upper zeros),
    mapM_zeros_digits least small upper zeros most, Option.map_some, List.reverse_append,
    List.reverse_replicate, Nat.ofDigits_append_replicate_zero, ofDigits_places]

theorem digitOf?_of_mem (most : base ≤ 36) :
    ∀ b ∈ List.replicate zeros (octet '0') ++ digits base value upper,
      ∃ d, digitOf? base upper b = some d := by
  intro b member
  rw [zeros_digits_eq_bytes least small] at member
  obtain ⟨d, digit, rfl⟩ := List.mem_map.mp member
  exact ⟨d, digitOf?_digit most (zeros_places_lt least zeros d digit)⟩

end Reading

end BoundedPrintf.Numeral
