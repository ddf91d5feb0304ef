import Mathlib
import BoundedPrintf.Proofs.Numeral.Positional

/-! Numerals of bases up to sixteen, as the core library spells numbers. -/
namespace BoundedPrintf.Numeral

/-- The digits of a number that the core library writes, in letters of one case. -/
def spelled (base : Nat) (upper : Bool) (value : Nat) : Bytes :=
  (Nat.toDigits base value).map fun c => octet (if upper then c.toUpper else c)

variable {base : Nat} {value : Nat}

theorem digit_eq_octet (upper : Bool) (small : value < 16) :
    digit upper (UInt8.ofNat value) =
      octet (if upper then (Nat.digitChar value).toUpper else Nat.digitChar value) := by
  have all : ∀ (upper : Bool) (value : Fin 16), digit upper (UInt8.ofNat value) =
      octet (if upper then (Nat.digitChar value).toUpper else Nat.digitChar value) := by
    decide
  exact all upper ⟨value, small⟩

theorem places_of_lt (small : value < base) : places base value = [value] := by
  rw [places]
  split
  case isTrue zero => rw [zero]
  case isFalse positive =>
    rw [Nat.digits_of_lt base value positive small, List.reverse_singleton]

theorem places_of_le (least : 2 ≤ base) (large : base ≤ value) :
    places base value = places base (value / base) ++ [value % base] := by
  have positive : 0 < value := by omega
  have more : 0 < value / base := Nat.div_pos large (by omega)
  rw [places, places, if_neg positive.ne', if_neg more.ne', Nat.digits_def' least positive,
    List.reverse_cons]

theorem toDigits_eq_map_places (least : 2 ≤ base) (value : Nat) :
    Nat.toDigits base value = (places base value).map Nat.digitChar := by
  induction value using Nat.strong_induction_on with
  | _ value ih =>
      rcases Nat.lt_or_ge value base with small | large
      · rw [Nat.toDigits_of_lt_base small, places_of_lt small, List.map_singleton]
      · have shorter : value / base < value := Nat.div_lt_self (by omega) (by omega)
        rw [Nat.toDigits_of_base_le (by omega) large, ih _ shorter, places_of_le least large,
          List.map_append, List.map_singleton]

theorem bytes_places_eq_spelled (least : 2 ≤ base) (most : base ≤ 16) (upper : Bool) (value : Nat) :
    bytes upper (places base value) = spelled base upper value := by
  rw [spelled, toDigits_eq_map_places least, bytes, List.map_map]
  apply List.map_congr_left
  intro d member
  have digit := places_lt least d member
  exact digit_eq_octet upper (by omega)

theorem digits_eq_spelled (least : 2 ≤ base) (most : base ≤ 16) (upper : Bool)
    (small : value < 2 ^ 64) : digits base value upper = spelled base upper value := by
  rw [digits_eq_bytes least small, bytes_places_eq_spelled least most]

theorem decimal_eq_spelled (small : value < 2 ^ 64) : decimal value = spelled 10 false value :=
  digits_eq_spelled (by decide) (by decide) false small

end BoundedPrintf.Numeral
