import BoundedPrintf.Bytes

/-! Numerals of natural numbers in a given base, most significant digit first. Digits past nine are
the letters of one case. -/
namespace BoundedPrintf.Numeral

/-- The number of places that integer text has room for. -/
def maxPlaces : Nat := 64

/-- The byte of a digit. Past the letters the bytes follow on, modulo 256. -/
def digit (upper : Bool) (value : UInt8) : UInt8 :=
  if value < 10 then octet '0' + value else octet (if upper then 'A' else 'a') + (value - 10)

/-- Puts the digits of a number in front of the given bytes, with no digit for zero and at most the
given number of places. -/
def prepend (base : Nat) (upper : Bool) : Nat → Nat → Bytes → Bytes
  | 0, _, digits => digits
  | places + 1, value, digits =>
      if value = 0 then digits
      else prepend base upper places (value / base) (digit upper (UInt8.ofNat (value % base)) :: digits)

/-- The numeral of a number, `0` for zero. -/
def digits (base value : Nat) (upper : Bool := false) : Bytes :=
  if value = 0 then [octet '0'] else prepend base upper maxPlaces value []

def decimal (value : Nat) : Bytes := digits 10 value

/-- Writes a numeral at the end of a text of 64 bytes and answers its length. There is none in base
zero, but for zero itself. -/
def overlay? (value base : UInt64) (upper : Bool) (text : Vector UInt8 maxPlaces) :
    Option (Nat × Vector UInt8 maxPlaces) :=
  if base = 0 ∧ value ≠ 0 then none
  else
    let numeral := digits base.toNat value.toNat upper
    let start := maxPlaces - numeral.length
    some (numeral.length, Vector.ofFn fun i => (if i < start then none else numeral[i - start]?).getD text[i])

theorem length_prepend_le (base : Nat) (upper : Bool) (places value : Nat) (digits : Bytes) :
    (prepend base upper places value digits).length ≤ digits.length + places := by
  induction places generalizing value digits with
  | zero => simp [prepend]
  | succ places ih =>
      unfold prepend
      split
      · omega
      · have := ih (value / base) (digit upper (UInt8.ofNat (value % base)) :: digits)
        simp only [List.length_cons] at this
        omega

end BoundedPrintf.Numeral
