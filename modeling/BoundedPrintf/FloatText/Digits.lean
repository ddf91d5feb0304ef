import BoundedPrintf.Binary64.Magnitude
import BoundedPrintf.Text.Quoted
import BoundedPrintf.Text.Utf8

/-! Decimal digits of a magnitude, most significant first: the whole part by long division from the
top power of ten down, the fraction by repeated multiplication. -/
namespace BoundedPrintf

/-- The number of digits kept of a whole part. -/
def maxIntegralDigits : Nat := 99

/-- The number of digits taken from a fraction. -/
def maxFractionDigits : Nat := 29

/-- The byte of a decimal digit. -/
def decimalDigit (value : Nat) : UInt8 := octet '0' + UInt8.ofNat value

/-- Storage for the digits of a whole part, which can be used again. Slots past the length hold what
earlier uses left there. -/
structure IntegralDigits where
  slots : Vector UInt8 maxIntegralDigits := Vector.replicate _ (octet '0')
  length : Nat := 0
  length_le : length ≤ maxIntegralDigits := by decide

namespace IntegralDigits

def bytes (digits : IntegralDigits) : Bytes := digits.slots.toList.take digits.length

/-- Every slot is in use and holds a nine, which stands for a value with too many digits. -/
def isSaturated (digits : IntegralDigits) : Bool :=
  digits.length = maxIntegralDigits && digits.slots.toList.all (· = octet '9')

def clear (digits : IntegralDigits) : IntegralDigits := { digits with length := 0, length_le := Nat.zero_le _ }

/-- Appends a digit while there is a free slot. -/
def push (digits : IntegralDigits) (byte : UInt8) : IntegralDigits :=
  if room : digits.length < maxIntegralDigits then
    { slots := digits.slots.set digits.length byte room, length := digits.length + 1, length_le := room }
  else digits

def saturated : IntegralDigits :=
  { slots := Vector.replicate _ (octet '9'), length := maxIntegralDigits, length_le := Nat.le_refl _ }

/-- Long division from a place down to the units. `taken` is the sum of the digits so far, and each
digit is read from what is left of the value. -/
def divide (value : Binary64) : Nat → Binary64 → IntegralDigits → IntegralDigits × Binary64
  | place, taken, digits =>
      let power := Binary64.powerOfTen place
      let digit := ((value - taken) / power).leadingDigit
      let taken := taken + Binary64.ofNat digit * power
      let digits := digits.push (decimalDigit digit)
      match place with
      | 0 => (digits, taken)
      | place + 1 => divide value place taken digits

/-- Splits a magnitude into the digits of its whole part, which replace those in the store, and its
fraction. A value with more digits than there are slots becomes all nines without a fraction; one
below one, an infinity and a NaN have the whole part `0`. -/
def split (value : Binary64) (digits : IntegralDigits) : IntegralDigits × Binary64 :=
  let digits := digits.clear
  if value.lt Binary64.one || !value.isFinite then
    (digits.push (octet '0'), if value.isPositive && value.lt Binary64.one then value else Binary64.zero)
  else
    let top := value.magnitude.natAbs
    if maxIntegralDigits ≤ top then (saturated, Binary64.zero)
    else
      let (digits, taken) := divide value top Binary64.zero digits
      let fraction := value - taken
      (digits, if fraction.isPositive then fraction else Binary64.zero)

/-- The digits in the form in which a value of a named type is shown. -/
def describe (digits : IntegralDigits) : String :=
  "IntegralDigits(" ++ Text.quote ((Text.decode? digits.bytes).getD "?") ++ ")"

end IntegralDigits

/-- So many digits of a fraction below one. -/
def fractionDigits (fraction : Binary64) : Nat → Bytes
  | 0 => []
  | count + 1 =>
      let scaled := fraction * Binary64.ten
      let digit := scaled.leadingDigit
      decimalDigit digit :: fractionDigits (scaled - Binary64.ofNat digit) count

end BoundedPrintf
