import BoundedPrintf.Build
import BoundedPrintf.Chunk
import BoundedPrintf.Numeral
import BoundedPrintf.FloatText.Digits

/-! The text of a magnitude in fixed, exponential or general style. Zeros past the digits that a
fraction yields are kept as a count. -/
namespace BoundedPrintf

structure FloatText where
  integral : Bytes
  fraction : Bytes
  trailingZeros : Nat
  point : Bool
  /-- The marker and the value of the exponent. -/
  exponent : Option (UInt8 × Int) := none
  deriving DecidableEq, Repr

namespace FloatText

/-- The digits of a magnitude that has been rounded already. -/
def ofMagnitude (value : Binary64) (precision : Nat) (alternate : Bool) : FloatText :=
  let (digits, rest) := IntegralDigits.split value {}
  let fraction := fractionDigits rest (min precision maxFractionDigits)
  { integral := digits.bytes
    fraction
    trailingZeros := precision - fraction.length
    point := 0 < precision || alternate }

/-- Drops the zeros at the end of the fraction, and the point with the last digit unless the
alternate form keeps it. -/
def strip (text : FloatText) (alternate : Bool) : FloatText :=
  let fraction := (text.fraction.reverse.dropWhile (· = octet '0')).reverse
  { text with fraction, trailingZeros := 0, point := !fraction.isEmpty || alternate }

/-- The exponent has a sign and at least two digits. -/
def exponentText (exponent : Int) : Bytes :=
  octet (if exponent < 0 then '-' else '+') ::
    (if exponent.natAbs < 10 then octet '0' :: Numeral.decimal exponent.natAbs else Numeral.decimal exponent.natAbs)

def chunks (text : FloatText) : List Chunk :=
  [.text text.integral, .text (if text.point then [octet '.'] else []), .text text.fraction,
    .fill (octet '0') text.trailingZeros] ++
  match text.exponent with
  | none => []
  | some (marker, exponent) => [.text (marker :: exponentText exponent)]

/-- The number of bytes that an exponent is announced with. Its marker and its sign count, and it has
two digits or three. -/
def exponentSize (exponent : Int) : Nat := 2 + if exponent.natAbs < 100 then 2 else 3

/-- The number of bytes that the text is announced with before it is written. -/
def size (text : FloatText) : Nat :=
  text.integral.length + text.point.toNat + text.fraction.length + text.trailingZeros +
  match text.exponent with
  | none => 0
  | some (_, exponent) => exponentSize exponent

/-- The announced number of bytes, as far as a machine word can tell. -/
def length (text : FloatText) : Nat := min text.size maxSize

def isEmpty (text : FloatText) : Bool := text.length = 0

/-- Digits up to the given number of decimal places. -/
def fixed (value : Binary64) (precision : Nat) (alternate : Bool) : FloatText :=
  ofMagnitude (value.roundAt precision) precision alternate

/-- One digit before the point and a power of ten. -/
def exponential (value : Binary64) (precision : Nat) (upper alternate : Bool) : FloatText :=
  let (mantissa, exponent) := value.normalize precision
  { ofMagnitude mantissa precision alternate with exponent := some (octet (if upper then 'E' else 'e'), exponent) }

/-- How many decimal places leave so many significant digits to a number with this exponent. -/
def places? [Build] (significant : Nat) (exponent : Int) : Option Nat :=
  if 0 ≤ exponent then some (significant - 1 - exponent.natAbs) else sum? (significant - 1) exponent.natAbs

/-- So many significant digits, in fixed style when the exponent of the exponential style lies above
-4 and below their number. Zeros at the end of the fraction are dropped. There is no text where the
number of decimal places stops the program. -/
def general [Build] (value : Binary64) (precision : Nat) (upper alternate : Bool) : Option FloatText :=
  let significant := max precision 1
  let exponent := (value.normalize (significant - 1)).2
  let plain :=
    if -4 < exponent ∧ exponent < significant then (places? significant exponent).map (fixed value · alternate)
    else some (exponential value (significant - 1) upper alternate)
  plain.map (·.strip alternate)

end FloatText

end BoundedPrintf
