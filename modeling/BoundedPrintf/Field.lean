import BoundedPrintf.FloatText.Basic
import BoundedPrintf.Directive.Basic

/-! The field that a value makes under a directive, as a sequence of chunks. A field is `[spaces]
[sign] [mark] [zeros] body [spaces]`, and its width counts every byte. Zeros fill up between mark
and body; a left-justified field is filled with spaces on its right, always. A double has no field
where its text stops the program. -/
namespace BoundedPrintf.Field

/-- The parts of a field but for the padding. `mark` is the prefix of a base, and `zeroFill` says
that zeros may take the place of spaces. The body is announced with its size, since the padding is
found before the body is written. -/
structure Layout where
  sign : Bytes := []
  mark : Bytes := []
  leadingZeros : Nat := 0
  body : List Chunk
  bodySize : Nat
  zeroFill : Bool := false

namespace Layout

/-- The announced number of bytes without padding. It may exceed a machine word, which no width
does, so nothing is lost where the sum is cut to a word. -/
def contentSize (layout : Layout) : Nat :=
  layout.sign.length + layout.mark.length + layout.leadingZeros + layout.bodySize

/-- The field, filled up to the width of the directive. -/
def chunks (layout : Layout) (spec : Spec) : List Chunk :=
  let padding := spec.minimumWidth - layout.contentSize
  let left := spec.flags.leftJustified
  let zeros := layout.zeroFill && !left
  [.fill (octet ' ') (if left || zeros then 0 else padding), .text layout.sign, .text layout.mark,
    .fill (octet '0') (if zeros then padding else 0), .fill (octet '0') layout.leadingZeros] ++
  layout.body ++ [.fill (octet ' ') (if left then padding else 0)]

end Layout

/-- The sign of a number under the flags. Zero gets none. -/
def sign (negative positive : Bool) (flags : Flags) : Bytes :=
  if negative then [octet '-']
  else if positive && flags.forcesSign then [octet '+']
  else if positive && flags.space then [octet ' ']
  else []

/-- How many zeros stand before so many digits. The precision of an integer is its least number of
digits. -/
def zerosBefore (spec : Spec) (digits : Nat) : Nat := spec.precision.value?.getD 0 - digits

/-- A flag `0` fills an integer with zeros unless a precision is given. -/
def fillsInteger (spec : Spec) : Bool := spec.flags.zero && spec.precision.value?.isNone

/-- A signed decimal number. -/
def signed (value : Int) (spec : Spec) : List Chunk :=
  let digits := Numeral.decimal value.natAbs
  Layout.chunks
    { sign := sign (value < 0) (0 < value) spec.flags
      leadingZeros := zerosBefore spec digits.length
      body := [.text digits]
      bodySize := digits.length
      zeroFill := fillsInteger spec } spec

/-- The base of a conversion, and whether its letters are upper case. -/
def base (conversion : UInt8) : Nat × Bool :=
  match Char.ofUInt8 conversion with
  | 'o' => (8, false)
  | 'x' => (16, false)
  | 'X' => (16, true)
  | _ => (10, false)

/-- The prefix that the alternate form puts before a number other than zero. That of an octal number
is a zero, which is left out where another one leads already. -/
def baseMark (value leadingZeros : Nat) (spec : Spec) : Bytes :=
  if spec.flags.alternate && value ≠ 0 then
    match Char.ofUInt8 spec.conversion with
    | 'o' => if leadingZeros = 0 then [octet '0'] else []
    | 'x' => ascii "0x"
    | 'X' => ascii "0X"
    | _ => []
  else []

/-- An unsigned number in the base of the conversion. -/
def unsigned (value : Nat) (spec : Spec) : List Chunk :=
  let (base, upper) := base spec.conversion
  let digits := Numeral.digits base value upper
  let leadingZeros := zerosBefore spec digits.length
  Layout.chunks
    { mark := baseMark value leadingZeros spec
      leadingZeros
      body := [.text digits]
      bodySize := digits.length
      zeroFill := fillsInteger spec } spec

/-- A word with an optional sign, filled with spaces only. -/
def word (body : Bytes) (sign : Bytes) (spec : Spec) : List Chunk :=
  Layout.chunks { sign, body := [.text body], bodySize := body.length } spec

/-- The number of decimal places when no precision is given. -/
def defaultPrecision : Nat := 6

/-- The text of a magnitude in the style of the conversion. -/
def floatText [Build] (magnitude : Binary64) (spec : Spec) : Option FloatText :=
  let precision := spec.precision.value?.getD defaultPrecision
  match Char.ofUInt8 (spec.conversion ||| 0x20) with
  | 'e' => some (.exponential magnitude precision spec.uppercase spec.flags.alternate)
  | 'g' => FloatText.general magnitude precision spec.uppercase spec.flags.alternate
  | _ => some (.fixed magnitude precision spec.flags.alternate)

/-- A double. A negative zero has no sign, and neither has a NaN. -/
def float [Build] (value : Binary64) (spec : Spec) : Option (List Chunk) :=
  let sign := sign value.isNegative value.isPositive spec.flags
  if value.isNaN then some (word (ascii (if spec.uppercase then "NAN" else "nan")) [] spec)
  else if value.isInfinite then some (word (ascii (if spec.uppercase then "INF" else "inf")) sign spec)
  else
    let magnitude := if value.isNegative then -value else value
    (floatText magnitude spec).map fun text =>
      Layout.chunks { sign, body := text.chunks, bodySize := text.size, zeroFill := spec.flags.zero } spec

/-- A text, cut to the precision. A null string shows as `(null)`. -/
def text (text : Option Bytes) (spec : Spec) : List Chunk :=
  let bytes := text.getD (ascii "(null)")
  word (match spec.precision.value? with | some most => bytes.take most | none => bytes) [] spec

/-- One byte. -/
def char (byte : UInt8) (spec : Spec) : List Chunk := word [byte] [] spec

/-- An address in base 16. A null pointer shows as `(nil)`. -/
def pointer (address : UInt64) (spec : Spec) : List Chunk :=
  if address = 0 then word (ascii "(nil)") [] spec
  else
    let digits := Numeral.digits 16 address.toNat
    Layout.chunks { mark := ascii "0x", body := [.text digits], bodySize := digits.length } spec

end BoundedPrintf.Field
