import BoundedPrintf.Argument
import BoundedPrintf.Binary64.Reading
import BoundedPrintf.Json.Decode
import BoundedPrintf.Text.Integer
import BoundedPrintf.Text.Utf8

/-! Arguments of a fixture case, as they are written in JSON and on the command line. Targets of
`%n` have a label instead of a place in memory. Only a run puts them and the texts somewhere. -/
namespace BoundedPrintf

inductive FixtureArgument
  | int (value : Int64)
  | uint (value : UInt64)
  | double (bits : UInt64)
  /-- A double by its encoding, for NaN and the infinities. -/
  | doubleBits (bits : UInt64)
  | text (text : String)
  | nullText
  | pointer (address : UInt64)
  | count (label : String)
  deriving DecidableEq, Repr

namespace FixtureArgument

def label? : FixtureArgument → Option String
  | .count label => some label
  | _ => none

/-- The labels of the count targets in the order of the arguments. -/
def labels (args : List FixtureArgument) : List String := args.filterMap label?

/-- An argument in JSON is an object with one member that names its kind; a null string is its name
alone. -/
def ofJson? : Json → Option FixtureArgument
  | .string name => if name = "null_str" then some .nullText else none
  | .object [(kind, value)] =>
      match kind with
      | "int" => value.int64?.map .int
      | "uint" => value.uint64?.map .uint
      | "double" => value.double?.map .double
      | "double_bits" => value.uint64?.map .doubleBits
      | "str" => value.text?.map .text
      | "null_str" => match value with
        | .null => some .nullText
        | _ => none
      | "ptr" => value.uint64?.map .pointer
      | "count" => value.text?.map .count
      | _ => none
  | _ => none

def toJson : FixtureArgument → Json
  | .int value => .object [("int", .integer value.toInt)]
  | .uint value => .object [("uint", .integer value.toNat)]
  | .double bits => .object [("double", .float (Binary64.ofBits bits))]
  | .doubleBits bits => .object [("double_bits", .integer bits.toNat)]
  | .text value => .object [("str", .string value)]
  | .nullText => .string "null_str"
  | .pointer address => .object [("ptr", .integer address.toNat)]
  | .count label => .object [("count", .string label)]

/-- An address in decimal digits, or in hexadecimal ones after `0x` or `0X`. -/
def readAddress? (text : List Char) : Option UInt64 :=
  match text with
  | '0' :: 'x' :: digits | '0' :: 'X' :: digits => Text.readUnsigned? 16 digits
  | _ => Text.readUnsigned? 10 text

/-- Reads the short form `i:-5`, `u:7`, `f:2.5`, `s:text`, `p:4096`, `n:label` or `null`. -/
def ofShort? (spec : String) : Option FixtureArgument :=
  let text := spec.toList
  let value := (text.dropWhile (· ≠ ':')).drop 1
  if spec = "null" then some .nullText
  else if !text.contains ':' then none
  else
    match text.takeWhile (· ≠ ':') with
    | ['i'] => (Text.readSigned? value).map .int
    | ['u'] => (Text.readUnsigned? 10 value).map .uint
    | ['f'] => (Binary64.readBits? value).map .double
    | ['s'] => some (.text (String.ofList value))
    | ['p'] => (readAddress? value).map .pointer
    | ['n'] => if value.isEmpty then none else some (.count (String.ofList value))
    | _ => none

/-- Where the texts and the count targets of a run lie in memory, by the place of the argument. -/
abbrev Addresses := Nat → UInt64

/-- The argument that a renderer gets. A count target gets the place that is given for it. -/
def toArgument (target : Option Nat) (address : UInt64) : FixtureArgument → Argument
  | .int value => .int value
  | .uint value => .uint value
  | .double bits | .doubleBits bits => .double bits
  | .text value => .text (Text.utf8 value) address
  | .nullText => .null
  | .pointer address => .pointer address
  | .count _ => target.elim .null (.count · address)

/-- The arguments that a renderer gets when there are so many places for count targets, from the
given one on. Count targets take the places in order, and those past the last one are null. -/
def toArguments (addresses : Addresses) (places : Nat) : Nat → List FixtureArgument → List Argument
  | _, [] => []
  | next, arg :: rest =>
      arg.toArgument (if next < places then some next else none) (addresses 0) ::
        toArguments (addresses <| · + 1) places (if arg.label?.isSome then next + 1 else next) rest

/-- The arguments that a renderer gets, with a place for every count target. -/
def bind (addresses : Addresses) (args : List FixtureArgument) : List Argument :=
  toArguments addresses (labels args).length 0 args

end FixtureArgument

end BoundedPrintf
