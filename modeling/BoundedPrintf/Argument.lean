import BoundedPrintf.Directive.Basic

/-! Arguments and the cursor that hands them out in order. A converter asks for the next value as
the type that its directive needs; whatever was supplied is read through its 64-bit pattern,
narrowed to the length class of the directive. An exhausted cursor reads as zero and as a null
string. -/
namespace BoundedPrintf

/-- The bits of a double are kept as they are. The address of a text or of a count target shows only
when it is read as a number. -/
inductive Argument
  | int (value : Int64)
  | uint (value : UInt64)
  | double (bits : UInt64)
  | pointer (address : UInt64)
  | text (bytes : Bytes) (address : UInt64 := 0)
  | null
  | count (target : Nat) (address : UInt64 := 0)
  deriving DecidableEq, Repr

namespace Argument

/-- The 64-bit pattern of an argument. -/
def rawBits : Argument → UInt64
  | .int value => value.toUInt64
  | .uint value => value
  | .double bits => bits
  | .pointer address => address
  | .text _ address => address
  | .null => 0
  | .count _ address => address

/-- Integers that are wider than a machine word keep their low 64 bits. -/
def ofSigned (value : Int) : Argument := .int (Int64.ofInt value)

def ofUnsigned (value : Nat) : Argument := .uint (UInt64.ofNat value)

def ofChar (c : Char) : Argument := .uint c.val.toUInt64

/-- An absent text is a null string. -/
def ofText? (text : Option Bytes) (address : UInt64 := 0) : Argument :=
  match text with
  | some bytes => .text bytes address
  | none => .null

/-- A text that ends with its terminator, which is not part of it. -/
def ofTerminated (bytes : Bytes) (address : UInt64 := 0) : Argument := .text (beforeNul bytes) address

/-- The double with the value of a single. Widening keeps the value; a NaN keeps its sign and
payload and becomes quiet. -/
def widenSingle (bits : UInt32) : UInt64 :=
  let sign := bits.toNat / 2 ^ 31
  let exponent := bits.toNat / 2 ^ 23 % 2 ^ 8
  let fraction := bits.toNat % 2 ^ 23
  let magnitude :=
    if exponent = 255 then
      2047 * 2 ^ 52 + (if fraction = 0 then 0 else 2 ^ 51 + fraction % 2 ^ 22 * 2 ^ 29)
    else if exponent = 0 then
      if fraction = 0 then 0
      else
        let top := fraction.log2
        (top + 874) * 2 ^ 52 + (fraction - 2 ^ top) * 2 ^ (52 - top)
    else (exponent + 896) * 2 ^ 52 + fraction * 2 ^ 29
  UInt64.ofNat (sign * 2 ^ 63 + magnitude)

def ofSingle (bits : UInt32) : Argument := .double (widenSingle bits)

/-- What a directive reads when it asks for a value: the argument that was handed out, or nothing
when there is none left. -/
abbrev Supply := Option Argument

namespace Supply

def bits (supply : Supply) : UInt64 := supply.elim 0 rawBits

/-- The residue of the pattern that fits the length class as a signed number. -/
def signed (supply : Supply) (length : LengthClass) : Int := Int.bmod supply.bits.toNat (2 ^ length.bits)

/-- The residue of the pattern that fits the length class as an unsigned number. -/
def unsigned (supply : Supply) (length : LengthClass) : Nat := supply.bits.toNat % 2 ^ length.bits

/-- A width or precision argument is a signed number of 32 bits. -/
def star (supply : Supply) : Int := supply.signed .none

def double (supply : Supply) : UInt64 := supply.bits

def pointer (supply : Supply) : UInt64 := supply.bits

def byte (supply : Supply) : UInt8 := supply.bits.toUInt8

/-- The text up to its first NUL. What is no text reads as a null string. -/
def text? : Supply → Option Bytes
  | some (.text bytes _) => some (beforeNul bytes)
  | _ => none

def target? : Supply → Option Nat
  | some (.count target _) => some target
  | _ => none

end Supply

end Argument

/-- A value as a caller has it, before it is made an argument. Integers have up to 128 bits, and texts
and count targets an address. -/
inductive Value
  | signed (value : Int)
  | unsigned (value : Nat)
  | double (bits : UInt64)
  | single (bits : UInt32)
  | char (c : Char)
  | text (bytes : Bytes) (address : UInt64 := 0)
  | terminated (bytes : Bytes) (address : UInt64 := 0)
  | optional (bytes : Option Bytes) (address : UInt64 := 0)
  | pointer (address : UInt64)
  | count (target : Nat) (address : UInt64 := 0)
  | argument (arg : Argument)
  deriving DecidableEq, Repr

def Value.toArgument : Value → Argument
  | .signed value => .ofSigned value
  | .unsigned value => .ofUnsigned value
  | .double bits => .double bits
  | .single bits => .ofSingle bits
  | .char c => .ofChar c
  | .text bytes address => .text bytes address
  | .terminated bytes address => .ofTerminated bytes address
  | .optional found address => .ofText? found address
  | .pointer address => .pointer address
  | .count target address => .count target address
  | .argument arg => arg

/-- The arguments still to be handed out, and how many have been. -/
structure Cursor where
  remaining : List Argument
  consumed : Nat := 0
  deriving DecidableEq, Repr

namespace Cursor

def ofList (args : List Argument) : Cursor := { remaining := args }

/-- Hands out the next argument, if there is one. -/
def next (cursor : Cursor) : Argument.Supply × Cursor :=
  match cursor.remaining with
  | [] => (none, cursor)
  | arg :: rest => (some arg, { remaining := rest, consumed := cursor.consumed + 1 })

end Cursor

end BoundedPrintf
