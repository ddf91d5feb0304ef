import BoundedPrintf.Json.Basic

/-! Reading JSON text. The grammar is that of the standard and nothing may follow the value but
white space. The fuel of the readers bounds the number of steps; two per character and one more are
always enough. -/
namespace BoundedPrintf.Json

def isSpace (c : Char) : Bool := c = ' ' || c = '\t' || c = '\n' || c = '\r'

def skipSpace (text : List Char) : List Char := text.dropWhile isSpace

/-- A part of a text between quotation marks: a character as it stands or by its letter, or a UTF-16
unit by its number. -/
inductive Symbol
  | char (c : Char)
  | unit (value : Nat)
  deriving DecidableEq, Repr

def hexValue? (c : Char) : Option Nat :=
  if c.isDigit then some (c.toNat - '0'.toNat)
  else if 'a' ≤ c ∧ c ≤ 'f' then some (c.toNat - 'a'.toNat + 10)
  else if 'A' ≤ c ∧ c ≤ 'F' then some (c.toNat - 'A'.toNat + 10)
  else none

def unit? (a b c d : Char) : Option Symbol := do
  let a ← hexValue? a
  let b ← hexValue? b
  let c ← hexValue? c
  let d ← hexValue? d
  some (.unit (((a * 16 + b) * 16 + c) * 16 + d))

/-- The characters that a letter after a backslash stands for. -/
def letter? (c : Char) : Option Symbol :=
  match c with
  | '"' | '\\' | '/' => some (.char c)
  | 'b' => some (.char '\x08')
  | 'f' => some (.char '\x0c')
  | 'n' => some (.char '\n')
  | 'r' => some (.char '\r')
  | 't' => some (.char '\t')
  | _ => none

/-- Reads up to the closing quotation mark. Control characters have to be escaped. -/
def readSymbols : List Char → Option (List Symbol × List Char)
  | [] => none
  | '"' :: rest => some ([], rest)
  | '\\' :: 'u' :: a :: b :: c :: d :: rest => do
      let symbol ← unit? a b c d
      let (symbols, rest) ← readSymbols rest
      some (symbol :: symbols, rest)
  | '\\' :: c :: rest => do
      let symbol ← letter? c
      let (symbols, rest) ← readSymbols rest
      some (symbol :: symbols, rest)
  | c :: rest =>
      if c < ' ' then none
      else do
        let (symbols, rest) ← readSymbols rest
        some (.char c :: symbols, rest)

/-- The characters of a text. Units that are halves of a pair stand for one character together and
for none apart. -/
def characters? : List Symbol → Option (List Char)
  | [] => some []
  | .char c :: rest => (characters? rest).map (c :: ·)
  | .unit high :: .unit low :: rest =>
      if 0xD800 ≤ high ∧ high < 0xDC00 then
        if 0xDC00 ≤ low ∧ low < 0xE000 then
          (characters? rest).map (Char.ofNat (0x10000 + (high - 0xD800) * 0x400 + (low - 0xDC00)) :: ·)
        else none
      else if 0xDC00 ≤ high ∧ high < 0xE000 then none
      else (characters? (.unit low :: rest)).map (Char.ofNat high :: ·)
  | .unit value :: rest =>
      if 0xD800 ≤ value ∧ value < 0xE000 then none else (characters? rest).map (Char.ofNat value :: ·)

/-- Reads a text after its opening quotation mark. It may turn out to have no value. -/
def readText (text : List Char) : Option (Option String × List Char) := do
  let (symbols, rest) ← readSymbols text
  some ((characters? symbols).map String.ofList, rest)

/-- The digits of a number as they are read, as one integer and a power of ten. Digits that take the
integer past 64 bits are dropped, and so are those after them. -/
structure Scaled where
  significand : Nat := 0
  exponent : Int := 0
  full : Bool := false

namespace Scaled

def digit (c : Char) : Nat := c.toNat - '0'.toNat

/-- One more digit before the point. A digit that is dropped still counts as a place. -/
def addWhole (scaled : Scaled) (c : Char) : Scaled :=
  let significand := 10 * scaled.significand + digit c
  if scaled.full || maxSize < significand then { scaled with exponent := scaled.exponent + 1, full := true }
  else { scaled with significand }

/-- One more digit after the point. -/
def addFraction (scaled : Scaled) (c : Char) : Scaled :=
  let significand := 10 * scaled.significand + digit c
  if scaled.full || maxSize < significand then { scaled with full := true }
  else { scaled with significand, exponent := scaled.exponent - 1 }

/-- The powers of ten up to this one are single factors. -/
def largestPower : Nat := 308

/-- A value times a power of ten, by as few factors as there are. -/
def scale (value : Binary64) (exponent : Int) : Binary64 :=
  if value.isZero then value
  else if largestPower < exponent then .infinity false
  else if 0 ≤ exponent then value * .ofNat (10 ^ exponent.toNat)
  else if -largestPower ≤ exponent then value / .ofNat (10 ^ exponent.natAbs)
  else scale (value / .ofNat (10 ^ largestPower)) (exponent + largestPower)
termination_by exponent.natAbs
decreasing_by
  simp only [largestPower] at *
  omega

/-- The number, or the lack of one if it is too large. -/
def toJson (scaled : Scaled) (negative : Bool) : Json :=
  let value := scale (.ofNat scaled.significand) scaled.exponent
  if value.isInfinite then .invalid else .float (if negative then -value else value)

end Scaled

/-- Splits off the digits at the start of a text, of which there has to be one at least. -/
def readDigits (text : List Char) : Option (List Char × List Char) :=
  let digits := text.takeWhile Char.isDigit
  if digits.isEmpty then none else some (digits, text.dropWhile Char.isDigit)

/-- Reads the part of a number from its point on, if it has one. -/
def readFraction : List Char → Option (Option (List Char) × List Char)
  | '.' :: rest => do
      let (digits, rest) ← readDigits rest
      some (some digits, rest)
  | rest => some (none, rest)

/-- Reads the exponent of a number, if it has one. -/
def readExponent : List Char → Option (Option Int × List Char)
  | 'e' :: rest | 'E' :: rest => do
      let (negative, rest) := match rest with
        | '-' :: rest => (true, rest)
        | '+' :: rest => (false, rest)
        | _ => (false, rest)
      let (digits, rest) ← readDigits rest
      let value : Nat := digits.foldl (fun value c => 10 * value + Scaled.digit c) 0
      some (some (if negative then -value else value), rest)
  | rest => some (none, rest)

/-- The value of an integer. One that fits no integer type is a float, and so is a negative zero. -/
def ofWhole (negative : Bool) (digits : List Char) : Json :=
  let value : Nat := digits.foldl (fun value c => 10 * value + Scaled.digit c) 0
  if negative then
    if 0 < value ∧ value ≤ 2 ^ 63 then .integer (-value) else (digits.foldl Scaled.addWhole {}).toJson true
  else if value ≤ maxSize then .integer value
  else (digits.foldl Scaled.addWhole {}).toJson false

/-- Reads a number after its sign. A leading zero stands alone. -/
def readNumber (negative : Bool) (text : List Char) : Option (Json × List Char) := do
  let (whole, rest) ← readDigits text
  if whole.head? = some '0' && whole.length ≠ 1 then none
  else
    let (fraction, rest) ← readFraction rest
    let (exponent, rest) ← readExponent rest
    if fraction.isNone && exponent.isNone then some (ofWhole negative whole, rest)
    else
      let scaled := whole.foldl Scaled.addWhole {}
      let scaled := (fraction.getD []).foldl Scaled.addFraction { scaled with full := false }
      some ({ scaled with exponent := scaled.exponent + exponent.getD 0 }.toJson negative, rest)

/-- Members with their names, all of which need to have a value. -/
def named? : List (Option String × Json) → Option (List (String × Json))
  | [] => some []
  | (name, value) :: rest => do
      let name ← name
      let rest ← named? rest
      some ((name, value) :: rest)

mutual

/-- Reads a value and leaves what follows it. -/
def readValue : Nat → List Char → Option (Json × List Char)
  | 0, _ => none
  | fuel + 1, text =>
      match skipSpace text with
      | 'n' :: 'u' :: 'l' :: 'l' :: rest => some (.null, rest)
      | 't' :: 'r' :: 'u' :: 'e' :: rest => some (.bool true, rest)
      | 'f' :: 'a' :: 'l' :: 's' :: 'e' :: rest => some (.bool false, rest)
      | '"' :: rest => do
          let (value, rest) ← readText rest
          some (value.elim .invalid .string, rest)
      | '[' :: rest =>
          match skipSpace rest with
          | ']' :: rest => some (.array [], rest)
          | _ => do
              let (items, rest) ← readItems fuel rest
              some (.array items, rest)
      | '\x7b' :: rest =>
          match skipSpace rest with
          | '\x7d' :: rest => some (.object [], rest)
          | _ => do
              let (members, rest) ← readMembers fuel rest
              some ((named? members).elim .invalid .object, rest)
      | '-' :: rest => readNumber true rest
      | rest => readNumber false rest

/-- Reads the items of an array up to its closing bracket. -/
def readItems : Nat → List Char → Option (List Json × List Char)
  | 0, _ => none
  | fuel + 1, text => do
      let (item, rest) ← readValue fuel text
      match skipSpace rest with
      | ']' :: rest => some ([item], rest)
      | ',' :: rest => do
          let (items, rest) ← readItems fuel rest
          some (item :: items, rest)
      | _ => none

/-- Reads the members of an object up to its closing brace. -/
def readMembers : Nat → List Char → Option (List (Option String × Json) × List Char)
  | 0, _ => none
  | fuel + 1, text =>
      match skipSpace text with
      | '"' :: rest => do
          let (name, rest) ← readText rest
          match skipSpace rest with
          | ':' :: rest => do
              let (value, rest) ← readValue fuel rest
              match skipSpace rest with
              | '\x7d' :: rest => some ([(name, value)], rest)
              | ',' :: rest => do
                  let (members, rest) ← readMembers fuel rest
                  some ((name, value) :: members, rest)
              | _ => none
          | _ => none
      | _ => none

end

/-- The value of a text that is one JSON value. -/
def read? (text : String) : Option Json := do
  let characters := text.toList
  let (value, rest) ← readValue (2 * characters.length + 1) characters
  if (skipSpace rest).isEmpty then some value else none

end BoundedPrintf.Json
