import BoundedPrintf.Binary64.Shortest
import BoundedPrintf.Json.Basic

/-! Writing JSON text, on one line without spaces or with an indentation of two spaces for each
level. -/
namespace BoundedPrintf.Json

/-- The written form of a character between quotation marks. -/
def escape (c : Char) : List Char :=
  match c with
  | '"' => ['\\', '"']
  | '\\' => ['\\', '\\']
  | '\x08' => ['\\', 'b']
  | '\x0c' => ['\\', 'f']
  | '\n' => ['\\', 'n']
  | '\r' => ['\\', 'r']
  | '\t' => ['\\', 't']
  | c =>
      if c < ' ' then ['\\', 'u', '0', '0', (c.toNat / 16).digitChar, (c.toNat % 16).digitChar]
      else [c]

def textChars (text : String) : List Char := '"' :: text.toList.flatMap escape ++ ['"']

def integerChars (value : Int) : List Char :=
  if value < 0 then '-' :: Nat.toDigits 10 value.natAbs else Nat.toDigits 10 value.natAbs

/-- The power of ten after the digits of a number, whose sign is written also when it is positive. -/
def exponentChars (exponent : Int) : List Char :=
  'e' :: (if exponent < 0 then '-' else '+') :: Nat.toDigits 10 exponent.natAbs

/-- A decimal number, positional while its point lies within sixteen digits or at most four zeros
follow the point. -/
def decimalChars (decimal : Binary64.Decimal) : List Char :=
  let digits := Nat.toDigits 10 decimal.significand
  let count : Int := digits.length
  let point := count + decimal.exponent
  if 0 ≤ decimal.exponent ∧ point ≤ 16 then digits ++ List.replicate decimal.exponent.toNat '0' ++ ['.', '0']
  else if 0 < point ∧ point ≤ 16 then digits.take point.toNat ++ '.' :: digits.drop point.toNat
  else if -5 < point ∧ point ≤ 0 then '0' :: '.' :: List.replicate point.natAbs '0' ++ digits
  else
    let exponent := exponentChars (point - 1)
    match digits with
    | [digit] => digit :: exponent
    | first :: rest => first :: '.' :: rest ++ exponent
    | [] => exponent

/-- A number that is no integer. Infinities and NaN have no written form and become `null`. -/
def floatChars : Binary64 → List Char
  | .finite negative units =>
      (if negative then ['-'] else []) ++
        if units = 0 then ['0', '.', '0'] else decimalChars (Binary64.shortest units)
  | _ => ['n', 'u', 'l', 'l']

/-- What stands before each item of an array or object, and before its closing bracket. -/
structure Style where
  /-- The line break and indentation at a level. -/
  lead : Nat → List Char
  /-- What separates a name from its value. -/
  colon : List Char

namespace Style

def compact : Style := ⟨fun _ => [], [':']⟩

def indented : Style := ⟨fun level => '\n' :: List.replicate (2 * level) ' ', [':', ' ']⟩

end Style

/-- Joins parts with commas between opening and closing brackets. Without parts the brackets stand
together. -/
def bracket (style : Style) (level : Nat) (opening closing : Char) : List (List Char) → List Char
  | [] => [opening, closing]
  | first :: rest =>
      opening :: style.lead (level + 1) ++ first ++ rest.flatMap (fun part => ',' :: style.lead (level + 1) ++ part) ++
        style.lead level ++ [closing]

/-- The written form of a value at a level of nesting. -/
def chars (style : Style) (level : Nat) : Json → List Char
  | .null => ['n', 'u', 'l', 'l']
  | .bool true => ['t', 'r', 'u', 'e']
  | .bool false => ['f', 'a', 'l', 's', 'e']
  | .integer value => integerChars value
  | .float value => floatChars value
  | .string text => textChars text
  | .array items => bracket style level '[' ']' (itemChars style (level + 1) items)
  | .object members => bracket style level '\x7b' '\x7d' (memberChars style (level + 1) members)
  | .invalid => ['n', 'u', 'l', 'l']
where
  itemChars (style : Style) (level : Nat) : List Json → List (List Char)
    | [] => []
    | item :: rest => item.chars style level :: itemChars style level rest
  memberChars (style : Style) (level : Nat) : List (String × Json) → List (List Char)
    | [] => []
    | (name, value) :: rest =>
        (textChars name ++ style.colon ++ value.chars style level) :: memberChars style level rest

/-- The value on one line. -/
def compact (json : Json) : String := String.ofList (json.chars .compact 0)

/-- The value over several lines. -/
def pretty (json : Json) : String := String.ofList (json.chars .indented 0)

end BoundedPrintf.Json
