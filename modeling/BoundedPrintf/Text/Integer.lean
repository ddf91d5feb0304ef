/-! Integers as they are typed on a command line: an optional sign and digits, all the way to the
end of the text. -/
namespace BoundedPrintf.Text

/-- The value of a digit in bases up to sixteen, in either case. -/
def digitValue? (base : Nat) (c : Char) : Option Nat :=
  let value :=
    if c.isDigit then c.toNat - '0'.toNat
    else if 'a' ≤ c ∧ c ≤ 'f' then c.toNat - 'a'.toNat + 10
    else if 'A' ≤ c ∧ c ≤ 'F' then c.toNat - 'A'.toNat + 10
    else base
  if value < base then some value else none

/-- The value of one or more digits. -/
def readDigits? (base : Nat) (text : List Char) : Option Nat :=
  if text.isEmpty then none
  else text.foldlM (fun value c => (digitValue? base c).map (base * value + ·)) 0

/-- A number without a sign or with a plus, if it fits a word of 64 bits. -/
def readUnsigned? (base : Nat) (text : List Char) : Option UInt64 :=
  let digits := match text with
    | '+' :: rest => rest
    | _ => text
  (readDigits? base digits).bind fun value => if value < 2 ^ 64 then some (UInt64.ofNat value) else none

/-- A decimal number with an optional sign, if it fits a signed word of 64 bits. -/
def readSigned? (text : List Char) : Option Int64 :=
  let (negative, digits) := match text with
    | '-' :: rest => (true, rest)
    | '+' :: rest => (false, rest)
    | _ => (false, text)
  (readDigits? 10 digits).bind fun magnitude =>
    let value : Int := if negative then -magnitude else magnitude
    if -2 ^ 63 ≤ value ∧ value < 2 ^ 63 then some (Int64.ofInt value) else none

end BoundedPrintf.Text
