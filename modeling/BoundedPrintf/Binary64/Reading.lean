import BoundedPrintf.Binary64.Basic

/-! The binary64 number that a decimal text names, rounded once. -/
namespace BoundedPrintf.Binary64

/-- The value nearest to a decimal number. Exponents far outside the range of finite values are
decided without computing the power. -/
def ofDecimal (negative : Bool) (significand : Nat) (exponent : Int) : Binary64 :=
  if significand = 0 ∨ exponent + significand.log2 + 1 < -400 then .finite negative 0
  else if 400 < exponent then .infinity negative
  else if 0 ≤ exponent then ofRatio negative (significand * 10 ^ exponent.toNat) 1
  else ofRatio negative significand (10 ^ exponent.natAbs)

/-- The value of decimal digits. -/
def naturalOf (digits : List Char) : Nat := digits.foldl (fun value c => 10 * value + (c.toNat - '0'.toNat)) 0

/-- Reads an exponent with an optional sign, all the way to the end of the text. -/
def readExponent? (text : List Char) : Option Int :=
  let (negative, digits) := match text with
    | '-' :: rest => (true, rest)
    | '+' :: rest => (false, rest)
    | _ => (false, text)
  if digits.isEmpty || !digits.all Char.isDigit then none
  else some (if negative then -naturalOf digits else naturalOf digits)

/-- Reads an unsigned decimal number. Digits may be missing on one side of the point, and the point
as well. -/
def readMagnitude? (negative : Bool) (text : List Char) : Option Binary64 := do
  let whole := text.takeWhile Char.isDigit
  let rest := text.dropWhile Char.isDigit
  let (fraction, rest) := match rest with
    | '.' :: after => (after.takeWhile Char.isDigit, after.dropWhile Char.isDigit)
    | _ => ([], rest)
  let exponent ← match rest with
    | [] => some 0
    | 'e' :: after | 'E' :: after => readExponent? after
    | _ => none
  if whole.isEmpty && fraction.isEmpty then none
  else some (ofDecimal negative (naturalOf (whole ++ fraction)) (exponent - fraction.length))

/-- The encoding of the number that a text names: a decimal number with an optional sign, or `inf`,
`infinity` or `nan` in letters of either case. -/
def readBits? (text : List Char) : Option UInt64 :=
  let (negative, body) := match text with
    | '-' :: rest => (true, rest)
    | '+' :: rest => (false, rest)
    | _ => (false, text)
  let word := String.ofList (body.map Char.toLower)
  if word = "nan" then some (if negative then 0xfff8000000000000 else 0x7ff8000000000000)
  else if word = "inf" || word = "infinity" then some (toBits (.infinity negative))
  else (readMagnitude? negative body).map toBits

end BoundedPrintf.Binary64
