import BoundedPrintf.Text.Printable

/-! Texts and characters in quotation marks. The mark itself and the backslash are written with a
backslash, some control characters by a letter, and all other characters that are not printable by
their number. -/
namespace BoundedPrintf.Text

/-- The written form of a character between the given quotation marks. -/
def escape (mark c : Char) : List Char :=
  if c = mark || c = '\\' then ['\\', c]
  else if c = '\x00' then ['\\', '0']
  else if c = '\t' then ['\\', 't']
  else if c = '\n' then ['\\', 'n']
  else if c = '\r' then ['\\', 'r']
  else if isPrintable c then [c]
  else ['\\', 'u', '\x7b'] ++ Nat.toDigits 16 c.toNat ++ ['\x7d']

def quoteChar (c : Char) : String := String.ofList ('\'' :: escape '\'' c ++ ['\''])

def quote (text : String) : String := String.ofList ('"' :: text.toList.flatMap (escape '"') ++ ['"'])

end BoundedPrintf.Text
