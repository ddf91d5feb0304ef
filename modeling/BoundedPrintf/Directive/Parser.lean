import BoundedPrintf.Directive.Basic

/-! Reading a directive. The longest run of modifier bytes is folded into a draft, in whatever order
they come, and the first byte that is no modifier decides what the directive is. Nothing after that
byte is looked at. -/
namespace BoundedPrintf

/-- Flags, digits, point, star and length letters. `L` is accepted and means nothing. -/
def isModifier (byte : UInt8) : Bool :=
  match Char.ofUInt8 byte with
  | '-' | '+' | ' ' | '#' | '.' | '*' => true
  | 'h' | 'l' | 'z' | 't' | 'j' | 'L' => true
  | _ => isDigit byte

/-- The conversions that a renderer knows. -/
def isConversion (byte : UInt8) : Bool :=
  match Char.ofUInt8 byte with
  | 'd' | 'i' | 'u' | 'o' | 'x' | 'X' => true
  | 'f' | 'F' | 'e' | 'E' | 'g' | 'G' => true
  | 's' | 'c' | 'n' | 'p' => true
  | _ => false

namespace Directive

/-- A directive while its modifiers are read. `number` is the value of the digits read since the
last other modifier; `point` says that a `.` has been read, after which digits and stars give the
precision. -/
structure Draft where
  flags : Flags := {}
  width : Extent := .absent
  precision : Extent := .absent
  length : LengthClass := .none
  point : Bool := false
  number : Nat := 0
  deriving DecidableEq, Repr

namespace Draft

/-- No width and no point so far: a zero is a flag, and a star stands for the width. -/
def widthOpen (draft : Draft) : Bool := !draft.point && draft.width = .absent

/-- One more digit of the number in progress, which stops growing at the largest size. -/
def digit (draft : Draft) (value : Nat) : Draft :=
  let number := min (10 * draft.number + value) maxSize
  if draft.point then { draft with precision := .fixed number, number }
  else { draft with width := .fixed number, number }

/-- A modifier that is no digit. The last alignment flag wins, and a later point sets the precision
back to zero. -/
def mark (draft : Draft) : Char → Draft
  | '-' => { draft with flags.alignment := .left }
  | '+' => { draft with flags.alignment := .right }
  | ' ' => { draft with flags.space := true }
  | '#' => { draft with flags.alternate := true }
  | '.' => { draft with point := true, precision := .fixed 0 }
  | '*' => if draft.widthOpen then { draft with width := .argument } else { draft with precision := .argument }
  | 'h' => { draft with length := draft.length.afterH }
  | 'l' => { draft with length := draft.length.afterL }
  | 'z' => { draft with length := .z }
  | 't' => { draft with length := .t }
  | 'j' => { draft with length := .j }
  | _ => draft

/-- The draft after one more modifier. -/
def step (draft : Draft) (byte : UInt8) : Draft :=
  if isDigit byte then
    if draft.widthOpen && byte = octet '0' then { draft with flags.zero := true } else draft.digit (digitValue byte)
  else { draft with number := 0 }.mark (Char.ofUInt8 byte)

def toSpec (draft : Draft) (conversion : UInt8) : Spec :=
  { flags := draft.flags, width := draft.width, precision := draft.precision, length := draft.length, conversion }

/-- What the byte after the modifiers makes of them. A NUL is the end of the template. -/
def finish (draft : Draft) (byte : UInt8) : Directive :=
  if byte = 0 then .incomplete
  else if byte = octet '%' then .percent
  else if isConversion byte then .spec (draft.toSpec byte)
  else .unsupported byte

end Draft

/-- The directive that a text starts with, the percent sign left out, and the number of bytes it
takes. -/
def parse (text : Bytes) : Directive × Nat :=
  let modifiers := text.takeWhile isModifier
  match text.drop modifiers.length with
  | [] => (.incomplete, modifiers.length)
  | byte :: _ => ((modifiers.foldl Draft.step {}).finish byte, modifiers.length + 1)

theorem parse_length_le (text : Bytes) : (parse text).2 ≤ text.length := by
  have kept : (text.takeWhile isModifier).length ≤ text.length := (List.takeWhile_sublist _).length_le
  cases rest : text.drop (text.takeWhile isModifier).length with
  | nil => simpa only [parse, rest] using kept
  | cons byte tail =>
      have size := congrArg List.length rest
      simp only [List.length_drop, List.length_cons] at size
      simp only [parse, rest]
      omega

end Directive

end BoundedPrintf
