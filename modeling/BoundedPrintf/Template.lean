import BoundedPrintf.Directive.Parser

/-! A template is cut into pieces, each a literal run or a directive, together with the number of
bytes that it covers. The template ends at its first NUL. -/
namespace BoundedPrintf

inductive Segment
  | literal (bytes : Bytes)
  | percent
  | directive (spec : Spec)
  | unsupported (conversion : UInt8)
  | incomplete
  deriving DecidableEq, Repr

def Directive.toSegment : Directive → Segment
  | .spec parsed => .directive parsed
  | .percent => .percent
  | .unsupported conversion => .unsupported conversion
  | .incomplete => .incomplete

structure Piece where
  segment : Segment
  size : Nat
  deriving DecidableEq, Repr

namespace Template

/-- The piece at the start of a text that begins with the given byte: a whole run of bytes other
than `%`, or one directive. -/
def piece (first : UInt8) (rest : Bytes) : Piece :=
  if first = octet '%' then
    let (directive, consumed) := Directive.parse rest
    ⟨directive.toSegment, consumed + 1⟩
  else
    let run := first :: rest.takeWhile (· != octet '%')
    ⟨.literal run, run.length⟩

theorem piece_size_pos (first : UInt8) (rest : Bytes) : 0 < (piece first rest).size := by
  unfold piece
  split <;> simp

theorem piece_size_le (first : UInt8) (rest : Bytes) : (piece first rest).size ≤ rest.length + 1 := by
  unfold piece
  split
  · exact Nat.add_le_add_right (Directive.parse_length_le rest) 1
  · exact Nat.add_le_add_right (List.takeWhile_sublist _).length_le 1

/-- The pieces of a text without NUL, from its start to its end. -/
def pieces : Bytes → List Piece
  | [] => []
  | first :: rest =>
      let piece := piece first rest
      piece :: pieces (rest.drop (piece.size - 1))
termination_by text => text.length
decreasing_by
  simp only [List.length_drop, List.length_cons]
  omega

/-- The pieces of a template. -/
def segments (template : Bytes) : List Piece := pieces (beforeNul template)

end Template

end BoundedPrintf
