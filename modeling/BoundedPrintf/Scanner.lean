import BoundedPrintf.Template

/-! A scanner hands out the pieces of a template one by one. What it has handed out lies in front of
its position, and what it will hand out behind it. -/
namespace BoundedPrintf

/-- A piece and the offset of its first byte. -/
structure Placed extends Piece where
  offset : Nat
  deriving DecidableEq, Repr

namespace Placed

/-- The bytes of a text that a piece was read from. -/
def source (placed : Placed) (text : Bytes) : Bytes := (text.drop placed.offset).take placed.size

end Placed

structure Scanner where
  text : Bytes
  position : Nat := 0
  deriving DecidableEq, Repr

namespace Scanner

/-- The template ends at its first NUL. -/
def ofTemplate (template : Bytes) : Scanner := { text := beforeNul template }

def remaining (scanner : Scanner) : Bytes := scanner.text.drop scanner.position

/-- Hands out the next piece, if there is one. -/
def next (scanner : Scanner) : Option Placed × Scanner :=
  match scanner.remaining with
  | [] => (none, scanner)
  | first :: rest =>
      let piece := Template.piece first rest
      (some { piece with offset := scanner.position },
        { scanner with position := scanner.position + piece.size })

end Scanner

end BoundedPrintf
