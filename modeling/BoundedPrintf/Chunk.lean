import BoundedPrintf.Bytes

/-! Output is a sequence of chunks. A run of equal bytes is kept as a count, since widths and
precisions can be far larger than any buffer. -/
namespace BoundedPrintf

inductive Chunk
  | text (bytes : Bytes)
  | fill (byte : UInt8) (count : Nat)
  deriving DecidableEq, Repr

namespace Chunk

def bytes : Chunk → Bytes
  | .text bytes => bytes
  | .fill byte count => List.replicate count byte

def size : Chunk → Nat
  | .text bytes => bytes.length
  | .fill _ count => count

theorem length_bytes (chunk : Chunk) : chunk.bytes.length = chunk.size := by
  cases chunk <;> simp [bytes, size]

/-- The number of bytes of a sequence of chunks, found without writing them out. -/
def sizes : List Chunk → Nat
  | [] => 0
  | chunk :: rest => chunk.size + sizes rest

/-- The byte sequence that a sequence of chunks stands for. -/
def flatten (chunks : List Chunk) : Bytes := chunks.flatMap bytes

theorem length_flatten (chunks : List Chunk) : (flatten chunks).length = sizes chunks := by
  induction chunks with
  | nil => rfl
  | cons chunk rest ih =>
      simp only [flatten, sizes, List.flatMap_cons, List.length_append] at ih ⊢
      rw [length_bytes, ih]

end Chunk

end BoundedPrintf
