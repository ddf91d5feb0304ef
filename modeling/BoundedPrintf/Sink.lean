import BoundedPrintf.Chunk

/-! A sink writes into a buffer of fixed size and keeps its last byte for the terminator. Bytes that
do not fit are dropped, and each operation answers whether all of its bytes fitted. -/
namespace BoundedPrintf

structure Sink where
  buffer : Array UInt8
  written : Nat
  written_lt : written < buffer.size

namespace Sink

/-- A sink at the start of a buffer. An empty buffer has no room for the terminator. -/
def ofBuffer? (buffer : Array UInt8) : Option Sink :=
  if nonempty : 0 < buffer.size then some ⟨buffer, 0, nonempty⟩ else none

/-- The number of bytes that fit before the terminator. -/
def capacity (sink : Sink) : Nat := sink.buffer.size - 1

def isFull (sink : Sink) : Bool := sink.written = sink.capacity

/-- Writes one byte if there is room for it. -/
def put (sink : Sink) (byte : UInt8) : Sink × Bool :=
  if room : sink.written + 1 < sink.buffer.size then
    (⟨sink.buffer.set sink.written byte sink.written_lt, sink.written + 1, by simpa using room⟩, true)
  else (sink, false)

/-- Writes bytes in order up to the first that does not fit. -/
def write (sink : Sink) : Bytes → Sink × Bool
  | [] => (sink, true)
  | byte :: rest =>
      match sink.put byte with
      | (sink, true) => sink.write rest
      | (sink, false) => (sink, false)

/-- Writes copies of a byte up to the first that does not fit. -/
def fill (sink : Sink) (byte : UInt8) : Nat → Sink × Bool
  | 0 => (sink, true)
  | count + 1 =>
      match sink.put byte with
      | (sink, true) => sink.fill byte count
      | (sink, false) => (sink, false)

def emit (sink : Sink) : Chunk → Sink × Bool
  | .text bytes => sink.write bytes
  | .fill byte count => sink.fill byte count

/-- Writes chunks in order up to the first that does not fit as a whole. -/
def emitAll (sink : Sink) : List Chunk → Sink × Bool
  | [] => (sink, true)
  | chunk :: rest =>
      match sink.emit chunk with
      | (sink, true) => sink.emitAll rest
      | (sink, false) => (sink, false)

/-- The buffer with the terminator after the bytes written. -/
def finish (sink : Sink) : Array UInt8 := sink.buffer.set sink.written 0 sink.written_lt

theorem size_finish (sink : Sink) : sink.finish.size = sink.buffer.size := by simp [finish]

theorem put_full {sink : Sink} {byte : UInt8} (full : ¬ sink.written + 1 < sink.buffer.size) :
    sink.put byte = (sink, false) := by
  simp [put, full]

end Sink

end BoundedPrintf
