import BoundedPrintf.Proofs.Field.Overflowing
import BoundedPrintf.Proofs.Sink.Stream

/-! All that can be written to a sink: single bytes, texts, runs, the text of a magnitude and the
field of each kind of value. What is written depends on the value and the directive; the sink
decides only how much of it stays. A double without a field stops the program before anything of it
is written. -/
namespace BoundedPrintf

inductive Producer
  | put (byte : UInt8)
  | write (bytes : Bytes)
  | fill (byte : UInt8) (count : Nat)
  | magnitude (digits : FloatText)
  | signed (value : Int) (spec : Spec)
  | unsigned (value : Nat) (spec : Spec)
  | float (value : Binary64) (spec : Spec)
  | text (bytes : Option Bytes) (spec : Spec)
  | char (byte : UInt8) (spec : Spec)
  | pointer (address : UInt64) (spec : Spec)
  deriving DecidableEq

namespace Producer

/-- The field of the double has no end. -/
def Overflows : Producer → Prop
  | .float value spec => Field.Overflows value spec
  | _ => False

section Streams

variable [Build]

/-- The sink after the producer has written to it, and whether all of its bytes fitted, unless the
program stops. -/
def run (sink : Sink) : Producer → Option (Sink × Bool)
  | .put byte => some (sink.put byte)
  | .write bytes => some (sink.write bytes)
  | .fill byte count => some (sink.fill byte count)
  | .magnitude digits => some (sink.emitAll digits.chunks)
  | .signed value spec => some (sink.emitAll (Field.signed value spec))
  | .unsigned value spec => some (sink.emitAll (Field.unsigned value spec))
  | .float value spec => (Field.float value spec).map sink.emitAll
  | .text bytes spec => some (sink.emitAll (Field.text bytes spec))
  | .char byte spec => some (sink.emitAll (Field.char byte spec))
  | .pointer address spec => some (sink.emitAll (Field.pointer address spec))

/-- The full byte sequence, which no sink has a part in. -/
def stream : Producer → Option Bytes
  | .put byte => some [byte]
  | .write bytes => some bytes
  | .fill byte count => some (List.replicate count byte)
  | .magnitude digits => some (Chunk.flatten digits.chunks)
  | .signed value spec => some (Chunk.flatten (Field.signed value spec))
  | .unsigned value spec => some (Chunk.flatten (Field.unsigned value spec))
  | .float value spec => (Field.float value spec).map Chunk.flatten
  | .text bytes spec => some (Chunk.flatten (Field.text bytes spec))
  | .char byte spec => some (Chunk.flatten (Field.char byte spec))
  | .pointer address spec => some (Chunk.flatten (Field.pointer address spec))

/-- The sink after producers in a row, each of which writes even if those before it did not fit. -/
def runAll (sink : Sink) (producers : List Producer) : Option Sink :=
  producers.foldlM (fun sink producer => (producer.run sink).map Prod.fst) sink

theorem run_eq_write (producer : Producer) (sink : Sink) :
    producer.run sink = producer.stream.map sink.write := by
  cases producer with
  | put byte => exact congrArg some (sink.put_eq_write byte)
  | write bytes => rfl
  | fill byte count => exact congrArg some (sink.fill_eq_write byte count)
  | magnitude | signed | unsigned | text | char | pointer =>
      exact congrArg some (sink.emitAll_eq_write _)
  | float value spec =>
      have each : sink.emitAll = sink.write ∘ Chunk.flatten := funext sink.emitAll_eq_write
      rw [run, stream, Option.map_map, each]

theorem stream_eq_none_iff (producer : Producer) :
    producer.stream = none ↔ Build.checksSums = true ∧ producer.Overflows := by
  cases producer with
  | put | write | fill | magnitude | signed | unsigned | text | char | pointer =>
      exact iff_of_false nofun fun ⟨_, never⟩ => never
  | float value spec => exact Option.map_eq_none_iff.trans Field.float_eq_none_iff

theorem run_takes {producer : Producer} {stream : Bytes} (sink : Sink)
    (given : producer.stream = some stream) :
    ∃ after fitted, producer.run sink = some (after, fitted) ∧ sink.Takes stream after fitted := by
  rw [run_eq_write, given]
  exact ⟨_, _, rfl, sink.takes_write stream⟩

theorem runAll_cons (producer : Producer) (rest : List Producer) (sink : Sink) :
    runAll sink (producer :: rest) =
      (producer.stream.map fun stream => (sink.write stream).1).bind (runAll · rest) := by
  have first : (producer.run sink).map Prod.fst =
      producer.stream.map fun stream => (sink.write stream).1 := by
    rw [run_eq_write, Option.map_map]
    rfl
  rw [runAll, List.foldlM_cons, first]
  rfl

/-- Producers in a row stop the program when one of them does. -/
theorem runAll_eq_none_iff (producers : List Producer) (sink : Sink) :
    runAll sink producers = none ↔ ∃ producer ∈ producers, producer.stream = none := by
  induction producers generalizing sink with
  | nil => simp [runAll]
  | cons producer rest ih =>
      rw [runAll_cons, List.exists_mem_cons_iff]
      cases producer.stream with
      | none => exact iff_of_true rfl (.inl rfl)
      | some stream =>
          rw [Option.map_some, Option.bind_some, ih]
          exact (or_iff_right (Option.some_ne_none stream)).symm

theorem runAll_takes (producers : List Producer) (sink : Sink) {streams : List Bytes}
    (given : producers.map stream = streams.map some) :
    ∃ after fitted, runAll sink producers = some after ∧ sink.Takes streams.flatten after fitted := by
  induction producers generalizing sink streams with
  | nil =>
      obtain rfl : streams = [] := List.map_eq_nil_iff.mp given.symm
      exact ⟨sink, true, rfl, .nil sink⟩
  | cons producer rest ih =>
      cases streams with
      | nil => cases given
      | cons first streams =>
          obtain ⟨written, others⟩ := List.cons_eq_cons.mp given
          obtain ⟨after, fitted, ran, taken⟩ := ih (sink.write first).1 others
          rw [runAll_cons, written]
          exact ⟨after, _, ran, (sink.takes_write first).append taken⟩

end Streams

end Producer

end BoundedPrintf
