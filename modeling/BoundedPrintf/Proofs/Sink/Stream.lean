import BoundedPrintf.Sink

/-! A sink takes the part of a byte stream that fits. However the stream is cut into bytes, runs and
chunks, it is written like one text, and `Takes` says all that writing does. -/
namespace BoundedPrintf.Sink

/-- The bytes written so far. -/
def output (sink : Sink) : Bytes := sink.buffer.toList.take sink.written

/-- How many more bytes fit before the terminator. -/
def room (sink : Sink) : Nat := sink.capacity - sink.written

variable {sink before middle after : Sink} {first second : Bytes} {fitted frontFits backFits : Bool}

@[simp] theorem length_output (sink : Sink) : sink.output.length = sink.written := by
  have := sink.written_lt
  simp only [output, List.length_take, Array.length_toList]
  omega

theorem written_add_room (sink : Sink) : sink.written + sink.room = sink.capacity := by
  have := sink.written_lt
  simp only [room, capacity]
  omega

theorem isFull_iff : sink.isFull = true ↔ sink.room = 0 := by
  have := sink.written_add_room
  simp only [isFull, decide_eq_true_eq]
  omega

theorem isFull_eq_false_iff : sink.isFull = false ↔ 0 < sink.room := by
  rw [← Bool.not_eq_true, isFull_iff, Nat.pos_iff_ne_zero]

/-- Writing a stream appends the longest part of it that fits, changes nothing behind that part, and
answers whether it was the whole stream. -/
structure Takes (before : Sink) (stream : Bytes) (after : Sink) (fitted : Bool) : Prop where
  size : after.buffer.size = before.buffer.size
  output : after.output = before.output ++ stream.take before.room
  untouched : ∀ i, after.written ≤ i → after.buffer[i]? = before.buffer[i]?
  fits : fitted = true ↔ stream.length ≤ before.room

namespace Takes

theorem capacity (takes : Takes before first after fitted) : after.capacity = before.capacity := by
  simp only [Sink.capacity, takes.size]

theorem written (takes : Takes before first after fitted) :
    after.written = before.written + min before.room first.length := by
  rw [← length_output, takes.output]
  simp

theorem room (takes : Takes before first after fitted) :
    after.room = before.room - first.length := by
  have := takes.written
  have := before.written_add_room
  have := after.written_add_room
  have := takes.capacity
  omega

theorem full (taken : Takes before first after false) : after.isFull = true := by
  have exceeds : ¬ first.length ≤ before.room := fun fits => nomatch taken.fits.mpr fits
  have room := taken.room
  exact isFull_iff.mpr (by omega)

theorem nil (sink : Sink) : Takes sink [] sink true := by
  constructor <;> simp

/-- Two streams in a row are one. When the first overflows, no room is left for the second. -/
theorem append (front : Takes before first middle frontFits)
    (back : Takes middle second after backFits) :
    Takes before (first ++ second) after (frontFits && backFits) := by
  refine ⟨back.size.trans front.size, ?_, ?_, ?_⟩
  · rw [back.output, front.output, front.room, List.take_append, List.append_assoc]
  · intro i behind
    have := back.written
    exact (back.untouched i behind).trans (front.untouched i (by omega))
  · rw [Bool.and_eq_true, front.fits, back.fits, front.room, List.length_append]
    omega

/-- Whatever would have followed an overflow is not taken either. -/
theorem overflow (front : Takes before first after false) :
    Takes before (first ++ second) after false := by
  have exceeds : ¬ first.length ≤ before.room := fun fits => nomatch front.fits.mpr fits
  refine ⟨front.size, ?_, front.untouched, ?_⟩
  · rw [front.output, List.take_append_of_le_length (by omega)]
  · simp only [Bool.false_eq_true, false_iff, List.length_append]
    omega

end Takes

theorem takes_put (sink : Sink) (byte : UInt8) :
    Takes sink [byte] (sink.put byte).1 (sink.put byte).2 := by
  have inside := sink.written_lt
  by_cases free : sink.written + 1 < sink.buffer.size
  · have some : 1 ≤ sink.room := by
      simp only [room, capacity]
      omega
    simp only [put, free, dite_true]
    refine ⟨by simp, ?_, ?_, by simpa using some⟩
    · rw [List.take_of_length_le (by simpa using some)]
      simp only [output, Array.toList_set]
      rw [List.take_succ_eq_append_getElem (by simpa using inside),
        List.take_set_of_le (Nat.le_refl _), List.getElem_set_self]
    · intro i behind
      exact Array.getElem?_set_ne inside (Nat.ne_of_lt behind)
  · have none : sink.room = 0 := by
      simp only [room, capacity]
      omega
    rw [put_full free]
    exact ⟨rfl, by simp [none], fun _ _ => rfl, by simp [none]⟩

theorem takes_write (sink : Sink) (stream : Bytes) :
    Takes sink stream (sink.write stream).1 (sink.write stream).2 := by
  induction stream generalizing sink with
  | nil => exact .nil sink
  | cons byte rest ih =>
      have first := sink.takes_put byte
      rcases answer : sink.put byte with ⟨next, _ | _⟩
      · rw [answer] at first
        have stopped : Takes sink ([byte] ++ rest) next false := first.overflow
        rw [write, answer]
        exact stopped
      · rw [answer] at first
        simpa only [write, answer, List.singleton_append, Bool.true_and] using
          first.append (ih next)

theorem write_append (sink : Sink) (first second : Bytes) :
    sink.write (first ++ second) = match sink.write first with
      | (sink, true) => sink.write second
      | (sink, false) => (sink, false) := by
  induction first generalizing sink with
  | nil => rfl
  | cons byte rest ih =>
      simp only [List.cons_append, write]
      rcases sink.put byte with ⟨next, _ | _⟩
      · rfl
      · exact ih next

theorem write_of_full (full : sink.isFull = true) {bytes : Bytes} (some : bytes ≠ []) :
    sink.write bytes = (sink, false) := by
  have inside := sink.written_lt
  have none : ¬ sink.written + 1 < sink.buffer.size := by
    have room := isFull_iff.mp full
    simp only [Sink.room, capacity] at room
    omega
  cases bytes with
  | nil => contradiction
  | cons byte rest => rw [write, put_full none]

theorem put_eq_write (sink : Sink) (byte : UInt8) : sink.put byte = sink.write [byte] := by
  simp only [write]
  rcases sink.put byte with ⟨next, _ | _⟩ <;> rfl

theorem fill_eq_write (sink : Sink) (byte : UInt8) (count : Nat) :
    sink.fill byte count = sink.write (List.replicate count byte) := by
  induction count generalizing sink with
  | zero => rfl
  | succ count ih =>
      simp only [fill, List.replicate_succ, write]
      rcases sink.put byte with ⟨next, _ | _⟩
      · rfl
      · exact ih next

theorem emit_eq_write (sink : Sink) (chunk : Chunk) : sink.emit chunk = sink.write chunk.bytes := by
  cases chunk with
  | text bytes => rfl
  | fill byte count => exact sink.fill_eq_write byte count

/-- The stops between chunks cannot be told from the stops inside them. -/
theorem emitAll_eq_write (sink : Sink) (chunks : List Chunk) :
    sink.emitAll chunks = sink.write (Chunk.flatten chunks) := by
  induction chunks generalizing sink with
  | nil => rfl
  | cons chunk rest ih =>
      simp only [emitAll, Chunk.flatten, List.flatMap_cons, write_append, emit_eq_write]
      rcases sink.write chunk.bytes with ⟨next, _ | _⟩
      · rfl
      · exact ih next

end BoundedPrintf.Sink
