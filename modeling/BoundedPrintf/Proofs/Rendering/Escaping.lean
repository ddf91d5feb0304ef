import Mathlib
import BoundedPrintf.Proofs.Rendering.Concatenation

/-! Text in a template. With every percent sign written twice any text without NUL is rendered as it
is, up to the end of the buffer. -/
namespace BoundedPrintf

/-- A byte of a text in a template. -/
def escapeByte (byte : UInt8) : Bytes := if byte = octet '%' then [byte, byte] else [byte]

/-- The template that stands for a text. -/
def escape (text : Bytes) : Bytes := text.flatMap escapeByte

theorem escape_cons (byte : UInt8) (rest : Bytes) :
    escape (byte :: rest) = escapeByte byte ++ escape rest :=
  List.flatMap_cons

theorem escape_no_nul {text : Bytes} (clean : ∀ b ∈ text, b ≠ 0) : ∀ b ∈ escape text, b ≠ 0 := by
  intro b member
  obtain ⟨byte, inside, twice⟩ := List.mem_flatMap.mp member
  have same : b = byte := by
    unfold escapeByte at twice
    split at twice <;> simpa using twice
  exact same ▸ clean byte inside

/-- An escaped byte is a piece of its own, and whatever stands next to it, it emits that byte. -/
theorem pieces_escapeByte [Build] (byte : UInt8) :
    ∃ piece, Template.pieces (escapeByte byte) = [piece] ∧ piece.segment ≠ .incomplete ∧
      ∀ (rendering : Rendering) (mode : Mode),
        rendering.segment mode piece.segment = rendering.wrote (rendering.sink.write [byte]) := by
  by_cases percent : byte = octet '%'
  · subst percent
    have parsed : Directive.parse [octet '%'] = (.percent, 1) :=
      @Directive.parse_decided [] [] _ (List.forall_mem_nil _) rfl
    refine ⟨⟨.percent, 2⟩, ?_, by decide, ?_⟩
    · simp only [escapeByte, if_true, Template.pieces_cons, Template.piece_percent, parsed,
        Directive.toSegment, Nat.add_sub_cancel, List.drop_one, List.tail_cons, Template.pieces]
    · intro rendering mode
      rw [Rendering.segment, Sink.put_eq_write]
  · refine ⟨⟨.literal [byte], 1⟩, ?_, Segment.noConfusion, fun _ _ => rfl⟩
    rw [escapeByte, if_neg percent, Template.pieces_literal percent, List.takeWhile_nil,
      List.dropWhile_nil, Template.pieces, List.length_nil]

/-- A run over an escaped text writes the text and does nothing else. -/
theorem Rendering.run_escape [Build] (rendering : Rendering) (mode : Mode) (offset : Nat) (text : Bytes) :
    rendering.run mode offset (Template.pieces (escape text)) =
      ({ rendering with sink := (rendering.sink.write text).1 }, none) := by
  induction text generalizing rendering offset with
  | nil => rw [escape, List.flatMap_nil, Template.pieces, run, Sink.write]
  | cons byte rest ih =>
      obtain ⟨piece, alone, complete, emits⟩ := pieces_escapeByte byte
      have completeAll : ∀ piece ∈ Template.pieces (escapeByte byte),
          piece.segment ≠ .incomplete := by
        simpa only [alone, List.forall_mem_singleton] using complete
      rw [escape_cons, run_pieces_append completeAll, alone, List.singleton_append]
      cases free : rendering.sink.isFull with
      | true => rw [run_of_full free, Sink.write_of_full free (List.cons_ne_nil _ _)]
      | false =>
          have step := emits rendering mode
          have whole := rendering.sink.write_append [byte] rest
          rw [List.singleton_append] at whole
          rcases written : rendering.sink.write [byte] with ⟨next, _ | _⟩
          · rw [written] at step whole
            rw [run_of_done free step, whole]
          · rw [written] at step whole
            rw [run_of_more free step, whole]
            exact ih _ _

/-- A text without NUL is rendered from its escaped form as far as it fits. Nothing is asked for and
nothing is stored. -/
theorem render_escape [Build] {text : Bytes} (clean : ∀ b ∈ text, b ≠ 0) {buffer : Array UInt8}
    (nonempty : 0 < buffer.size) (args : List Argument) (mode : Mode) :
    let outcome := render buffer (escape text) args mode
    let written := min text.length (buffer.size - 1)
    outcome.result = .ok written ∧
      outcome.buffer.toList.take (written + 1) = text.take written ++ [0] ∧
      outcome.consumed = 0 ∧ ∀ targets, outcome.counts targets = targets := by
  have call : Rendering.ofCall buffer nonempty (escape text) args mode =
      ({ Rendering.start buffer nonempty args with
        sink := ((Rendering.start buffer nonempty args).sink.write text).1 }, none) := by
    rw [Rendering.ofCall, Template.segments, beforeNul_of_no_nul (escape_no_nul clean),
      Rendering.run_escape]
  have output : emitted buffer (escape text) args mode =
      text.take (min text.length (buffer.size - 1)) := by
    have taken := (Rendering.start buffer nonempty args).sink.takes_write text
    rw [emitted_eq_output nonempty, call, taken.output]
    simp [Rendering.start, Sink.output, Sink.room, Sink.capacity, List.take_eq_take_iff,
      Nat.min_comm]
  have length : (emitted buffer (escape text) args mode).length =
      min text.length (buffer.size - 1) := by
    rw [output, List.length_take]
    omega
  have answered : (render buffer (escape text) args mode).result =
      .ok (min text.length (buffer.size - 1)) := by
    rw [result_render nonempty, call, length]
  refine ⟨answered, ?_, ?_, ?_⟩
  · rw [take_succ_buffer_render nonempty answered, output]
  · rw [consumed_render nonempty, call]
    rfl
  · intro targets
    rw [Outcome.counts, stores_render nonempty, call]
    rfl

/-- Each sign stands in front of what would make a directive of it, and the buffer ends behind the
second one. -/
theorem escaped_signs_cut_off :
    let _ : Build := .checked
    let outcome := render (Array.replicate 6 0xAA) (ascii "5%%-d%%n") [.int 7, .count 0] .strict
    escape (ascii "5%-d%n") = ascii "5%%-d%%n" ∧ outcome.result = .ok 5 ∧
      outcome.buffer.toList.take 6 = ascii "5%-d%" ++ [0] ∧ outcome.consumed = 0 := by
  intro _
  have escaped : escape (ascii "5%-d%n") = ascii "5%%-d%%n" := by decide +kernel
  have clean : ∀ b ∈ ascii "5%-d%n", b ≠ 0 := by decide +kernel
  obtain ⟨result, output, consumed, _⟩ := render_escape clean
    (by decide : 0 < (Array.replicate 6 (0xAA : UInt8)).size) [.int 7, .count 0] .strict
  rw [escaped] at result output consumed
  exact ⟨escaped, result, output.trans (by decide +kernel), consumed⟩

end BoundedPrintf
