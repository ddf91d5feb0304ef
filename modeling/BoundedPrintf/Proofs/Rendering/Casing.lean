import Mathlib
import BoundedPrintf.Proofs.Field.Casing
import BoundedPrintf.Proofs.Rendering.Single
import BoundedPrintf.Proofs.Sink.Producer

/-! Directives in upper case. What `%X`, `%F`, `%E` or `%G` puts out is what the directive in lower case
puts out, in capitals, however much of it fits. -/
namespace BoundedPrintf

/-- Two writings into one sink, the second of which appends the capitals of what the first does. -/
structure Sink.Capitalised (before : Sink) (lower upper : Sink × Bool) : Prop where
  appended : ∃ bytes, lower.1.output = before.output ++ bytes ∧
    upper.1.output = before.output ++ bytes.map capital
  fitted : upper.2 = lower.2
  untouched : ∀ i, upper.1.written ≤ i → upper.1.buffer[i]? = lower.1.buffer[i]?

theorem Sink.capitalised_write (sink : Sink) (stream : Bytes) :
    sink.Capitalised (sink.write stream) (sink.write (stream.map capital)) := by
  have lower := sink.takes_write stream
  have upper := sink.takes_write (stream.map capital)
  have written : (sink.write (stream.map capital)).1.written = (sink.write stream).1.written := by
    rw [lower.written, upper.written, List.length_map]
  refine ⟨⟨stream.take sink.room, lower.output, ?_⟩, ?_, ?_⟩
  · rw [upper.output, List.map_take]
  · rw [Bool.eq_iff_iff, upper.fits, lower.fits, List.length_map]
  · intro i behind
    rw [upper.untouched i behind, lower.untouched i (written ▸ behind)]

/-- A store, a rejection or a crash has no letters. -/
def Action.capitals : Action → Action
  | .emit stream => .emit (stream.map capital)
  | action => action

/-- A rendering puts out capitals where another one puts out what they are the capitals of. -/
theorem Rendering.perform_capitals (rendering : Rendering) (action : Action) :
    (∃ bytes, (rendering.perform action).1.sink.output = rendering.sink.output ++ bytes ∧
      (rendering.perform action.capitals).1.sink.output =
        rendering.sink.output ++ bytes.map capital) ∧
      (rendering.perform action.capitals).1.stores = (rendering.perform action).1.stores ∧
      (rendering.perform action.capitals).2 = (rendering.perform action).2 := by
  cases action with
  | emit stream =>
      obtain ⟨appended, fitted, -⟩ := rendering.sink.capitalised_write stream
      rw [Action.capitals, perform, perform, wrote_eq, wrote_eq]
      exact ⟨appended, rfl, by rw [fitted]⟩
  | store | skip | reject | stop | crash =>
      exact ⟨⟨[], (List.append_nil _).symm, (List.append_nil _).symm⟩, rfl, rfl⟩

section Capitals

variable [Build]

namespace Producer

variable (spec : Spec) (sink : Sink)

theorem unsigned_capitalised (value : Nat) : ∃ lower upper,
    (unsigned value { spec with conversion := octet 'x' }).run sink = some lower ∧
      (unsigned value { spec with conversion := octet 'X' }).run sink = some upper ∧
      sink.Capitalised lower upper := by
  refine ⟨_, _, rfl, rfl, ?_⟩
  rw [Sink.emitAll_eq_write, Sink.emitAll_eq_write, Field.unsigned_capitals, Chunk.flatten_capitals]
  exact sink.capitalised_write _

theorem float_capitalised (value : Binary64) {letter : UInt8} (known : letter ∈ ascii "feg") :
    Option.Rel sink.Capitalised ((float value { spec with conversion := letter }).run sink)
      ((float value { spec with conversion := capital letter }).run sink) := by
  rw [run_eq_write, run_eq_write, stream, stream, Field.float_capitals spec value known]
  cases Field.float value { spec with conversion := letter } with
  | none => exact .none
  | some chunks =>
      refine .some ?_
      rw [Chunk.flatten_capitals]
      exact sink.capitalised_write _

end Producer

namespace Spec

variable (spec : Spec) (supply : Argument.Supply) {letter : UInt8}

omit [Build] in
/-- Arguments replace stars whatever the conversion is. -/
theorem resolve_with_conversion (conversion : UInt8) (cursor : Cursor) :
    resolve { spec with conversion } cursor =
      ({ (spec.resolve cursor).1 with conversion }, (spec.resolve cursor).2) := by
  by_cases width : spec.width = .argument <;> by_cases precision : spec.precision = .argument <;>
    simp [resolve, width, precision, withWidth, withPrecision]

theorem effect_of_float (known : letter ∈ ascii "fegFEG") :
    effect { spec with conversion := letter } supply =
      (Field.float (.ofBits supply.double) { spec with conversion := letter }).elim .crash .emit := by
  have letters : letter = octet 'f' ∨ letter = octet 'e' ∨ letter = octet 'g' ∨
      letter = octet 'F' ∨ letter = octet 'E' ∨ letter = octet 'G' := by
    simpa [ascii] using known
  rcases letters with rfl | rfl | rfl | rfl | rfl | rfl <;> rfl

/-- The effect of a directive in upper case is that in lower case, in capitals. -/
theorem effect_capitals (known : letter ∈ ascii "xfeg") :
    Action.ofEffect (effect { spec with conversion := capital letter } supply) =
      (Action.ofEffect (effect { spec with conversion := letter } supply)).capitals := by
  rcases List.mem_cons.mp known with same | float
  · obtain rfl : letter = octet 'x' := same
    have lower : effect { spec with conversion := octet 'x' } supply = .emit
        (Field.unsigned (supply.unsigned spec.length) { spec with conversion := octet 'x' }) := rfl
    have upper : effect { spec with conversion := octet 'X' } supply = .emit
        (Field.unsigned (supply.unsigned spec.length) { spec with conversion := octet 'X' }) := rfl
    have big : capital (octet 'x') = octet 'X' := by decide
    rw [big, lower, upper, Field.unsigned_capitals, Action.ofEffect, Action.ofEffect,
      Action.capitals, Chunk.flatten_capitals]
  · have letters : ∀ letter ∈ ascii "feg", letter ∈ ascii "fegFEG" ∧
        capital letter ∈ ascii "fegFEG" := by decide +kernel
    obtain ⟨lower, upper⟩ := letters letter float
    rw [effect_of_float spec supply lower, effect_of_float spec supply upper,
      Field.float_capitals spec _ float]
    cases Field.float (.ofBits supply.double) { spec with conversion := letter } with
    | none => rfl
    | some chunks => exact congrArg Action.emit (Chunk.flatten_capitals chunks)

/-- A directive in upper case takes the same arguments and puts out the capitals. -/
theorem action_capitals (known : letter ∈ ascii "xfeg") (cursor : Cursor) :
    action { spec with conversion := capital letter } cursor =
      ((action { spec with conversion := letter } cursor).1.capitals,
        (action { spec with conversion := letter } cursor).2) := by
  simp only [action, resolve_with_conversion, effect_capitals _ _ known]

end Spec

variable {lower upper : Bytes} {spec other : Spec} {size : Nat}

/-- Of two directives of which one puts out the capitals of the other, so do their renderings. -/
theorem render_capitals {args : List Argument}
    (single : Template.segments lower = [⟨.directive spec, size⟩])
    (otherSingle : Template.segments upper = [⟨.directive other, size⟩])
    (capitals : other.action (Cursor.ofList args) =
      ((spec.action (Cursor.ofList args)).1.capitals, (spec.action (Cursor.ofList args)).2))
    (buffer : Array UInt8) (mode : Mode) :
    emitted buffer upper args mode = (emitted buffer lower args mode).map capital ∧
      (render buffer upper args mode).result = (render buffer lower args mode).result ∧
      (render buffer upper args mode).consumed = (render buffer lower args mode).consumed ∧
      (render buffer upper args mode).stores = (render buffer lower args mode).stores := by
  by_cases nonempty : 0 < buffer.size
  · have low := ofCall_directive nonempty args mode single
    have high := ofCall_directive nonempty args mode otherSingle
    rw [capitals] at high
    obtain ⟨⟨bytes, lowerOutput, upperOutput⟩, stores, progress⟩ :=
      (Rendering.start buffer nonempty args).perform_capitals (spec.action (Cursor.ofList args)).1
    have output : emitted buffer upper args mode = (emitted buffer lower args mode).map capital := by
      rw [emitted_eq_output nonempty, emitted_eq_output nonempty, low, high]
      split
      · rfl
      · exact upperOutput.trans (congrArg (List.map capital) lowerOutput.symm)
    have stops : (Rendering.ofCall buffer nonempty upper args mode).2 =
        (Rendering.ofCall buffer nonempty lower args mode).2 := by
      rw [low, high]
      split
      · rfl
      · exact congrArg (Progress.stop? 0) progress
    refine ⟨output, ?_, ?_, ?_⟩
    · rw [result_render nonempty, result_render nonempty, output, List.length_map, stops]
    · rw [consumed_render nonempty, consumed_render nonempty, low, high]
      split <;> rfl
    · rw [stores_render nonempty, stores_render nonempty, low, high]
      split
      · rfl
      · exact stores
  · have closed : Sink.ofBuffer? buffer = none := by simp [Sink.ofBuffer?, nonempty]
    simp [emitted, nonempty, render, closed]

/-- Conversions in upper case are the capitals of those in lower case, for every value, under every
directive, at every state of the sink, and so in every call with a template of one directive. A
double has no field in either case where its decimal places are too many. -/
theorem upper_case_is_capitals :
    (∀ (spec : Spec) (value : Nat) (sink : Sink), ∃ lower upper,
      (Producer.unsigned value { spec with conversion := octet 'x' }).run sink = some lower ∧
        (Producer.unsigned value { spec with conversion := octet 'X' }).run sink = some upper ∧
        sink.Capitalised lower upper) ∧
    (∀ (spec : Spec) (value : Binary64) (sink : Sink), ∀ letter ∈ ascii "feg",
      let lower := Producer.float value { spec with conversion := letter }
      let upper := Producer.float value { spec with conversion := capital letter }
      Option.Rel sink.Capitalised (lower.run sink) (upper.run sink) ∧
        (lower.run sink = none ↔ Build.checksSums = true ∧ lower.Overflows)) ∧
    ∀ modifiers : Bytes, (∀ b ∈ modifiers, isModifier b = true) → ∀ letter ∈ ascii "xfeg",
      ∀ (buffer : Array UInt8) (args : List Argument) (mode : Mode),
      let lower := octet '%' :: (modifiers ++ [letter])
      let upper := octet '%' :: (modifiers ++ [capital letter])
      emitted buffer upper args mode = (emitted buffer lower args mode).map capital ∧
        (render buffer upper args mode).result = (render buffer lower args mode).result ∧
        (render buffer upper args mode).consumed = (render buffer lower args mode).consumed ∧
        (render buffer upper args mode).stores = (render buffer lower args mode).stores := by
  refine ⟨?_, ?_, ?_⟩
  · intro spec value sink
    exact Producer.unsigned_capitalised spec sink value
  · intro spec value sink letter known
    refine ⟨Producer.float_capitalised spec sink value known, ?_⟩
    rw [Producer.run_eq_write, Option.map_eq_none_iff]
    exact Producer.stream_eq_none_iff _
  · intro modifiers all letter known buffer args mode lower upper
    have conversions : ∀ letter ∈ ascii "xfeg", letter ∈ Grammar.conversions ∧
        capital letter ∈ Grammar.conversions := by decide +kernel
    obtain ⟨lowerKnown, upperKnown⟩ := conversions letter known
    have capitals := Spec.action_capitals
      ((modifiers.foldl Directive.Draft.step {}).toSpec letter) known (Cursor.ofList args)
    exact render_capitals (segments_of_single all lowerKnown) (segments_of_single all upperKnown)
      capitals buffer mode

end Capitals

/-- Capitals are cut where the small letters are. -/
theorem hexadecimal_capitals_cut :
    let _ : Build := .checked
    (∀ b ∈ ascii "#", isModifier b = true) ∧ octet 'x' ∈ ascii "xfeg" ∧
      emitted (Array.replicate 5 0xAA) (ascii "%#X") [.uint 0xBEEF] .strict = ascii "0XBE" ∧
      (render (Array.replicate 5 0xAA) (ascii "%#X") [.uint 0xBEEF] .strict).result = .ok 4 := by
  intro _
  have all : ∀ b ∈ ascii "#", isModifier b = true := by decide +kernel
  have known : octet 'x' ∈ ascii "xfeg" := by decide +kernel
  obtain ⟨output, result, -, -⟩ := upper_case_is_capitals.2.2 (ascii "#") all (octet 'x') known
    (Array.replicate 5 0xAA) [.uint 0xBEEF] .strict
  have template : octet '%' :: (ascii "#" ++ [capital (octet 'x')]) = ascii "%#X" := by
    decide +kernel
  rw [template] at output result
  refine ⟨all, known, output.trans ?_, result.trans ?_⟩
  · cbv
  · cbv

end BoundedPrintf
