import BoundedPrintf.Argument
import BoundedPrintf.Field
import BoundedPrintf.Mode
import BoundedPrintf.RenderError
import BoundedPrintf.Sink
import BoundedPrintf.Template

/-! Rendering a template into a buffer. Scanning stops when the buffer is full, when the template
ends or inside an unfinished directive. The number of bytes answered is always below the size of the
buffer, and the terminator stands right after them. A directive whose text stops the program leaves
the buffer as it is then, without a terminator. -/
namespace BoundedPrintf

/-- The largest count that a `%n` target and a signed 32-bit return value can hold. -/
def maxCount : Nat := 2 ^ 31 - 1

/-- A `%n` target and the count that it received. -/
structure Store where
  target : Nat
  count : Nat
  deriving DecidableEq, Repr

/-- What a directive does once it has its value. -/
inductive Effect
  | emit (chunks : List Chunk)
  | store (target : Nat)
  | nothing
  | crash
  deriving DecidableEq, Repr

namespace Spec

/-- Puts an argument in the place of a `*` width. A negative one means left alignment. -/
def withWidth (spec : Spec) (width : Int) : Spec :=
  { spec with
    flags.alignment := if width < 0 then .left else spec.flags.alignment
    width := .fixed width.natAbs }

/-- Puts an argument in the place of a `*` precision. A negative one means that none was given. -/
def withPrecision (spec : Spec) (precision : Int) : Spec :=
  { spec with precision := if precision < 0 then .absent else .fixed precision.toNat }

/-- Replaces stars by arguments, the width first. -/
def resolve (spec : Spec) (cursor : Cursor) : Spec × Cursor :=
  let (spec, cursor) :=
    if spec.width = .argument then
      let (supply, cursor) := cursor.next
      (spec.withWidth supply.star, cursor)
    else (spec, cursor)
  if spec.precision = .argument then
    let (supply, cursor) := cursor.next
    (spec.withPrecision supply.star, cursor)
  else (spec, cursor)

/-- What a directive without stars does with its value. -/
def effect [Build] (spec : Spec) (supply : Argument.Supply) : Effect :=
  match Char.ofUInt8 spec.conversion with
  | 'd' | 'i' => .emit (Field.signed (supply.signed spec.length) spec)
  | 'u' | 'o' | 'x' | 'X' => .emit (Field.unsigned (supply.unsigned spec.length) spec)
  | 'f' | 'F' | 'e' | 'E' | 'g' | 'G' => (Field.float (Binary64.ofBits supply.double) spec).elim .crash .emit
  | 's' => .emit (Field.text supply.text? spec)
  | 'c' => .emit (Field.char supply.byte spec)
  | 'p' => .emit (Field.pointer supply.pointer spec)
  | 'n' => match supply.target? with
    | some target => .store target
    | none => .nothing
  | _ => .nothing

end Spec

/-- A rendering in progress. The stores are in the order in which they happened. -/
structure Rendering where
  sink : Sink
  cursor : Cursor
  stores : List Store := []

/-- How a piece of the template leaves a rendering. -/
inductive Progress
  | more
  | done
  | rejected (conversion : UInt8)
  | crashed
  deriving DecidableEq, Repr

/-- What keeps a rendering from returning a number of bytes. -/
inductive Stop
  | failed (error : RenderError)
  | crashed
  deriving DecidableEq, Repr

/-- What the piece at an offset stops a rendering with. -/
def Progress.stop? (offset : Nat) : Progress → Option Stop
  | .more | .done => none
  | .rejected conversion => some (.failed (.unsupportedDirective offset conversion))
  | .crashed => some .crashed

namespace Rendering

/-- The rendering after some output. It is done when not all of the output fitted. -/
def wrote (rendering : Rendering) : Sink × Bool → Rendering × Progress
  | (sink, true) => ({ rendering with sink }, .more)
  | (sink, false) => ({ rendering with sink }, .done)

/-- The count that a `%n` directive stores. -/
def count (rendering : Rendering) : Nat := min rendering.sink.written maxCount

def apply (rendering : Rendering) : Effect → Rendering × Progress
  | .emit chunks => rendering.wrote (rendering.sink.emitAll chunks)
  | .store target => ({ rendering with stores := rendering.stores ++ [⟨target, rendering.count⟩] }, .more)
  | .nothing => (rendering, .more)
  | .crash => (rendering, .crashed)

/-- The rendering after one directive, which takes its stars and then its value from the
arguments. -/
def directive [Build] (rendering : Rendering) (spec : Spec) : Rendering × Progress :=
  let (spec, cursor) := spec.resolve rendering.cursor
  let (supply, cursor) := cursor.next
  { rendering with cursor }.apply (spec.effect supply)

def segment [Build] (mode : Mode) (rendering : Rendering) : Segment → Rendering × Progress
  | .literal bytes => rendering.wrote (rendering.sink.write bytes)
  | .percent => rendering.wrote (rendering.sink.put (octet '%'))
  | .directive spec => rendering.directive spec
  | .unsupported conversion => (rendering, if mode.rejectsUnknown then .rejected conversion else .more)
  | .incomplete => (rendering, .done)

/-- The rendering after the pieces of a template, the first of which stands at the given offset, and
what stopped it at a directive. -/
def run [Build] (mode : Mode) (rendering : Rendering) (offset : Nat) : List Piece → Rendering × Option Stop
  | [] => (rendering, none)
  | piece :: rest =>
      if rendering.sink.isFull then (rendering, none)
      else
        match rendering.segment mode piece.segment with
        | (rendering, .more) => rendering.run mode (offset + piece.size) rest
        | (rendering, progress) => (rendering, progress.stop? offset)

end Rendering

/-- How a call ends. A call that crashes does not return. -/
inductive Ending
  | ok (written : Nat)
  | error (error : RenderError)
  | crash
  deriving DecidableEq, Repr

/-- What a call leaves behind: how it ended, the buffer, how many arguments were handed out, and the
stores into `%n` targets. -/
structure Outcome where
  result : Ending
  buffer : Array UInt8
  consumed : Nat
  stores : List Store

/-- What is left behind when a rendering comes to its end or is stopped. -/
def Rendering.outcome (rendering : Rendering) (stop : Option Stop) : Outcome :=
  { result := match stop with
      | none => .ok rendering.sink.written
      | some (.failed error) => .error error
      | some .crashed => .crash
    buffer := if stop = some .crashed then rendering.sink.buffer else rendering.sink.finish
    consumed := rendering.cursor.consumed
    stores := rendering.stores }

/-- Renders a template into a buffer. -/
def render [Build] (buffer : Array UInt8) (template : Bytes) (args : List Argument) (mode : Mode) : Outcome :=
  match Sink.ofBuffer? buffer with
  | none => { result := .error .bufferTooSmall, buffer, consumed := 0, stores := [] }
  | some sink =>
      let (rendering, stop) := Rendering.run mode { sink, cursor := Cursor.ofList args } 0 (Template.segments template)
      rendering.outcome stop

namespace Outcome

/-- The number of bytes as a signed 32-bit value, -1 for every error. -/
def returned? (outcome : Outcome) : Option Int :=
  match outcome.result with
  | .ok written => some (min written maxCount)
  | .error _ => some (-1)
  | .crash => none

/-- The values of the targets after the call, given those before it. The last store into a target
counts. -/
def counts (outcome : Outcome) (before : List Int) : List Int :=
  outcome.stores.foldl (fun values store => values.set store.target store.count) before

end Outcome

/-- The number of `%n` targets that arguments speak of: one more than the highest. -/
def targetCount (args : List Argument) : Nat :=
  (args.filterMap fun
    | .count target _ => some (target + 1)
    | _ => none).foldl max 0

/-- Every target holds this value until a `%n` directive stores into it. -/
def untouchedCount : Int := -1

end BoundedPrintf
