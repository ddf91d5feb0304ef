import BoundedPrintf.Failure
import BoundedPrintf.Render

/-! One rendering of a fixture case into a guarded buffer, and what it shows: the output, the return
value, the counts, and any breach of the contract between renderer and buffer. -/
namespace BoundedPrintf

namespace Mode

/-- The modes that a word stands for. The case of its letters makes no difference. -/
def ofChoice? (text : String) : Option (List Mode) :=
  let word := text.toList.map Char.toLower
  if word = "compat".toList then some [.compat]
  else if word = "strict".toList then some [.strict]
  else if word = "both".toList then some [.compat, .strict]
  else none

def readChoice (text : String) : Except Failure (List Mode) :=
  match ofChoice? text with
  | some modes => .ok modes
  | none => .error (.mode text)

end Mode

namespace Conformance

/-- What the buffer holds before a rendering, so that stray writes show. -/
def guardByte : UInt8 := 0xAA

inductive Violation
  | noTerminator (offset : Nat)
  | wroteAfterTerminator
  | wroteOnFailure
  deriving DecidableEq, Repr

def Violation.message : Violation → String
  | .noTerminator offset => "no terminator at offset " ++ toString offset
  | .wroteAfterTerminator => "bytes past the terminator were modified"
  | .wroteOnFailure => "failed render modified the buffer"

structure CaseRun where
  output : String
  returned : Int
  /-- The last value of the targets with each label. -/
  counts : Labelled Int
  error : Option RenderError
  violations : List Violation

/-- Where the output ends: after the bytes that were counted, or before the first NUL when a
directive was rejected. -/
def outputEnd (outcome : Outcome) : Option Nat :=
  match outcome.result with
  | .ok written => some written
  | .error (.unsupportedDirective ..) => outcome.buffer.toList.findIdx? (· = 0)
  | .error .bufferTooSmall | .crash => none

/-- The breaches that a buffer shows after a rendering whose output ends there. -/
def violations (buffer : Bytes) : Option Nat → List Violation
  | some position =>
      (if buffer[position]? = some 0 then [] else [.noTerminator position]) ++
        (if (buffer.drop (position + 1)).all (· = guardByte) then [] else [.wroteAfterTerminator])
  | none => if buffer.all (· = guardByte) then [] else [.wroteOnFailure]

/-- The error that a run reports. A buffer without room shows in the return value alone. -/
def reportedError (outcome : Outcome) : Option RenderError :=
  match outcome.result with
  | .error (.unsupportedDirective offset conversion) => some (.unsupportedDirective offset conversion)
  | _ => none

/-- The count targets by label, each with its value after a rendering. -/
def countEntries (args : List FixtureArgument) (outcome : Outcome) : List (String × Int) :=
  let labels := FixtureArgument.labels args
  labels.zip (outcome.counts (List.replicate labels.length untouchedCount))

/-- What a rendering that returned shows of a case. -/
def observe (args : List FixtureArgument) (outcome : Outcome) : Option CaseRun :=
  let buffer := outcome.buffer.toList
  let position := outputEnd outcome
  outcome.returned?.map fun returned =>
    { output := position.elim "" fun position => Text.decodeLossy (buffer.take position)
      returned
      counts := Labelled.ofList (countEntries args outcome)
      error := reportedError outcome
      violations := violations buffer position }

/-- The greatest number of bytes that a buffer can have. -/
def maxCapacity : Nat := 2 ^ 63 - 1

/-- The buffer of a run, which holds the same byte everywhere. A capacity that no buffer can have
stops the program. -/
def freshBuffer? (capacity : UInt64) (byte : UInt8) : Option (Array UInt8) :=
  if capacity.toNat ≤ maxCapacity then some (Array.replicate capacity.toNat byte) else none

/-- One run of a case, unless it stops the program. -/
def execute [Build] (case : FixtureCase) (mode : Mode) (addresses : FixtureArgument.Addresses) :
    Option CaseRun := do
  let buffer ← freshBuffer? case.capacity guardByte
  observe case.args (render buffer (Text.utf8 case.template) (FixtureArgument.bind addresses case.args) mode)

end Conformance

end BoundedPrintf
