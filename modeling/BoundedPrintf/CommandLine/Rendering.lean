import BoundedPrintf.CommandLine.Options
import BoundedPrintf.CommandLine.Plan
import BoundedPrintf.Conformance.Execution

/-! The command that renders one template and shows the result: the output on its own, then the
return value and the value of each count target. -/
namespace BoundedPrintf.CommandLine

/-- The return value, the number of bytes to show and the error to report. -/
def renderedResult? (outcome : Outcome) : Option (Int × Nat × Option RenderError) :=
  match outcome.result with
  | .ok written => some (written, written, none)
  | .error .bufferTooSmall => some (-1, 0, none)
  | .error error => some (-1, (outcome.buffer.toList.findIdx? (· = 0)).getD 0, some error)
  | .crash => none

/-- What is shown of a rendering with these arguments. -/
def renderedPlan (args : List FixtureArgument) (outcome : Outcome) : Plan :=
  match renderedResult? outcome with
  | none => { finish := .crash }
  | some (returned, shown, error) =>
      { steps :=
          (error.map fun error => .tell ("error: " ++ error.message ++ "\n")).toList ++
          [.print (Text.decodeLossy (outcome.buffer.toList.take shown) ++ "\n"),
            .tell ("ret=" ++ toString returned ++ "\n")] ++
          (Conformance.countEntries args outcome).map fun (label, count) =>
            .tell (label ++ "=" ++ toString count ++ "\n") }

def RenderOptions.plan [Build] (options : RenderOptions) (addresses : FixtureArgument.Addresses) : Plan :=
  match Mode.readChoice options.mode with
  | .error failure => { finish := .failure failure.shown }
  | .ok [mode] =>
      match options.args.mapM FixtureArgument.readShort with
      | .error failure => { finish := .failure failure.shown }
      | .ok args =>
          match Conformance.freshBuffer? options.capacity 0 with
          | none => { finish := .crash }
          | some buffer =>
              renderedPlan args
                (render buffer (Text.utf8 options.template) (FixtureArgument.bind addresses args) mode)
  | .ok _ => { finish := .failure (Text.quote "render takes a single mode (compat or strict)") }

end BoundedPrintf.CommandLine
