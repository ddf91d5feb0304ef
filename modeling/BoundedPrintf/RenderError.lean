import BoundedPrintf.Text.Quoted

/-! Why a rendering fails. Truncation is no error: it shows in the number of bytes only. -/
namespace BoundedPrintf

inductive RenderError
  /-- The buffer has no room for the terminator, and nothing was written. -/
  | bufferTooSmall
  /-- A conversion that is not known, with the position of the percent sign of its directive. -/
  | unsupportedDirective (offset : Nat) (conversion : UInt8)
  deriving DecidableEq, Repr

namespace RenderError

def message : RenderError → String
  | .bufferTooSmall => "output buffer has no room for the terminator"
  | .unsupportedDirective offset conversion =>
      "unsupported conversion " ++ Text.quoteChar (Char.ofUInt8 conversion) ++ " at template offset " ++ toString offset

end RenderError

end BoundedPrintf
