import BoundedPrintf.Text.Quoted
import BoundedPrintf.Text.Utf8

/-! Two texts side by side. The output of a case is one line, so a difference is shown by the first
byte at which the texts part. -/
namespace BoundedPrintf.Conformance

/-- The number of bytes that two byte strings share at their start. -/
def sharedLength : Bytes → Bytes → Nat
  | a :: as, b :: bs => if a = b then sharedLength as bs + 1 else 0
  | _, _ => 0

def diff (expected actual : String) : String :=
  if expected = actual then "[identical]"
  else
    let line (mark text : String) : String :=
      mark ++ Text.quote text ++ " (len " ++ toString text.utf8ByteSize ++ ")\n"
    "--- expected\n+++ actual\n@@ byte " ++
      toString (sharedLength (Text.utf8 expected) (Text.utf8 actual)) ++ " @@\n" ++
      line "-" expected ++ line "+" actual

end BoundedPrintf.Conformance
