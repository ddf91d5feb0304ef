import BoundedPrintf.FileTree
import BoundedPrintf.Fixture.Case
import BoundedPrintf.Text.Quoted

/-! Why fixtures cannot be loaded or a request cannot be understood, with the text for a reader and
the form in which a command shows it. -/
namespace BoundedPrintf

namespace FileFault

/-- The number that the operating system gives a fault. A path that cannot be handed to the system
and text that is ill formed are no faults of the system. -/
def code? : FileFault → Option Nat
  | .notFound => some 2
  | .notDirectory => some 20
  | .isDirectory => some 21
  | .nameTooLong => some 36
  | .nulInPath | .notText => none

def kind : FileFault → String
  | .notFound => "NotFound"
  | .notDirectory => "NotADirectory"
  | .isDirectory => "IsADirectory"
  | .nameTooLong => "InvalidFilename"
  | .nulInPath => "InvalidInput"
  | .notText => "InvalidData"

def description : FileFault → String
  | .notFound => "No such file or directory"
  | .notDirectory => "Not a directory"
  | .isDirectory => "Is a directory"
  | .nameTooLong => "File name too long"
  | .nulInPath => "file name contained an unexpected NUL byte"
  | .notText => "stream did not contain valid UTF-8"

def message (fault : FileFault) : String :=
  match fault.code? with
  | some code => fault.description ++ " (os error " ++ toString code ++ ")"
  | none => fault.description

/-- The fault with its parts by name. -/
def shown (fault : FileFault) : String :=
  let parts := "kind: " ++ fault.kind ++ ", message: " ++ Text.quote fault.description ++ " \x7d"
  match fault.code? with
  | some code => "Os \x7b code: " ++ toString code ++ ", " ++ parts
  | none => "Error \x7b " ++ parts

end FileFault

inductive Failure
  | io (path : String) (fault : FileFault)
  /-- The file holds no fixture set in JSON. -/
  | json (path : String)
  | fixture (name : String) (fault : CaseFault)
  | noFixtures (path : String)
  | argument (spec : String)
  | mode (text : String)
  deriving DecidableEq, Repr

namespace Failure

def message : Failure → String
  | .io path fault => "i/o error on " ++ path ++ ": " ++ fault.message
  | .json path => "invalid fixture JSON in " ++ path
  | .fixture name fault => "fixture case '" ++ name ++ "': " ++ fault.message
  | .noFixtures path => "no fixture JSON files found in " ++ path
  | .argument spec =>
      "invalid argument '" ++ spec ++ "', expected one of i:<n> u:<n> f:<x> s:<text> p:<n> n:<label> null"
  | .mode text => "unknown mode '" ++ text ++ "', expected compat|strict|both"

/-- The failure by name with its parts. -/
def shown : Failure → String
  | .io path fault => "Io \x7b path: " ++ Text.quote path ++ ", source: " ++ fault.shown ++ " \x7d"
  | .json path => "Json \x7b path: " ++ Text.quote path ++ " \x7d"
  | .fixture name fault =>
      "Fixture \x7b case: " ++ Text.quote name ++ ", message: " ++ Text.quote fault.message ++ " \x7d"
  | .noFixtures path => "NoFixtures(" ++ Text.quote path ++ ")"
  | .argument spec => "ArgSpec(" ++ Text.quote spec ++ ")"
  | .mode text => "Mode(" ++ Text.quote text ++ ")"

end Failure

/-- Reads an argument in its short form. -/
def FixtureArgument.readShort (spec : String) : Except Failure FixtureArgument :=
  match ofShort? spec with
  | some arg => .ok arg
  | none => .error (.argument spec)

end BoundedPrintf
