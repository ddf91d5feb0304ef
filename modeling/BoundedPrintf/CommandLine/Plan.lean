import BoundedPrintf.Failure

/-! What a command does to the outside world, in order. A plan is carried out on a snapshot of the
files here, and by the program on the files themselves. -/
namespace BoundedPrintf.CommandLine

inductive Step
  | print (text : String)
  /-- A message that is not part of the output. -/
  | tell (text : String)
  | write (path text : String)
  deriving DecidableEq, Repr

/-- How a command ends after its steps. -/
inductive Finish
  | success
  /-- The command reports an error. -/
  | failure (error : String)
  /-- The program is stopped. -/
  | crash
  deriving DecidableEq, Repr

/-- Steps, and how the command ends after them. A file that cannot be written ends the plan with an
error of its own. -/
structure Plan where
  steps : List Step := []
  finish : Finish := .success
  deriving DecidableEq, Repr

/-- What has been printed and told, the exit code and the files. -/
structure Effects where
  output : String := ""
  messages : String := ""
  code : Nat := 0
  tree : FileTree

namespace Effects

/-- The line by which a command reports an error. -/
def failureLine (failure : String) : String := "Error: " ++ failure ++ "\n"

def fail (effects : Effects) (failure : String) : Effects :=
  { effects with messages := effects.messages ++ failureLine failure, code := 1 }

/-- The exit code of a program that is stopped. -/
def crashCode : Nat := 101

def finish (effects : Effects) : Finish → Effects
  | .success => effects
  | .failure error => effects.fail error
  | .crash => { effects with code := crashCode }

end Effects

namespace Plan

def runSteps (effects : Effects) (finish : Finish) : List Step → Effects
  | [] => effects.finish finish
  | .print text :: rest => runSteps { effects with output := effects.output ++ text } finish rest
  | .tell text :: rest => runSteps { effects with messages := effects.messages ++ text } finish rest
  | .write path text :: rest =>
      match effects.tree.write path (Text.utf8 text) with
      | .ok tree => runSteps { effects with tree } finish rest
      | .error fault => effects.fail fault.shown

/-- Carries out a plan on a snapshot. -/
def run (plan : Plan) (tree : FileTree) : Effects := runSteps { tree } plan.finish plan.steps

end Plan

end BoundedPrintf.CommandLine
