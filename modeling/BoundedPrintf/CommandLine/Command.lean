import BoundedPrintf.CommandLine.Rendering
import BoundedPrintf.CommandLine.Verifying

/-! Every command as a plan, and a command line as its effects on a snapshot of the files. -/
namespace BoundedPrintf.CommandLine

/-- What a program is given besides its words: the files, the time, and where it keeps the values of
the run of a template and of the runs of fixture cases. -/
structure World where
  tree : FileTree
  clock : Clock
  addresses : FixtureArgument.Addresses
  memory : Memory

/-- What a command does. -/
def Command.plan [Build] (command : Command) (world : World) : Plan :=
  match command with
  | .verify options => options.plan world.tree world.memory world.clock
  | .render options => options.plan world.addresses

/-- What a request leads to. Help is printed and is no failure. -/
def Request.plan [Build] (request : Request) (world : World) : Plan :=
  match request with
  | .run command => command.plan world
  | .help topic => { steps := [.print topic.text] }

/-- The exit code for words that ask for nothing. -/
def misuseCode : Nat := 2

/-- The effects of a command line, unless its words ask for nothing. -/
def effects? [Build] (words : List String) (world : World) : Option Effects :=
  (Request.ofWords? words).map fun request => (request.plan world).run world.tree

end BoundedPrintf.CommandLine
