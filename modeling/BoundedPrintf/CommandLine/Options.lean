import BoundedPrintf.CommandLine.Help
import BoundedPrintf.Text.Integer

/-! The commands and their options. An option starts with two dashes and has a value, which
follows as the next word or after an equals sign; only after an equals sign may a value begin
with a dash. -/
namespace BoundedPrintf.CommandLine

structure VerifyOptions where
  /-- A fixture file or a directory of them. -/
  fixture : String
  report : Option String := none
  log : Option String := none
  mode : String := "both"
  deriving DecidableEq, Repr

structure RenderOptions where
  template : String
  capacity : UInt64 := 256
  args : List String := []
  mode : String := "compat"
  deriving DecidableEq, Repr

inductive Command
  | verify (options : VerifyOptions)
  | render (options : RenderOptions)
  deriving DecidableEq, Repr

/-- What the words of a command line ask for. -/
inductive Request
  | run (command : Command)
  | help (topic : HelpTopic)
  deriving DecidableEq, Repr

/-- A word that cannot be a value of its own. A single dash can. -/
def looksLikeOption (word : String) : Bool :=
  match word.toList with
  | '-' :: _ :: _ => true
  | _ => false

/-- The name of an option and the value after its equals sign. -/
def splitOption? (word : String) : Option (String × Option String) :=
  match word.toList with
  | '-' :: '-' :: body =>
      let name := body.takeWhile (· ≠ '=')
      let value := match body.drop name.length with
        | _ :: value => some (String.ofList value)
        | [] => none
      some (String.ofList name, value)
  | _ => none

/-- A word that asks for help: the short option, whatever is joined to it, or the long one. -/
def asksForHelp (word : String) : Bool := word = "--help" || word.startsWith "-h"

/-- Options by name and value in order, and whether help is asked for after them. -/
structure OptionWords where
  options : List (String × String) := []
  helpAsked : Bool := false

namespace OptionWords

def add (words : OptionWords) (name value : String) : OptionWords :=
  { words with options := (name, value) :: words.options }

/-- Reads words up to the first that asks for help. There is no reading if some word is no option,
has an unknown name or lacks its value. A word of two dashes ends the options, and nothing may follow
it. -/
def read? (known : List String) : List String → Option OptionWords
  | [] => some {}
  | word :: rest =>
      if word = "--" then if rest.isEmpty then some {} else none
      else if asksForHelp word then some { helpAsked := true }
      else
        match splitOption? word with
        | none => none
        | some (name, value) =>
            if !known.contains name then none
            else
              match value with
              | some value => (read? known rest).map (·.add name value)
              | none =>
                  match rest with
                  | [] => none
                  | value :: rest => if looksLikeOption value then none else (read? known rest).map (·.add name value)

/-- All values of an option. -/
def values (words : OptionWords) (name : String) : List String :=
  (words.options.filter (·.1 = name)).map (·.2)

/-- The value of an option that may be given once. -/
def single? (words : OptionWords) (name : String) : Option (Option String) :=
  match words.values name with
  | [] => some none
  | [value] => some (some value)
  | _ => none

/-- The value of an option that may be given once and names a file. -/
def path? (words : OptionWords) (name : String) : Option (Option String) :=
  match words.single? name with
  | some (some "") => none
  | other => other

end OptionWords

namespace Request

/-- The request of the words after the command. Each option that is given has to be right, but for
help none has to be given. -/
def ofVerifyWords? (words : List String) : Option Request := do
  let words ← OptionWords.read? ["fixture", "report", "log", "mode"] words
  let fixture ← words.path? "fixture"
  let report ← words.path? "report"
  let log ← words.path? "log"
  let mode ← words.single? "mode"
  if words.helpAsked then some (.help .verify)
  else some (.run (.verify { fixture := ← fixture, report, log, mode := mode.getD "both" }))

/-- The request of the words after the command, read by the same rule. -/
def ofRenderWords? (words : List String) : Option Request := do
  let words ← OptionWords.read? ["template", "capacity", "arg", "mode"] words
  let template ← words.single? "template"
  let capacity ← match ← words.single? "capacity" with
    | none => some 256
    | some text => Text.readUnsigned? 10 text.toList
  let mode ← words.single? "mode"
  if words.helpAsked then some (.help .render)
  else
    some (.run (.render
      { template := ← template, capacity, args := words.values "arg", mode := mode.getD "compat" }))

/-- The request of a command line. -/
def ofWords? : List String → Option Request
  | "verify" :: words => ofVerifyWords? words
  | "render" :: words => ofRenderWords? words
  | ["help"] => some (.help .program)
  | ["help", word] => (HelpTopic.ofWord? word).map .help
  | word :: _ => if asksForHelp word then some (.help .program) else none
  | [] => none

end Request

end BoundedPrintf.CommandLine
