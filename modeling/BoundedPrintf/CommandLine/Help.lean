/-! What the program says of itself when it is asked for help, about all of it or about one
command. -/
namespace BoundedPrintf.CommandLine

/-- What help is about. -/
inductive HelpTopic
  | program
  | verify
  | render
  | help
  deriving DecidableEq, Repr

/-- Things with their explanations, under a heading. -/
structure HelpTable where
  heading : String
  rows : List (String × String)

namespace HelpTable

/-- A row: a thing and, in the column that starts two places after the longest thing, what it is. -/
def row (width : Nat) : String × String → String
  | (thing, explanation) =>
      "  " ++ thing ++ String.ofList (List.replicate (width - thing.length + 2) ' ') ++ explanation ++ "\n"

def text (table : HelpTable) : String :=
  let width := (table.rows.map fun (thing, _) => thing.length).foldl max 0
  "\n" ++ table.heading ++ ":\n" ++ String.join (table.rows.map (row width))

end HelpTable

namespace HelpTopic

/-- The word of a command. -/
def ofWord? : String → Option HelpTopic
  | "verify" => some .verify
  | "render" => some .render
  | "help" => some .help
  | _ => none

def about : HelpTopic → String
  | .program => "Conformance testing harness for boundfmt"
  | .verify => "Verify the engine against fixture files"
  | .render => "Render one template and print the result"
  | .help => "Print this message or the help of the given subcommand(s)"

/-- How the words of a command line go together. -/
def usage : HelpTopic → String
  | .program => "harness <COMMAND>"
  | .verify => "harness verify [OPTIONS] --fixture <FIXTURE>"
  | .render => "harness render [OPTIONS] --template <TEMPLATE>"
  | .help => "harness help [COMMAND]..."

/-- The option that asks for help. -/
def helpRow : String × String := ("-h, --help", "Print help")

def tables : HelpTopic → List HelpTable
  | .program => [
      ⟨"Commands", [("verify", about .verify), ("render", about .render), ("help", about .help)]⟩,
      ⟨"Options", [helpRow]⟩]
  | .verify => [
      ⟨"Options", [
        ("    --fixture <FIXTURE>", "Fixture JSON file, or a directory of them"),
        ("    --report <REPORT>", "Output report path (markdown; JSON is written alongside)"),
        ("    --log <LOG>", "Structured JSONL log path"),
        ("    --mode <MODE>", "Render mode to verify (`compat`, `strict`, or `both`) [default: both]"),
        helpRow]⟩]
  | .render => [
      ⟨"Options", [
        ("    --template <TEMPLATE>", ""),
        ("    --capacity <CAPACITY>", "Buffer size including the terminator slot [default: 256]"),
        ("    --arg <ARGS>", "Argument: i:<n>, u:<n>, f:<x>, s:<text>, p:<n>, n:<label> or null"),
        ("    --mode <MODE>", "Render mode (`compat` or `strict`) [default: compat]"),
        helpRow]⟩]
  | .help => [⟨"Arguments", [("[COMMAND]...", "Print help for the subcommand(s)")]⟩]

def text (topic : HelpTopic) : String :=
  topic.about ++ "\n\nUsage: " ++ topic.usage ++ "\n" ++ String.join (topic.tables.map HelpTable.text)

end HelpTopic

end BoundedPrintf.CommandLine
