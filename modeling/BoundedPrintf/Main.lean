import BoundedPrintf.CommandLine.Command
import Std.Time.DateTime.Timestamp

/-! The program. It reads the fixture file or the directory of fixture files that a command names, lets
the library plan what to do, and does it. -/
namespace BoundedPrintf.CommandLine

/-- The fault that an error of the system comes from. -/
def faultOf : IO.Error → FileFault
  | .noFileOrDirectory .. => .notFound
  | .inappropriateType .. => .isDirectory
  | .invalidArgument .. => .nameTooLong
  | _ => .notDirectory

/-- The files and the directories in a directory. Files that cannot be read are left out. -/
def folderAt (path : String) : IO FileTree := do
  let mut files : List (String × Bytes) := []
  let mut folders : List String := []
  for entry in ← (← IO.FS.realPath path).readDir do
    try
      let contents ← IO.FS.readBinFile entry.path
      files := files ++ [(entry.fileName, contents.toList)]
    catch error =>
      if faultOf error = .isDirectory then folders := folders ++ [entry.fileName]
  pure (FileTree.folder path files folders)

/-- The files that a command reads, if it reads any. -/
def snapshot : Command → IO FileTree
  | .render _ => pure {}
  | .verify options => do
      try
        let contents ← IO.FS.readBinFile options.fixture
        pure (FileTree.single options.fixture contents.toList)
      catch error =>
        if faultOf error = .isDirectory then folderAt options.fixture else pure {}

def finish : Finish → IO UInt32
  | .success => pure 0
  | .failure error => do
      IO.eprint (Effects.failureLine error)
      pure 1
  | .crash => pure (UInt32.ofNat Effects.crashCode)

def carryOut (ending : Finish) : List Step → IO UInt32
  | [] => finish ending
  | .print text :: rest => do
      IO.print text
      carryOut ending rest
  | .tell text :: rest => do
      IO.eprint text
      carryOut ending rest
  | .write path text :: rest => do
      try
        IO.FS.writeFile path text
      catch error =>
        return ← finish (.failure (faultOf error).shown)
      carryOut ending rest

def now : IO Instant := do
  let time ← Std.Time.Timestamp.now
  let millis := time.toMillisecondsSinceUnixEpoch.val
  pure (Instant.ofClock (millis / 1000) ((millis % 1000).toNat * 1000000))

/-- So many readings of the clock, one after the other. -/
def readings : Nat → IO (List Instant)
  | 0 => pure []
  | count + 1 => do
      let first ← now
      pure (first :: (← readings count))

/-- The values of a run have no addresses of their own in this program. They count as kept one after
the other. -/
def addresses : FixtureArgument.Addresses := fun place => UInt64.ofNat (4096 + 16 * place)

def runCommand [Build] (command : Command) : IO UInt32 := do
  let tree ← snapshot command
  match command with
  | .render options =>
      let plan := options.plan addresses
      carryOut plan.finish plan.steps
  | .verify options =>
      let started ← now
      let begun ← IO.monoMsNow
      match Verification.prepare options tree fun _ _ _ => addresses with
      | .error plan => carryOut plan.finish plan.steps
      | .ok verification =>
          let entries ← readings (verification.results.length + 2)
          let ended ← IO.monoMsNow
          let plan := verification.plan
            { started, entry := (entries.getD · started), reported := ← now
              elapsedMs := UInt64.ofNat (ended - begun) }
          carryOut plan.finish plan.steps

end BoundedPrintf.CommandLine

open BoundedPrintf.CommandLine in
def main (words : List String) : IO UInt32 := do
  let _ : BoundedPrintf.Build := .wrapping
  match Request.ofWords? words with
  | some (.run command) => runCommand command
  | some (.help topic) =>
      IO.print topic.text
      pure 0
  | none =>
      IO.eprint (HelpTopic.text .program)
      pure (UInt32.ofNat misuseCode)
