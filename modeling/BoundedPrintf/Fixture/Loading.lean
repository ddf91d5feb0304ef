import BoundedPrintf.Failure
import BoundedPrintf.Fixture.Set
import BoundedPrintf.Sha256

/-! Loading fixture sets from files. A directory gives the sets of all JSON files directly inside
it, in the order of their names, or the failure of the first one that cannot be used. -/
namespace BoundedPrintf

/-- A fixture set and where it came from. -/
structure LoadedFixture where
  path : String
  sha256 : String
  set : FixtureSet

namespace LoadedFixture

/-- Reads, checks and hashes one file. -/
def ofFile (tree : FileTree) (path : String) : Except Failure LoadedFixture :=
  match tree.read path with
  | .error fault => .error (.io path fault)
  | .ok bytes =>
      match Text.decode? bytes with
      | none => .error (.io path .notText)
      | some text =>
          match FixtureSet.read? text with
          | none => .error (.json path)
          | some set =>
              match set.fault? with
              | some (name, fault) => .error (.fixture name fault)
              | none => .ok { path, sha256 := Sha256.hex bytes, set }

end LoadedFixture

/-- The path of a name in a directory. -/
def joinPath (directory name : String) : String :=
  if directory.endsWith '/' then directory ++ name else directory ++ "/" ++ name

def isFixtureName (name : String) : Bool := (splitExtension name).2 = some "json"

/-- The sets of a file or of a directory. -/
def loadFixtures (tree : FileTree) (path : String) : Except Failure (List LoadedFixture) :=
  if tree.isDirectory path then
    let names := ((tree.names path).filter isFixtureName).mergeSort fun a b => a ≤ b
    if names.isEmpty then .error (.noFixtures path)
    else names.mapM fun name => LoadedFixture.ofFile tree (joinPath path name)
  else (LoadedFixture.ofFile tree path).map ([·])

end BoundedPrintf
