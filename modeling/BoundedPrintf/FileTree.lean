import BoundedPrintf.Bytes

/-! A snapshot of a tree of files, and what reading and writing by path does to it. Names are split
at slashes, and a directory is there when a file in it is. Names and paths have a greatest size, and
a name that exceeds it is refused where it would be looked up. -/
namespace BoundedPrintf

/-- Why a file cannot be read or written. -/
inductive FileFault
  | notFound
  | notDirectory
  | isDirectory
  | nameTooLong
  /-- A path holds a NUL, with which the system would end it. -/
  | nulInPath
  /-- The contents are not well-formed UTF-8. -/
  | notText
  deriving DecidableEq, Repr

structure FileTree where
  files : List (List String × Bytes) := []
  /-- Directories that need no file to be there. -/
  folders : List (List String) := []
  /-- The directory from which a path is followed that begins with no slash. -/
  home : List String := []

namespace FileTree

inductive Entry
  | file (bytes : Bytes)
  | directory (path : List String)
  deriving DecidableEq, Repr

/-- The greatest number of bytes in a name. -/
def maxNameSize : Nat := 255

/-- The greatest number of bytes in a path. -/
def maxPathSize : Nat := 4095

/-- What is wrong with a path before any of it is looked up. -/
def pathFault? (path : String) : Option FileFault :=
  if path.toList.contains '\x00' then some .nulInPath
  else if path.isEmpty then some .notFound
  else if maxPathSize < path.utf8ByteSize then some .nameTooLong
  else none

/-- The parts of a path. Two slashes in a row and one at either end leave an empty part. -/
def parts (path : String) : List String := (path.toList.splitOn '/').map String.ofList

/-- The tree of a directory that holds files with the given names and from which paths are
followed. -/
def ofFiles (home : List String) (files : List (String × Bytes)) : FileTree :=
  { files := files.map fun (name, bytes) => (home ++ parts name, bytes), folders := [home], home }

/-- Where a path starts. -/
def origin (tree : FileTree) (path : String) : List String := if path.startsWith '/' then [] else tree.home

/-- The place that a part of a path leads to from a directory. -/
def follow (directory : List String) (part : String) : List String :=
  if part = "" || part = "." then directory
  else if part = ".." then directory.dropLast
  else directory ++ [part]

/-- The place of a path, when all directories on the way to it are there. -/
def place (tree : FileTree) (path : String) : List String := (parts path).foldl follow (tree.origin path)

/-- The tree of one file. -/
def single (path : String) (bytes : Bytes) : FileTree := { files := [(place {} path, bytes)] }

/-- The tree of one directory, with the files and the directories that it holds. -/
def folder (path : String) (files : List (String × Bytes)) (folders : List String) : FileTree :=
  let directory := place {} path
  { files := files.map fun (name, bytes) => (directory ++ [name], bytes)
    folders := directory :: folders.map (directory ++ [·]) }

def entry? (tree : FileTree) (path : List String) : Option Entry :=
  match tree.files.find? (·.1 = path) with
  | some (_, bytes) => some (.file bytes)
  | none =>
      if (tree.files.map (·.1) ++ tree.folders).any (path.isPrefixOf ·) then some (.directory path) else none

/-- Follows the parts of a path from a directory on. An empty part and a dot stay where they are, two
dots go up. -/
def walk (tree : FileTree) (directory : List String) : List String → Except FileFault Entry
  | [] => .ok (.directory directory)
  | "" :: rest | "." :: rest => tree.walk directory rest
  | ".." :: rest => tree.walk directory.dropLast rest
  | name :: rest =>
      if maxNameSize < name.utf8ByteSize then .error .nameTooLong
      else
        match tree.entry? (directory ++ [name]) with
        | none => .error .notFound
        | some (.directory path) => tree.walk path rest
        | some (.file bytes) => if rest.isEmpty then .ok (.file bytes) else .error .notDirectory

/-- What stands at a path. -/
def find (tree : FileTree) (path : String) : Except FileFault Entry :=
  match pathFault? path with
  | some fault => .error fault
  | none => tree.walk (tree.origin path) (parts path)

def isDirectory (tree : FileTree) (path : String) : Bool :=
  match tree.find path with
  | .ok (.directory _) => true
  | _ => false

def read (tree : FileTree) (path : String) : Except FileFault Bytes :=
  match tree.find path with
  | .ok (.file bytes) => .ok bytes
  | .ok (.directory _) => .error .isDirectory
  | .error fault => .error fault

/-- The names of the files and directories in a directory, each once. -/
def names (tree : FileTree) (path : String) : List String :=
  match tree.find path with
  | .ok (.directory directory) =>
      ((tree.files.map (·.1) ++ tree.folders).filterMap fun path =>
        if directory.isPrefixOf path then path[directory.length]? else none).eraseDups
  | _ => []

def put (tree : FileTree) (path : List String) (bytes : Bytes) : FileTree :=
  { tree with files := tree.files.filter (·.1 ≠ path) ++ [(path, bytes)] }

/-- Replaces the contents of a file, which need not be there but whose directory has to be. -/
def write (tree : FileTree) (path : String) (bytes : Bytes) : Except FileFault FileTree :=
  match pathFault? path with
  | some fault => .error fault
  | none => do
      let reversed := (parts path).reverse
      let kept := reversed.dropWhile (· = "")
      match kept with
      | [] => .error .isDirectory
      | name :: above =>
          match ← tree.walk (tree.origin path) above.reverse with
          | .file _ => .error .notDirectory
          | .directory directory =>
              if kept.length < reversed.length || name = "." || name = ".." then .error .isDirectory
              else if maxNameSize < name.utf8ByteSize then .error .nameTooLong
              else
                match tree.entry? (directory ++ [name]) with
                | some (.directory _) => .error .isDirectory
                | _ => .ok (tree.put (directory ++ [name]) bytes)

end FileTree

/-- A name and its extension, which follows the last dot. A dot at the start of a name begins no
extension. -/
def splitExtension (name : String) : String × Option String :=
  let reversed := name.toList.reverse
  let extension := reversed.takeWhile (· ≠ '.')
  match reversed.drop extension.length with
  | _ :: stem@(_ :: _) => (String.ofList stem.reverse, some (String.ofList extension.reverse))
  | _ => (name, none)

/-- The path of the same file name with another extension, which replaces the one that the name has.
A path that ends in no file name stays as it is. Where the name without its extension is two dots,
it is the directory above, and such a path takes no extension. -/
def withExtension (path extension : String) : String :=
  let reversed := (FileTree.parts path).reverse.dropWhile fun part => part = "" || part = "."
  match reversed with
  | [] | ".." :: _ => path
  | name :: above =>
      let renamed := match splitExtension name with
        | (".", some _) => ".."
        | (stem, _) => stem ++ "." ++ extension
      "/".intercalate (above.reverse ++ [renamed])

end BoundedPrintf
