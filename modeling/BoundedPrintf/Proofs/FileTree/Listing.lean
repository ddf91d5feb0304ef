import Mathlib
import BoundedPrintf.FileTree

/-! Directories of a tree. What they hold is told by the entries right below them, whatever order the
files and folders of the tree stand in, and the path of a directory continued by a name leads to the
entry of that name. -/
namespace BoundedPrintf.FileTree

/-- Two trees in which every path leads to the same. -/
structure SameContents (tree other : FileTree) : Prop where
  home : other.home = tree.home
  entries : ∀ path, other.entry? path = tree.entry? path

/-- Two trees with the same files and folders in different orders. No path has two contents. -/
structure Reordered (tree other : FileTree) : Prop where
  home : other.home = tree.home
  files : other.files.Perm tree.files
  folders : other.folders.Perm tree.folders
  single : (tree.files.map (·.1)).Nodup

variable {tree other : FileTree} {path : String} {directory parts behind : List String}
  {name : String} {entry : Entry}

section Contents

theorem Reordered.sameContents (reordered : Reordered tree other) : SameContents tree other where
  home := reordered.home
  entries path := by
    have once : {file | file ∈ other.files ∧ decide (file.1 = path) = true}.Subsingleton := by
      rintro first ⟨listed, named⟩ second ⟨listed', named'⟩
      rw [decide_eq_true_iff] at named named'
      exact List.inj_on_of_nodup_map reordered.single (reordered.files.mem_iff.mp listed)
        (reordered.files.mem_iff.mp listed') (named.trans named'.symm)
    have paths : (other.files.map (·.1) ++ other.folders).any (path.isPrefixOf ·) =
        (tree.files.map (·.1) ++ tree.folders).any (path.isPrefixOf ·) :=
      ((reordered.files.map _).append reordered.folders).any_eq
    unfold entry?
    rw [List.find?_eq_find?_of_perm reordered.files once, paths]

theorem walk_congr (same : SameContents tree other) (directory parts : List String) :
    other.walk directory parts = tree.walk directory parts := by
  fun_induction tree.walk directory parts with
  | case1 => rfl
  | _ => simp_all [walk, same.entries]

theorem find_congr (same : SameContents tree other) (path : String) :
    other.find path = tree.find path := by
  simp only [find, origin, same.home, walk_congr same]

theorem read_congr (same : SameContents tree other) (path : String) :
    other.read path = tree.read path := by
  rw [read, read, find_congr same]

theorem isDirectory_congr (same : SameContents tree other) (path : String) :
    other.isDirectory path = tree.isDirectory path := by
  rw [isDirectory, isDirectory, find_congr same]

end Contents

section Names

theorem exists_entry_iff :
    (∃ entry, tree.entry? parts = some entry) ↔
      ∃ path ∈ tree.files.map (·.1) ++ tree.folders, parts <+: path := by
  unfold entry?
  split
  · next path bytes found =>
      have listed := List.mem_of_find?_eq_some found
      have named : path = parts := by simpa using List.find?_some found
      refine iff_of_true ⟨_, rfl⟩ ⟨path, List.mem_append_left _ (List.mem_map_of_mem listed), ?_⟩
      exact named ▸ List.prefix_refl path
  · have above : (tree.files.map (·.1) ++ tree.folders).any (parts.isPrefixOf ·) = true ↔
        ∃ path ∈ tree.files.map (·.1) ++ tree.folders, parts <+: path := by
      simp only [List.any_eq_true, List.isPrefixOf_iff_prefix]
    rw [← above]
    split <;> simp_all

theorem prefix_and_getElem?_iff {path : List String} :
    directory <+: path ∧ path[directory.length]? = some name ↔ directory ++ [name] <+: path := by
  constructor
  · rintro ⟨⟨behind, rfl⟩, here⟩
    cases behind with
    | nil => simp at here
    | cons first behind =>
        obtain rfl : first = name := by simpa using here
        exact ⟨behind, by simp⟩
  · rintro ⟨behind, rfl⟩
    exact ⟨⟨name :: behind, by simp⟩, by simp⟩

/-- The names in a directory are those of the entries right below it. -/
theorem mem_names_iff (opened : tree.find path = .ok (.directory directory)) :
    name ∈ tree.names path ↔ ∃ entry, tree.entry? (directory ++ [name]) = some entry := by
  rw [names, opened, exists_entry_iff]
  simp only [List.mem_eraseDups, List.mem_filterMap, ← prefix_and_getElem?_iff]
  refine exists_congr fun path => and_congr_right fun _ => ?_
  split <;> simp_all

theorem nodup_eraseDups {α : Type} [BEq α] [LawfulBEq α] (items : List α) : items.eraseDups.Nodup := by
  match items with
  | [] => simp
  | item :: items =>
      have fewer := List.length_filter_le (fun other => !other == item) items
      rw [List.eraseDups_cons, List.nodup_cons, List.mem_eraseDups]
      exact ⟨by simp, nodup_eraseDups _⟩
termination_by items.length

theorem nodup_names (tree : FileTree) (path : String) : (tree.names path).Nodup := by
  unfold names
  split
  · exact nodup_eraseDups _
  · exact List.nodup_nil

end Names

section Inside

/-- A name that an entry of a directory can have. -/
structure FileName (name : String) : Prop where
  given : name ≠ ""
  inside : name ≠ "." ∧ name ≠ ".."
  single : '/' ∉ name.toList
  sound : '\x00' ∉ name.toList
  short : name.utf8ByteSize ≤ maxNameSize

theorem pathFault?_eq_none_iff :
    pathFault? path = none ↔
      '\x00' ∉ path.toList ∧ path ≠ "" ∧ path.utf8ByteSize ≤ maxPathSize := by
  rw [pathFault?]
  repeat' split
  all_goals simp_all

theorem find_eq_ok_iff :
    tree.find path = .ok entry ↔ pathFault? path = none ∧
      tree.walk (tree.origin path) (FileTree.parts path) = .ok entry := by
  rw [find]
  cases pathFault? path <;> simp

/-- A path goes on from a directory only. -/
theorem walk_append (more : behind ≠ []) :
    tree.walk directory (parts ++ behind) =
      match tree.walk directory parts with
      | .ok (.directory below) => tree.walk below behind
      | .ok (.file _) => .error .notDirectory
      | .error fault => .error fault := by
  fun_induction tree.walk directory parts with
  | case1 directory => rfl
  | _ => simp_all [walk]

theorem walk_name (given : name ≠ "") (inside : name ≠ "." ∧ name ≠ "..")
    (short : name.utf8ByteSize ≤ maxNameSize) :
    tree.walk directory [name] =
      match tree.entry? (directory ++ [name]) with
      | none => .error .notFound
      | some entry => .ok entry := by
  rw [walk, if_neg (Nat.not_lt.mpr short)]
  · cases tree.entry? (directory ++ [name]) with
    | none => rfl
    | some entry => cases entry <;> simp [walk]
  · exact given
  · exact inside.1
  · exact inside.2

theorem parts_append (front behind : String) :
    FileTree.parts (front ++ "/" ++ behind) = FileTree.parts front ++ FileTree.parts behind := by
  have cut : (front ++ "/" ++ behind).toList = front.toList ++ '/' :: behind.toList := by simp
  rw [FileTree.parts, cut, List.splitOn_append_cons_self, List.map_append]
  rfl

theorem parts_of_fileName (proper : FileName name) : FileTree.parts name = [name] := by
  rw [FileTree.parts, List.splitOn_eq_singleton proper.single, List.map_singleton,
    String.ofList_toList]

end Inside

end BoundedPrintf.FileTree
