import BoundedPrintf.Fixture.Loading
import BoundedPrintf.Proofs.Failure.First
import BoundedPrintf.Proofs.FileTree.Listing

/-! Loading a directory of fixture files. It gives a set for each of them in the order of their names, or
the failure of the first one that cannot be used, and does not depend on the order in which the
directory was listed. -/
namespace BoundedPrintf

variable {tree other : FileTree} {path name : String} {directory names : List String}
  {set : FixtureSet} {fixture : LoadedFixture} {failure : Failure}

section Names

theorem kept_of_no_dot (none : '.' ∉ name.toList) :
    ∀ c ∈ name.toList.reverse, decide (c ≠ '.') = true :=
  fun _ inside => decide_eq_true fun dot => none (dot ▸ List.mem_reverse.mp inside)

theorem splitExtension_of_no_dot (none : '.' ∉ name.toList) :
    splitExtension name = (name, .none) := by
  have whole : name.toList.reverse.takeWhile (· ≠ '.') = name.toList.reverse :=
    List.takeWhile_eq_self_iff.mpr (kept_of_no_dot none)
  rw [splitExtension, whole, List.drop_length]

theorem splitExtension_of_dot {stem ending : String} (single : '.' ∉ ending.toList) :
    splitExtension (stem ++ "." ++ ending) =
      if stem = "" then (stem ++ "." ++ ending, none) else (stem, some ending) := by
  have cut : (stem ++ "." ++ ending).toList.reverse =
      ending.toList.reverse ++ '.' :: stem.toList.reverse := by simp
  have last : (ending.toList.reverse ++ '.' :: stem.toList.reverse).takeWhile (· ≠ '.') =
      ending.toList.reverse := by
    rw [List.takeWhile_append_of_pos (kept_of_no_dot single),
      List.takeWhile_cons_of_neg (by simp), List.append_nil]
  rw [splitExtension, cut, last, List.drop_left]
  by_cases empty : stem = ""
  · simp [empty]
  · obtain ⟨first, rest, letters⟩ : ∃ first rest, stem.toList.reverse = first :: rest :=
      List.exists_cons_of_ne_nil (by simpa using empty)
    rw [if_neg empty, letters]
    simp only [← letters, List.reverse_reverse, String.ofList_toList]

theorem splitExtension_eq_some_iff {ending : String} :
    (splitExtension name).2 = some ending ↔
      '.' ∉ ending.toList ∧ ∃ stem, stem ≠ "" ∧ name = stem ++ "." ++ ending := by
  constructor
  · intro found
    by_cases dotted : '.' ∈ name.toList.reverse
    · obtain ⟨last, front, cut, single⟩ := List.eq_append_cons_of_mem dotted
      have shape : name = String.ofList front.reverse ++ "." ++ String.ofList last.reverse := by
        rw [← String.toList_inj, ← List.reverse_inj, cut]
        simp
      rw [shape, splitExtension_of_dot (by simpa using single)] at found
      split at found
      · cases found
      · next given =>
          obtain rfl := Option.some.inj found
          exact ⟨by simpa using single, _, given, shape⟩
    · rw [splitExtension_of_no_dot (mt List.mem_reverse.mpr dotted)] at found
      cases found
  · rintro ⟨single, stem, given, rfl⟩
    rw [splitExtension_of_dot single, if_neg given]

/-- A dot at the start of a name begins no ending, and nothing but these letters is one. -/
theorem isFixtureName_iff :
    isFixtureName name ↔ ∃ stem, stem ≠ "" ∧ name = stem ++ ".json" := by
  have dotted (stem : String) : stem ++ "." ++ "json" = stem ++ ".json" := String.append_assoc
  rw [isFixtureName, decide_eq_true_iff, splitExtension_eq_some_iff]
  simp [dotted]

end Names

section Paths

theorem toList_joinPath (path name : String) :
    ∃ behind, (joinPath path name).toList = path.toList ++ behind ++ name.toList ∧
      ∀ c ∈ behind, c = '/' := by
  unfold joinPath
  split
  · exact ⟨[], by simp⟩
  · exact ⟨['/'], by simp⟩

/-- A path leads to a directory, also without the slash at its end. -/
theorem exists_walk_joinPath (opened : tree.find path = .ok (.directory directory))
    (name : String) :
    ∃ front, joinPath path name = front ++ "/" ++ name ∧
      tree.walk (tree.origin path) (FileTree.parts front) = .ok (.directory directory) := by
  obtain ⟨-, walked⟩ := FileTree.find_eq_ok_iff.mp opened
  by_cases slash : path.endsWith '/'
  · obtain ⟨front, rfl⟩ := String.endsWith_char_iff_exists_append.mp slash
    refine ⟨front, if_pos slash, ?_⟩
    have cut : FileTree.parts (front ++ String.singleton '/') = FileTree.parts front ++ [""] := by
      have last := FileTree.parts_append front ""
      rwa [String.append_empty] at last
    rw [cut, FileTree.walk_append (List.cons_ne_nil _ _)] at walked
    split at walked
    · next below found =>
        obtain rfl : below = directory := by simpa [FileTree.walk] using walked
        exact found
    · cases walked
    · cases walked
  · exact ⟨path, if_neg slash, walked⟩

/-- The path of a name in a directory leads to the entry of that name. -/
theorem find_joinPath (opened : tree.find path = .ok (.directory directory))
    (proper : FileTree.FileName name)
    (short : (joinPath path name).utf8ByteSize ≤ FileTree.maxPathSize) :
    tree.find (joinPath path name) =
      match tree.entry? (directory ++ [name]) with
      | none => .error .notFound
      | some entry => .ok entry := by
  obtain ⟨sound, given, -⟩ :=
    FileTree.pathFault?_eq_none_iff.mp (FileTree.find_eq_ok_iff.mp opened).1
  obtain ⟨behind, shape, slashes⟩ := toList_joinPath path name
  have start : tree.origin (joinPath path name) = tree.origin path := by
    rw [FileTree.origin, FileTree.origin, String.startsWith_char_eq_head?,
      String.startsWith_char_eq_head?, shape, List.append_assoc, List.head?_append_of_ne_nil]
    simpa using given
  have whole : FileTree.pathFault? (joinPath path name) = none := by
    refine FileTree.pathFault?_eq_none_iff.mpr ⟨?_, ?_, short⟩
    · rw [shape]
      simp only [List.mem_append, not_or]
      exact ⟨⟨sound, fun inside => absurd (slashes _ inside) (by decide)⟩, proper.sound⟩
    · intro empty
      rw [empty] at shape
      simp_all
  obtain ⟨front, joined, walked⟩ := exists_walk_joinPath opened name
  rw [FileTree.find, whole, start, joined, FileTree.parts_append,
    FileTree.parts_of_fileName proper, FileTree.walk_append (List.cons_ne_nil _ _), walked]
  exact FileTree.walk_name proper.given proper.inside proper.short

end Paths

section File

theorem FixtureSet.fault?_eq_none_iff : set.fault? = none ↔ ∀ case ∈ set.cases, case.fault? = none := by
  rw [fault?, List.findSome?_eq_none_iff]
  simp only [Option.map_eq_none_iff]

theorem FixtureSet.fault?_eq_some_iff {fault : CaseFault} :
    set.fault? = some (name, fault) ↔ ∃ before case behind, set.cases = before ++ case :: behind ∧
      (∀ earlier ∈ before, earlier.fault? = none) ∧ case.fault? = some fault ∧ name = case.name := by
  rw [fault?, List.findSome?_eq_some_iff]
  simp only [Option.map_eq_none_iff, Option.map_eq_some_iff, Prod.mk.injEq]
  refine exists_congr fun before => exists_congr fun case => exists_congr fun behind =>
    and_congr_right fun _ => ?_
  constructor
  · rintro ⟨⟨_, found, rfl, rfl⟩, fine⟩
    exact ⟨fine, found, rfl⟩
  · rintro ⟨fine, found, rfl⟩
    exact ⟨⟨_, found, rfl, rfl⟩, fine⟩

/-- A file holds a fixture set without faults. -/
inductive Loads (tree : FileTree) (path : String) : LoadedFixture → Prop
  | intro {bytes : Bytes} {text : String} {set : FixtureSet} :
      tree.read path = .ok bytes → Text.decode? bytes = some text →
      FixtureSet.read? text = some set → (∀ case ∈ set.cases, case.fault? = none) →
      Loads tree path { path, sha256 := Sha256.hex bytes, set }

/-- Why a file holds none. -/
inductive Fails (tree : FileTree) (path : String) : Failure → Prop
  | unread {fault : FileFault} : tree.read path = .error fault → Fails tree path (.io path fault)
  | noText {bytes : Bytes} : tree.read path = .ok bytes → Text.decode? bytes = none →
      Fails tree path (.io path .notText)
  | noSet {bytes : Bytes} {text : String} : tree.read path = .ok bytes →
      Text.decode? bytes = some text → FixtureSet.read? text = none → Fails tree path (.json path)
  | faulty {bytes : Bytes} {text : String} {set : FixtureSet} {before behind : List FixtureCase}
      {case : FixtureCase} {fault : CaseFault} : tree.read path = .ok bytes →
      Text.decode? bytes = some text → FixtureSet.read? text = some set →
      set.cases = before ++ case :: behind → (∀ earlier ∈ before, earlier.fault? = none) →
      case.fault? = some fault → Fails tree path (.fixture case.name fault)

theorem ofFile_of_loads (loads : Loads tree path fixture) :
    LoadedFixture.ofFile tree path = .ok fixture := by
  obtain ⟨contents, text, known, valid⟩ := loads
  simp only [LoadedFixture.ofFile, contents, text, known, FixtureSet.fault?_eq_none_iff.mpr valid]

theorem ofFile_of_fails (fails : Fails tree path failure) :
    LoadedFixture.ofFile tree path = .error failure := by
  cases fails with
  | unread fault => simp only [LoadedFixture.ofFile, fault]
  | noText contents none => simp only [LoadedFixture.ofFile, contents, none]
  | noSet contents text none => simp only [LoadedFixture.ofFile, contents, text, none]
  | faulty contents text known split fine bad =>
      have first := FixtureSet.fault?_eq_some_iff.mpr ⟨_, _, _, split, fine, bad, rfl⟩
      simp only [LoadedFixture.ofFile, contents, text, known, first]

theorem loads_or_fails (tree : FileTree) (path : String) :
    (∃ fixture, Loads tree path fixture) ∨ ∃ failure, Fails tree path failure := by
  cases contents : tree.read path with
  | error fault => exact .inr ⟨_, .unread contents⟩
  | ok bytes =>
      cases decoded : Text.decode? bytes with
      | none => exact .inr ⟨_, .noText contents decoded⟩
      | some text =>
          cases known : FixtureSet.read? text with
          | none => exact .inr ⟨_, .noSet contents decoded known⟩
          | some set =>
              cases checked : set.fault? with
              | none =>
                  have valid := FixtureSet.fault?_eq_none_iff.mp checked
                  exact .inl ⟨_, .intro contents decoded known valid⟩
              | some fault =>
                  obtain ⟨name, fault⟩ := fault
                  obtain ⟨_, _, _, split, fine, first, -⟩ :=
                    FixtureSet.fault?_eq_some_iff.mp checked
                  exact .inr ⟨_, .faulty contents decoded known split fine first⟩

theorem ofFile_eq_ok_iff : LoadedFixture.ofFile tree path = .ok fixture ↔ Loads tree path fixture := by
  refine ⟨fun given => ?_, ofFile_of_loads⟩
  rcases loads_or_fails tree path with ⟨other, loads⟩ | ⟨failure, fails⟩
  · obtain rfl : other = fixture := Except.ok.inj ((ofFile_of_loads loads).symm.trans given)
    exact loads
  · exact nomatch (ofFile_of_fails fails).symm.trans given

theorem ofFile_eq_error_iff :
    LoadedFixture.ofFile tree path = .error failure ↔ Fails tree path failure := by
  refine ⟨fun given => ?_, ofFile_of_fails⟩
  rcases loads_or_fails tree path with ⟨fixture, loads⟩ | ⟨other, fails⟩
  · exact nomatch (ofFile_of_loads loads).symm.trans given
  · obtain rfl : other = failure := Except.error.inj ((ofFile_of_fails fails).symm.trans given)
    exact fails

end File

section Directory

/-- The names of the fixture files in a directory, each once and in order. -/
structure Listed (tree : FileTree) (directory names : List String) : Prop where
  sorted : names.Pairwise (· < ·)
  complete : ∀ name, name ∈ names ↔
    (∃ entry, tree.entry? (directory ++ [name]) = some entry) ∧
      ∃ stem, stem ≠ "" ∧ name = stem ++ ".json"

/-- What loading the files of these names in a directory gives. -/
structure Gathers (tree : FileTree) (path : String) (names : List String)
    (result : Except Failure (List LoadedFixture)) : Prop where
  nothing : names = [] → result = .error (.noFixtures path)
  everything : names ≠ [] → ∀ fixtures, result = .ok fixtures ↔
    List.Forall₂ (fun name => Loads tree (joinPath path name)) names fixtures
  first : names ≠ [] → ∀ failure, result = .error failure ↔
    ∃ before name behind, names = before ++ name :: behind ∧
      (∀ earlier ∈ before, ∃ fixture, Loads tree (joinPath path earlier) fixture) ∧
      Fails tree (joinPath path name) failure

def fixtureNames (tree : FileTree) (path : String) : List String :=
  ((tree.names path).filter isFixtureName).mergeSort fun a b => a ≤ b

theorem loadFixtures_of_find (opened : tree.find path = .ok (.directory directory)) :
    loadFixtures tree path =
      if (fixtureNames tree path).isEmpty then .error (.noFixtures path)
      else (fixtureNames tree path).mapM fun name => LoadedFixture.ofFile tree (joinPath path name) := by
  have found : tree.isDirectory path = true := by rw [FileTree.isDirectory, opened]
  rw [loadFixtures, if_pos found]
  rfl

theorem listed_fixtureNames (opened : tree.find path = .ok (.directory directory)) :
    Listed tree directory (fixtureNames tree path) where
  sorted := by
    have ordered : (fixtureNames tree path).Pairwise (· ≤ ·) := by
      have sorted : (fixtureNames tree path).Pairwise (fun a b => decide (a ≤ b) = true) :=
        List.pairwise_mergeSort (fun a b c => by simpa using String.le_trans)
          (fun a b => by simpa using String.le_total a b) _
      simpa using sorted
    have once : (fixtureNames tree path).Nodup :=
      (List.mergeSort_perm _ _).nodup_iff.mpr ((tree.nodup_names path).filter _)
    exact (ordered.and once).imp fun both => lt_of_le_of_ne both.1 both.2
  complete name := by
    rw [fixtureNames, (List.mergeSort_perm _ _).mem_iff, List.mem_filter,
      FileTree.mem_names_iff opened, isFixtureName_iff]

theorem Listed.unique {others : List String} (these : Listed tree directory names)
    (those : Listed tree directory others) : names = others := by
  have once {names : List String} (sorted : names.Pairwise (· < ·)) : names.Nodup :=
    sorted.imp String.ne_of_lt
  have same : names.Perm others := (List.perm_ext_iff_of_nodup (once these.sorted)
    (once those.sorted)).mpr fun name => (these.complete name).trans (those.complete name).symm
  exact same.eq_of_pairwise (fun _ _ _ _ before behind => absurd behind (String.lt_asymm before))
    these.sorted those.sorted

theorem listed_congr (same : FileTree.SameContents tree other) :
    Listed other directory names ↔ Listed tree directory names := by
  constructor <;> intro listed
  · exact ⟨listed.sorted, by simpa only [same.entries] using listed.complete⟩
  · exact ⟨listed.sorted, by simpa only [same.entries] using listed.complete⟩

theorem ofFile_congr (same : FileTree.SameContents tree other) (path : String) :
    LoadedFixture.ofFile other path = LoadedFixture.ofFile tree path := by
  rw [LoadedFixture.ofFile, LoadedFixture.ofFile, FileTree.read_congr same]

theorem loadFixtures_congr (same : FileTree.SameContents tree other) (path : String) :
    loadFixtures other path = loadFixtures tree path := by
  by_cases found : tree.isDirectory path
  · obtain ⟨directory, opened⟩ : ∃ directory, tree.find path = .ok (.directory directory) := by
      unfold FileTree.isDirectory at found
      split at found
      · next directory opened => exact ⟨directory, opened⟩
      · cases found
    have opened' := (FileTree.find_congr same path).trans opened
    have names : fixtureNames other path = fixtureNames tree path :=
      ((listed_congr same).mp (listed_fixtureNames opened')).unique (listed_fixtureNames opened)
    simp only [loadFixtures_of_find opened, loadFixtures_of_find opened', names, ofFile_congr same]
  · have away : ¬ other.isDirectory path = true := by rwa [FileTree.isDirectory_congr same]
    rw [loadFixtures, loadFixtures, if_neg found, if_neg away, ofFile_congr same]

theorem gathers_loadFixtures (opened : tree.find path = .ok (.directory directory)) :
    Gathers tree path (fixtureNames tree path) (loadFixtures tree path) where
  nothing none := by rw [loadFixtures_of_find opened, none]; rfl
  everything some fixtures := by
    rw [loadFixtures_of_find opened, if_neg (by simpa using some), mapM_eq_ok_iff,
      ← List.forall₂_eq_eq_eq, List.forall₂_map_left_iff, List.forall₂_map_right_iff]
    simp only [ofFile_eq_ok_iff]
  first some failure := by
    rw [loadFixtures_of_find opened, if_neg (by simpa using some), mapM_eq_error_iff]
    simp only [ofFile_eq_ok_iff, ofFile_eq_error_iff]

/-- Every fixture file of a directory is loaded, each once and in the order of the names, unless one fails,
in which case the first failure is all that is told. The order in which the directory is listed has no
part in it. The path of a listed name leads to its entry, as long as paths of this length can be
followed. -/
theorem directory_loaded_in_order (opened : tree.find path = .ok (.directory directory)) :
    (∃ names, Listed tree directory names ∧ Gathers tree path names (loadFixtures tree path)) ∧
    (∀ name, FileTree.FileName name → (joinPath path name).utf8ByteSize ≤ FileTree.maxPathSize →
      tree.find (joinPath path name) =
        match tree.entry? (directory ++ [name]) with
        | none => .error .notFound
        | some entry => .ok entry) ∧
    ∀ other, FileTree.Reordered tree other → loadFixtures other path = loadFixtures tree path :=
  ⟨⟨_, listed_fixtureNames opened, gathers_loadFixtures opened⟩,
    fun _ proper short => find_joinPath opened proper short,
    fun _ reordered => loadFixtures_congr reordered.sameContents path⟩

/-- Two fixture files, and others whose names only look alike. The first by name is no text, and the first in
the list is no fixture set. -/
def mixedFolder : FileTree :=
  .ofFiles ["d"] [("b.json", Text.utf8 "["), (".json", []), ("a.JSON", []), ("a.json", [0xff]),
    ("json", []), ("e/a.json", [])]

theorem find_mixedFolder : mixedFolder.find "." = .ok (.directory ["d"]) := by
  refine FileTree.find_eq_ok_iff.mpr
    ⟨FileTree.pathFault?_eq_none_iff.mpr (by decide +kernel), ?_⟩
  have start : mixedFolder.origin "." = ["d"] := by
    rw [FileTree.origin, String.startsWith_char_eq_head?]
    rfl
  rw [start]
  rfl

theorem fixtureNames_mixedFolder : fixtureNames mixedFolder "." = ["a.json", "b.json"] := by
  have kept : (mixedFolder.names ".").filter isFixtureName = ["b.json", "a.json"] := by
    rw [FileTree.names, find_mixedFolder]
    decide +kernel
  rw [fixtureNames, kept]
  simp [List.mergeSort]

theorem first_name_told_first :
    loadFixtures mixedFolder "." = .error (.io "./a.json" .notText) ∧
    loadFixtures { mixedFolder with files := mixedFolder.files.reverse } "." =
      .error (.io "./a.json" .notText) := by
  obtain ⟨⟨names, listed, gathers⟩, inside, reordered⟩ :=
    directory_loaded_in_order find_mixedFolder
  obtain rfl : names = ["a.json", "b.json"] :=
    (listed.unique (listed_fixtureNames find_mixedFolder)).trans fixtureNames_mixedFolder
  have joined : joinPath "." "a.json" = "./a.json" := by
    rw [joinPath, String.endsWith_char_eq_getLast?]
    rfl
  have found := inside "a.json" (by constructor <;> decide +kernel) (by rw [joined]; decide)
  have contents : mixedFolder.read (joinPath "." "a.json") = .ok [0xff] := by
    rw [FileTree.read, found]
    rfl
  have told := (gathers.first (List.cons_ne_nil _ _) _).mpr
    ⟨[], "a.json", ["b.json"], rfl, List.forall_mem_nil _, .noText contents (by decide +kernel)⟩
  rw [joined] at told
  have backwards := reordered { mixedFolder with files := mixedFolder.files.reverse }
    ⟨rfl, mixedFolder.files.reverse_perm, .refl _, by decide +kernel⟩
  exact ⟨told, backwards.trans told⟩

end Directory

end BoundedPrintf
