import BoundedPrintf.Proofs.FileTree.Listing

/-! What a file holds after files have been written: what was written to its place last. A write leaves
every directory where it is, and every file at another place. -/
namespace BoundedPrintf.FileTree

variable {tree next : FileTree} {place position directory names : List String}
  {path other name : String} {bytes contents : Bytes} {entry : Entry}

section Putting

theorem entry?_put_same : entry? (tree.put place bytes) place = some (.file bytes) := by
  have kept : (tree.files.filter (·.1 ≠ place)).find? (·.1 = place) = none := by
    rw [List.find?_eq_none]
    intro file member
    simpa using (List.mem_filter.mp member).2
  unfold entry?
  rw [put, List.find?_append, kept]
  simp

theorem find?_put_other (apart : position ≠ place) :
    (tree.put place bytes).files.find? (·.1 = position) = tree.files.find? (·.1 = position) := by
  have last : [(place, bytes)].find? (·.1 = position) = none := by simp [apart.symm]
  rw [put, List.find?_append, last, Option.or_none, List.find?_filter]
  refine congrArg (List.find? · tree.files) (funext fun file => ?_)
  by_cases here : file.1 = position <;> simp [here, apart]

/-- A path that leads somewhere still leads somewhere. -/
theorem above_put {front : List String}
    (above : (tree.files.map (·.1) ++ tree.folders).any (front.isPrefixOf ·) = true) :
    ((tree.put place bytes).files.map (·.1) ++ (tree.put place bytes).folders).any
      (front.isPrefixOf ·) = true := by
  obtain ⟨path, member, leads⟩ := List.any_eq_true.mp above
  refine List.any_eq_true.mpr ⟨path, ?_, leads⟩
  rcases List.mem_append.mp member with listed | folder
  · obtain ⟨file, inside, rfl⟩ := List.mem_map.mp listed
    refine List.mem_append_left _ (List.mem_map.mpr ?_)
    by_cases here : file.1 = place
    · exact ⟨(place, bytes), by simp [put], here.symm⟩
    · exact ⟨file, by simp [put, inside, here], rfl⟩
  · exact List.mem_append_right _ folder

theorem entry?_put_other (apart : position ≠ place) (there : tree.entry? position = some entry) :
    entry? (tree.put place bytes) position = some entry := by
  unfold entry? at there ⊢
  rw [find?_put_other apart]
  split at there
  · exact there
  · obtain ⟨above, same⟩ := Option.ite_none_right_eq_some.mp there
    rw [if_pos (above_put above), ← same]

end Putting

section Walking

theorem eq_of_entry?_directory (there : tree.entry? place = some (.directory position)) :
    position = place := by
  unfold entry? at there
  split at there
  · cases there
  · exact (Entry.directory.inj (Option.some.inj (Option.ite_none_right_eq_some.mp there).2)).symm

theorem follow_name (given : name ≠ "") (inside : name ≠ "." ∧ name ≠ "..") :
    follow directory name = directory ++ [name] := by
  simp [follow, given, inside.1, inside.2]

/-- A path that leads to a directory leads to its place. -/
theorem eq_foldl_of_walk (walked : tree.walk directory names = .ok (.directory position)) :
    position = names.foldl follow directory := by
  fun_induction tree.walk directory names with
  | case1 directory => exact (Entry.directory.inj (Except.ok.inj walked)).symm
  | case2 directory rest ih => exact ih walked
  | case3 directory rest ih => exact ih walked
  | case4 directory rest ih => exact ih walked
  | case7 directory name rest empty here above short below there ih =>
      rw [List.foldl_cons, follow_name empty ⟨here, above⟩, ← eq_of_entry?_directory there]
      exact ih walked
  | _ => cases walked

/-- Writing a file does not change where another path leads. -/
theorem walk_put (free : ∀ below, tree.entry? place ≠ some (.directory below))
    (walked : tree.walk directory names = .ok entry)
    (apart : (∃ position, entry = .directory position) ∨ names.foldl follow directory ≠ place) :
    (tree.put place bytes).walk directory names = .ok entry := by
  fun_induction tree.walk directory names with
  | case1 directory => exact walked
  | case2 directory rest ih => exact ih walked apart
  | case3 directory rest ih => exact ih walked apart
  | case4 directory rest ih => exact ih walked apart
  | case7 directory name rest empty here above short below there ih =>
      have other : directory ++ [name] ≠ place := fun same => free below (same ▸ there)
      rw [List.foldl_cons, follow_name empty ⟨here, above⟩, ← eq_of_entry?_directory there] at apart
      rw [walk, if_neg short, entry?_put_other other there]
      · exact ih walked apart
      all_goals assumption
  | case8 directory name rest empty here above short contents there last =>
      rw [List.isEmpty_iff.mp last, List.foldl_cons, List.foldl_nil,
        follow_name empty ⟨here, above⟩, ← Except.ok.inj walked] at apart
      have other : directory ++ [name] ≠ place := by
        refine apart.resolve_left ?_
        rintro ⟨_, ⟨⟩⟩
      rw [walk, if_neg short, entry?_put_other other there]
      · simp only [last, if_true, walked]
      all_goals assumption
  | _ => cases walked

end Walking

section Writing

/-- A path leads to a place in a directory where a file can stand. -/
structure LeadsTo (tree : FileTree) (path : String) (directory : List String) (name : String) : Prop where
  sound : pathFault? path = none
  above : ∃ front, parts path = front ++ [name] ∧
    tree.walk (tree.origin path) front = .ok (.directory directory)
  given : name ≠ ""
  inside : name ≠ "." ∧ name ≠ ".."
  short : name.utf8ByteSize ≤ maxNameSize
  free : ∀ below, tree.entry? (directory ++ [name]) ≠ some (.directory below)

/-- The last of the names, when no empty one follows it. -/
theorem eq_append_of_dropWhile {above : List String}
    (kept : names.reverse.dropWhile (· = "") = name :: above)
    (whole : ¬ (name :: above).length < names.reverse.length) :
    names = above.reverse ++ [name] ∧ name ≠ "" := by
  have all : names.reverse = name :: above := by
    rw [← kept] at whole ⊢
    exact ((List.dropWhile_suffix _).eq_of_length_le (Nat.not_lt.mp whole)).symm
  have stopped := List.head_dropWhile_not (fun part : String => decide (part = "")) (l := names.reverse)
    (by simp [kept])
  simp only [kept, List.head_cons, decide_eq_false_iff_not] at stopped
  exact ⟨List.reverse_eq_cons_iff.mp all, stopped⟩

theorem leadsTo_of_write (wrote : tree.write path bytes = .ok next) :
    ∃ directory name, LeadsTo tree path directory name ∧
      next = tree.put (directory ++ [name]) bytes := by
  unfold write at wrote
  split at wrote
  · cases wrote
  · next sound =>
      dsimp only at wrote
      cases kept : (parts path).reverse.dropWhile (· = "") with
      | nil => rw [kept] at wrote; cases wrote
      | cons name above =>
          rw [kept] at wrote
          cases walked : tree.walk (tree.origin path) above.reverse with
          | error fault => simp only [walked] at wrote; cases wrote
          | ok entry =>
              cases entry with
              | file contents => simp only [walked] at wrote; cases wrote
              | directory directory =>
                  simp only [walked, bind, Except.bind] at wrote
                  split at wrote
                  · cases wrote
                  · next proper =>
                      simp only [Bool.or_eq_true, decide_eq_true_eq, not_or] at proper
                      split at wrote
                      · cases wrote
                      · next short =>
                          split at wrote
                          · cases wrote
                          · next free =>
                              obtain ⟨split, given⟩ := eq_append_of_dropWhile kept proper.1.1
                              exact ⟨directory, name, ⟨sound, ⟨above.reverse, split, walked⟩, given,
                                ⟨proper.1.2, proper.2⟩, Nat.not_lt.mp short, free⟩,
                                (Except.ok.inj wrote).symm⟩

theorem LeadsTo.place_eq (leads : LeadsTo tree path directory name) :
    tree.place path = directory ++ [name] := by
  obtain ⟨front, split, walked⟩ := leads.above
  rw [FileTree.place, split, List.foldl_append, ← eq_foldl_of_walk walked, List.foldl_cons,
    List.foldl_nil, follow_name leads.given leads.inside]

theorem read_eq_ok_iff : tree.read path = .ok contents ↔ tree.find path = .ok (.file contents) := by
  rw [read]
  cases tree.find path with
  | error fault => simp
  | ok entry => cases entry <;> simp

theorem read_of_write (wrote : tree.write path bytes = .ok next) : next.read path = .ok bytes := by
  obtain ⟨directory, name, leads, rfl⟩ := leadsTo_of_write wrote
  obtain ⟨front, split, walked⟩ := leads.above
  have reached : (tree.put (directory ++ [name]) bytes).walk (tree.origin path) (front ++ [name]) =
      .ok (.file bytes) := by
    rw [walk_append (List.cons_ne_nil _ _), walk_put leads.free walked (.inl ⟨directory, rfl⟩)]
    simp only [walk_name leads.given leads.inside leads.short, entry?_put_same]
  exact read_eq_ok_iff.mpr (find_eq_ok_iff.mpr ⟨leads.sound, split ▸ reached⟩)

theorem place_of_write (wrote : tree.write other bytes = .ok next) (path : String) :
    next.place path = tree.place path := by
  obtain ⟨directory, name, -, rfl⟩ := leadsTo_of_write wrote
  rfl

/-- A file at another place keeps its contents. -/
theorem read_of_write_other (wrote : tree.write other bytes = .ok next)
    (apart : tree.place path ≠ tree.place other) (held : tree.read path = .ok contents) :
    next.read path = .ok contents := by
  obtain ⟨directory, name, leads, rfl⟩ := leadsTo_of_write wrote
  rw [leads.place_eq] at apart
  obtain ⟨sound, walked⟩ := find_eq_ok_iff.mp (read_eq_ok_iff.mp held)
  exact read_eq_ok_iff.mpr (find_eq_ok_iff.mpr ⟨sound, walk_put leads.free walked (.inr apart)⟩)

end Writing

end BoundedPrintf.FileTree
