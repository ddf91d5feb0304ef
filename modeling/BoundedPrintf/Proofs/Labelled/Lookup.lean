import Mathlib
import BoundedPrintf.Labelled

/-! Looking labels up. What is found under a label is what was written under it last. -/
namespace BoundedPrintf.Labelled

variable {α : Type} {entries : List (String × α)} {found : String × α} {label other : String}
  {value : α}

theorem find?_insertEntry (sorted : entries.Pairwise (fun x y => x.1 < y.1)) :
    (insertEntry label value entries).find? (·.1 = other) =
      if label = other then some (label, value) else entries.find? (·.1 = other) := by
  induction entries with
  | nil => simp [insertEntry]
  | cons head rest ih =>
      obtain ⟨first, others⟩ := List.pairwise_cons.mp sorted
      simp only [insertEntry]
      split
      · simp only [List.find?_cons (a := (label, value))]
        by_cases same : label = other <;> simp [same]
      · split
        · next same => by_cases found : label = other <;> simp [← same, found]
        · next different =>
            by_cases found : head.1 = other
            · have away : label ≠ other := fun same => different (same.trans found.symm)
              simp [found, away]
            · simp [found, ih others]

theorem get?_insert (labelled : Labelled α) :
    (labelled.insert label value).get? other =
      if label = other then some value else labelled.get? other := by
  rw [get?, insert, find?_insertEntry labelled.sorted]
  split <;> rfl

theorem ofList_append_singleton (entries : List (String × α)) (entry : String × α) :
    ofList (entries ++ [entry]) = (ofList entries).insert entry.1 entry.2 := by
  rw [ofList, List.foldl_append]
  rfl

theorem get?_ofList (entries : List (String × α)) (label : String) :
    (ofList entries).get? label = (entries.findRev? (·.1 = label)).map Prod.snd := by
  induction entries using List.reverseRecOn with
  | nil => rfl
  | append_singleton entries entry ih =>
      rw [ofList_append_singleton, get?_insert, ih, List.findRev?_eq_find?_reverse,
        List.findRev?_eq_find?_reverse, List.reverse_append]
      by_cases same : entry.1 = label <;> simp [same]

theorem findRev?_eq_some_iff :
    entries.findRev? (·.1 = label) = some found ↔
      found.1 = label ∧ ∃ before behind, entries = before ++ found :: behind ∧
        ∀ later ∈ behind, later.1 ≠ label := by
  rw [List.findRev?_eq_find?_reverse, List.find?_eq_some_iff_append, decide_eq_true_iff]
  refine and_congr_right fun _ => ⟨?_, ?_⟩
  · rintro ⟨behind, before, split, none⟩
    refine ⟨before.reverse, behind.reverse, ?_, by simpa using none⟩
    rw [← entries.reverse_reverse, split]
    simp
  · rintro ⟨before, behind, rfl, none⟩
    exact ⟨behind.reverse, before.reverse, by simp, by simpa using none⟩

/-- Where no label occurs twice, an entry is found wherever it stands. -/
theorem find?_eq_some_iff_mem (once : (entries.map Prod.fst).Nodup) :
    entries.find? (·.1 = label) = some found ↔ found.1 = label ∧ found ∈ entries := by
  induction entries with
  | nil => simp
  | cons head rest ih =>
      obtain ⟨away, others⟩ := List.nodup_cons.mp once
      by_cases same : head.1 = label
      · simp only [List.find?_cons, same, decide_true, Option.some.injEq, List.mem_cons]
        refine ⟨fun first => ⟨first ▸ same, .inl first.symm⟩, ?_⟩
        rintro ⟨named, first | later⟩
        · exact first.symm
        · have again : head.1 ∈ rest.map Prod.fst :=
            List.mem_map.mpr ⟨found, later, named.trans same.symm⟩
          exact absurd again away
      · simp only [List.find?_cons, same, decide_false, ih others, List.mem_cons]
        refine and_congr_right fun named => ⟨.inr, ?_⟩
        rintro (rfl | later)
        · exact absurd named same
        · exact later

theorem findRev?_eq_find? (once : (entries.map Prod.fst).Nodup) :
    entries.findRev? (·.1 = label) = entries.find? (·.1 = label) := by
  have backwards : (entries.reverse.map Prod.fst).Nodup := by
    rwa [List.map_reverse, List.nodup_reverse]
  ext found
  rw [List.findRev?_eq_find?_reverse, find?_eq_some_iff_mem backwards, List.mem_reverse,
    find?_eq_some_iff_mem once]

theorem nodup_labels (labelled : Labelled α) : (labelled.entries.map Prod.fst).Nodup :=
  List.pairwise_map.mpr (labelled.sorted.imp String.ne_of_lt)

theorem eq_of_entries {first second : Labelled α} (same : first.entries = second.entries) :
    first = second := by
  cases first
  cases second
  cases same
  rfl

theorem insertEntry_of_last (last : ∀ entry ∈ entries, entry.1 < label) :
    insertEntry label value entries = entries ++ [(label, value)] := by
  induction entries with
  | nil => rfl
  | cons head rest ih =>
      obtain ⟨before, others⟩ := List.forall_mem_cons.mp last
      rw [insertEntry, if_neg (String.lt_asymm before), if_neg (String.ne_of_lt before).symm,
        ih others, List.cons_append]

/-- Sorted entries are taken over as they are. -/
theorem entries_ofList (sorted : entries.Pairwise (fun x y => x.1 < y.1)) :
    (ofList entries).entries = entries := by
  induction entries using List.reverseRecOn with
  | nil => rfl
  | append_singleton entries entry ih =>
      obtain ⟨front, -, last⟩ := List.pairwise_append.mp sorted
      have behind : (ofList (entries ++ [entry])).entries =
          insertEntry entry.1 entry.2 (ofList entries).entries :=
        congrArg Labelled.entries (ofList_append_singleton entries entry)
      rw [behind, ih front]
      exact insertEntry_of_last fun other member =>
        last other member entry (List.mem_singleton_self entry)

theorem ofList_entries (labelled : Labelled α) : ofList labelled.entries = labelled :=
  eq_of_entries (entries_ofList labelled.sorted)

theorem get?_of_mem {labelled : Labelled α} (member : found ∈ labelled.entries) :
    labelled.get? found.1 = some found.2 := by
  have here := (find?_eq_some_iff_mem labelled.nodup_labels).mpr ⟨rfl, member⟩
  rw [get?, here, Option.map_some]

theorem mem_of_mem_ofList (member : found ∈ (ofList entries).entries) : found ∈ entries := by
  have read := get?_of_mem member
  rw [get?_ofList] at read
  obtain ⟨entry, last, same⟩ := Option.map_eq_some_iff.mp read
  obtain ⟨named, before, behind, split, -⟩ := findRev?_eq_some_iff.mp last
  obtain rfl : entry = found := Prod.ext named same
  rw [split]
  exact List.mem_append_right _ List.mem_cons_self

theorem mem_labels_ofList :
    label ∈ (ofList entries).entries.map Prod.fst ↔ label ∈ entries.map Prod.fst := by
  constructor
  · intro named
    obtain ⟨entry, member, rfl⟩ := List.mem_map.mp named
    exact List.mem_map_of_mem (mem_of_mem_ofList member)
  · intro named
    obtain ⟨entry, member, rfl⟩ := List.mem_map.mp named
    have written : (entries.findRev? (·.1 = entry.1)).isSome := by
      rw [List.findRev?_eq_find?_reverse, List.find?_isSome]
      exact ⟨entry, List.mem_reverse.mpr member, decide_eq_true rfl⟩
    obtain ⟨last, found⟩ := Option.isSome_iff_exists.mp written
    have read := get?_ofList entries entry.1
    rw [found, Option.map_some, get?, Option.map_eq_some_iff] at read
    obtain ⟨kept, here, -⟩ := read
    have same := List.find?_some here
    rw [decide_eq_true_iff] at same
    exact same ▸ List.mem_map_of_mem (List.mem_of_find?_eq_some here)

/-- Other values under the same labels. -/
def map {β : Type} (f : α → β) (labelled : Labelled α) : Labelled β :=
  ⟨labelled.entries.map fun entry => (entry.1, f entry.2), List.pairwise_map.mpr labelled.sorted⟩

theorem exists_of_mem_map {β : Type} {f : α → β} {labelled : Labelled α} {entry : String × β}
    (member : entry ∈ (labelled.map f).entries) :
    ∃ value, (entry.1, value) ∈ labelled.entries ∧ entry.2 = f value := by
  obtain ⟨⟨label, value⟩, inside, rfl⟩ := List.mem_map.mp member
  exact ⟨value, inside, rfl⟩

end BoundedPrintf.Labelled
