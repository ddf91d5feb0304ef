import BoundedPrintf.Json.Decode
import BoundedPrintf.Proofs.Json.RoundTrip
import BoundedPrintf.Proofs.Labelled.Lookup

/-! Values as a whole. An exact value that is not nested too deeply has a tree, in which the members
of every object are sorted and can be looked up by name. Numbers, lists and records that were written
are read back as what they were. -/
namespace BoundedPrintf.Json

/-- The tree of a value, if it has one. -/
def tidy (json : Json) : Json := json.sorted?.getD json

/-- A member with the tree of its value. -/
def tidyMember (member : String × Json) : String × Json := (member.1, member.2.tidy)

section Sorting

variable {json : Json} {items : List Json} {members : List (String × Json)}

theorem sortedItems?_of_all (all : ∀ item ∈ items, item.sorted? = some item.tidy) :
    sorted?.sortedItems? items = some (items.map tidy) := by
  induction items with
  | nil => rfl
  | cons item items ih =>
      obtain ⟨first, others⟩ := List.forall_mem_cons.mp all
      simp only [sorted?.sortedItems?, first, ih others, Option.bind_eq_bind, Option.bind_some,
        List.map_cons]

theorem sortedMembers?_of_all (all : ∀ member ∈ members, member.2.sorted? = some member.2.tidy) :
    sorted?.sortedMembers? members = some (members.map tidyMember) := by
  induction members with
  | nil => rfl
  | cons member members ih =>
      obtain ⟨first, others⟩ := List.forall_mem_cons.mp all
      simp only [sorted?.sortedMembers?, first, ih others, Option.bind_eq_bind, Option.bind_some,
        List.map_cons, tidyMember]

theorem sorted?_exact (exact : Exact json) : json.sorted? = some json.tidy := by
  induction exact with
  | null | bool _ | string _ => rfl
  | integer => rfl
  | array _ ih =>
      rw [tidy, sorted?, sortedItems?_of_all ih]
      rfl
  | object _ ih =>
      rw [tidy, sorted?, sortedMembers?_of_all ih]
      rfl

theorem tidy_object (exact : ∀ member ∈ members, Exact member.2) :
    (object members).tidy = .object (Labelled.ofList (members.map tidyMember)).entries := by
  have all : ∀ member ∈ members, member.2.sorted? = some member.2.tidy := fun member inside =>
    sorted?_exact (exact member inside)
  rw [tidy, sorted?, sortedMembers?_of_all all]
  rfl

theorem tidy_ne_null (exact : Exact json) (given : json ≠ .null) : json.tidy ≠ .null := by
  intro null
  have sorted := sorted?_exact exact
  rw [null] at sorted
  cases exact with
  | null => exact given rfl
  | bool _ | string _ | integer => cases sorted
  | array _ | object _ =>
      obtain ⟨_, _, same⟩ := Option.map_eq_some_iff.mp sorted
      cases same

end Sorting

section Depth

variable {items : List Json} {members : List (String × Json)} {bound : Nat}

theorem foldl_max_le {depths : List Nat} {start : Nat} :
    depths.foldl max start ≤ bound ↔ start ≤ bound ∧ ∀ depth ∈ depths, depth ≤ bound := by
  induction depths generalizing start with
  | nil => simp
  | cons depth depths ih => simp [ih, and_assoc]

theorem itemDepths_eq_map (items : List Json) : depth.itemDepths items = items.map depth := by
  induction items with
  | nil => rfl
  | cons item items ih => rw [depth.itemDepths, ih, List.map_cons]

theorem memberDepths_eq_map (members : List (String × Json)) :
    depth.memberDepths members = members.map (·.2.depth) := by
  induction members with
  | nil => rfl
  | cons member members ih => rw [depth.memberDepths, ih, List.map_cons]

theorem depth_array_le : (array items).depth ≤ bound + 1 ↔ ∀ item ∈ items, item.depth ≤ bound := by
  simp only [depth, itemDepths_eq_map, add_le_add_iff_right, foldl_max_le, List.forall_mem_map,
    Nat.zero_le, true_and]

theorem depth_object_le :
    (object members).depth ≤ bound + 1 ↔ ∀ member ∈ members, member.2.depth ≤ bound := by
  simp only [depth, memberDepths_eq_map, add_le_add_iff_right, foldl_max_le, List.forall_mem_map,
    Nat.zero_le, true_and]

end Depth

theorem whole?_exact {json : Json} (exact : Exact json) (shallow : json.depth < nestingLimit) :
    json.whole? = some json.tidy := by
  rw [whole?, if_pos shallow, sorted?_exact exact]

section Decoding

variable {α : Type} {read? : Json → Option α} {write : α → Json}

theorem int64?_toInt (value : Int64) : (integer value.toInt).int64? = some value := by
  have least := value.le_toInt
  have most := value.toInt_lt
  rw [int64?, if_pos ⟨least, most⟩, Int64.ofInt_toInt]

theorem int32?_toInt (value : Int32) : (integer value.toInt).int32? = some value := by
  have least := value.le_toInt
  have most := value.toInt_lt
  rw [int32?, if_pos ⟨least, most⟩, Int32.ofInt_toInt]

theorem uint64?_toNat (value : UInt64) : (integer value.toNat).uint64? = some value := by
  have small := value.toNat_lt
  rw [uint64?, if_pos (by omega), Int.toNat_natCast, UInt64.ofNat_toNat]

theorem exact_int64 (value : Int64) : (integer value.toInt).Exact := by
  have most := value.toInt_lt
  exact .integer value.le_toInt (by simp only [maxSize]; omega)

theorem exact_int32 (value : Int32) : (integer value.toInt).Exact := by
  have least := value.le_toInt
  have most := value.toInt_lt
  exact .integer (by omega) (by simp only [maxSize]; omega)

theorem exact_uint64 (value : UInt64) : (integer value.toNat).Exact := by
  have most := value.toNat_lt
  exact .integer (by omega) (by simp only [maxSize]; omega)

theorem mapM_map_some {β : Type} {write : α → β} {read? : β → Option α} {items : List α}
    (back : ∀ item ∈ items, read? (write item) = some item) :
    (items.map write).mapM read? = some items := by
  induction items with
  | nil => rfl
  | cons item items ih =>
      obtain ⟨first, others⟩ := List.forall_mem_cons.mp back
      rw [List.map_cons, List.mapM_cons, first, ih others]
      rfl

theorem list?_map {items : List α} (back : ∀ item ∈ items, read? (write item) = some item) :
    list? read? (.array (items.map write)) = some items := by
  rw [list?, items?, Option.bind_eq_bind, Option.bind_some, mapM_map_some back]

theorem labelled?_map {labelled : Labelled α}
    (back : ∀ entry ∈ labelled.entries, read? (write entry.2) = some entry.2) :
    labelled? read? (.object (labelled.entries.map fun entry => (entry.1, write entry.2))) =
      some labelled := by
  have entries : (labelled.entries.map fun entry => (entry.1, write entry.2)).mapM
      (fun member => (read? member.2).map (member.1, ·)) = some labelled.entries :=
    mapM_map_some fun entry member => by rw [back entry member, Option.map_some]
  rw [labelled?, entries, Option.bind_eq_bind, Option.bind_some, Labelled.ofList_entries]

end Decoding

section Records

variable {names : List String} {value : String → Option Json} {name : String}

theorem get?_object (members : Labelled Json) (name : String) :
    (object members.entries).get? name = members.get? name := by
  rw [get?, Labelled.findRev?_eq_find? members.nodup_labels, Labelled.get?]

theorem record?_of_known {members : List (String × Json)} (once : (members.map Prod.fst).Nodup)
    (known : ∀ member ∈ members, member.1 ∈ names) :
    (object members).record? names = some ⟨members, false⟩ := by
  have all : members.filter (fun member => names.contains member.1) = members :=
    List.filter_eq_self.mpr fun member inside => List.contains_iff_mem.mpr (known member inside)
  rw [record?, all]
  exact if_pos once

theorem record?_object {members : Labelled Json}
    (known : ∀ member ∈ members.entries, member.1 ∈ names) :
    (object members.entries).record? names = some ⟨members.entries, false⟩ :=
  record?_of_known members.nodup_labels known

/-- The fields that have a value, in the order of their names. -/
def present (names : List String) (value : String → Option Json) : List (String × Json) :=
  names.filterMap fun name => (value name).map (name, ·)

theorem mem_present {member : String × Json} :
    member ∈ present names value ↔ member.1 ∈ names ∧ value member.1 = some member.2 := by
  obtain ⟨name, json⟩ := member
  simp only [present, List.mem_filterMap, Option.map_eq_some_iff, Prod.mk.injEq]
  constructor
  · rintro ⟨_, listed, _, given, rfl, rfl⟩
    exact ⟨listed, given⟩
  · rintro ⟨listed, given⟩
    exact ⟨name, listed, json, given, rfl, rfl⟩

theorem map_fst_present (names : List String) (value : String → Option Json) :
    (present names value).map Prod.fst = names.filter fun name => (value name).isSome := by
  induction names with
  | nil => rfl
  | cons name names ih =>
      rw [present] at ih ⊢
      cases given : value name <;> simp [given, ih]

theorem nodup_present (once : names.Nodup) : ((present names value).map Prod.fst).Nodup := by
  rw [map_fst_present]
  exact once.filter _

theorem find?_present (once : names.Nodup) (listed : name ∈ names) :
    ((present names value).find? (·.1 = name)).map Prod.snd = value name := by
  ext json
  simp only [Option.map_eq_some_iff, Labelled.find?_eq_some_iff_mem (nodup_present once), mem_present]
  constructor
  · rintro ⟨member, ⟨rfl, -, given⟩, rfl⟩
    exact given
  · intro given
    exact ⟨(name, json), ⟨rfl, listed, given⟩, rfl⟩

theorem get?_present (once : names.Nodup) (listed : name ∈ names) :
    (Labelled.ofList (present names value)).get? name = value name := by
  rw [Labelled.get?_ofList, Labelled.findRev?_eq_find? (nodup_present once), find?_present once listed]

theorem record?_present (once : names.Nodup) :
    (object (present names value)).record? names = some ⟨present names value, false⟩ :=
  record?_of_known (nodup_present once) fun _ inside => (mem_present.mp inside).1

theorem map_tidyMember_present (names : List String) (value : String → Option Json) :
    (present names value).map tidyMember = present names fun name => (value name).map tidy := by
  rw [present, List.map_filterMap, present]
  refine List.filterMap_congr fun name _ => ?_
  cases value name <;> rfl

namespace Record

variable {α : Type} {record : Record} {read? : Json → Option α}

theorem required?_of_get? {json : Json} (found : record.get? name = some json) :
    record.required? name read? = read? json := by
  rw [required?, found, Option.bind_some]

/-- A field with a default is read back if what stands for its value is, and the default if nothing
does. -/
theorem withDefault?_of_get? {written : Option Json} {given default : α}
    (found : record.get? name = written) (missing : written = none → given = default)
    (back : ∀ json ∈ written, read? json = some given) :
    record.withDefault? name default read? = some given := by
  cases written with
  | none => rw [withDefault?, found, missing rfl]
  | some json =>
      rw [withDefault?, found]
      exact back json rfl

/-- An optional field of an object is read back if each of its values is. -/
theorem optional?_of_get? {written : α → Json} {given : Option α} (named : record.positional = false)
    (found : record.get? name = given.map written)
    (back : ∀ value ∈ given, written value ≠ .null ∧ read? (written value) = some value) :
    record.optional? name read? = some given := by
  cases given with
  | none => rw [optional?, found, Option.map_none, named]; rfl
  | some value =>
      obtain ⟨proper, read⟩ := back value rfl
      rw [optional?, found, Option.map_some]
      split
      · next missing => cases missing
      · next null => exact absurd (Option.some.inj null) proper
      · next json same => rw [← Option.some.inj same, read, Option.map_some]

end Record

end Records

end BoundedPrintf.Json
