/-! Values under labels, sorted by label. A label occurs once, and what is written under it last
counts. -/
namespace BoundedPrintf

structure Labelled (α : Type) where
  entries : List (String × α) := []
  sorted : entries.Pairwise (fun x y => x.1 < y.1) := by exact .nil

namespace Labelled

variable {α : Type}

/-- Puts an entry in its place among sorted entries. -/
def insertEntry (label : String) (value : α) : List (String × α) → List (String × α)
  | [] => [(label, value)]
  | entry :: rest =>
      if label < entry.1 then (label, value) :: entry :: rest
      else if label = entry.1 then (label, value) :: rest
      else entry :: insertEntry label value rest

theorem label_mem_insertEntry {label : String} {value : α} {entries : List (String × α)} {entry : String × α}
    (member : entry ∈ insertEntry label value entries) : entry.1 = label ∨ entry ∈ entries := by
  induction entries with
  | nil => exact .inl (by simp_all [insertEntry])
  | cons head rest ih =>
      simp only [insertEntry] at member
      split at member
      · rcases List.mem_cons.mp member with rfl | old
        · exact .inl rfl
        · exact .inr old
      · split at member
        · rcases List.mem_cons.mp member with rfl | old
          · exact .inl rfl
          · exact .inr (List.mem_cons_of_mem _ old)
        · rcases List.mem_cons.mp member with rfl | old
          · exact .inr List.mem_cons_self
          · exact (ih old).imp_right (List.mem_cons_of_mem _)

theorem insertEntry_sorted {label : String} {value : α} {entries : List (String × α)}
    (sorted : entries.Pairwise (fun x y => x.1 < y.1)) :
    (insertEntry label value entries).Pairwise (fun x y => x.1 < y.1) := by
  induction entries with
  | nil => simp [insertEntry]
  | cons head rest ih =>
      obtain ⟨first, others⟩ := List.pairwise_cons.mp sorted
      simp only [insertEntry]
      split
      · next before =>
          refine List.pairwise_cons.mpr ⟨fun entry member => ?_, sorted⟩
          rcases List.mem_cons.mp member with rfl | old
          · exact before
          · exact String.lt_trans before (first entry old)
      · split
        · next same =>
            exact List.pairwise_cons.mpr ⟨fun entry member => same ▸ first entry member, others⟩
        · next after different =>
            refine List.pairwise_cons.mpr ⟨fun entry member => ?_, ih others⟩
            rcases label_mem_insertEntry member with same | old
            · have order := Std.lt_trichotomy head.1 label
              rw [same]
              exact order.resolve_right fun h => h.elim (fun e => different e.symm) after
            · exact first entry old

def insert (labelled : Labelled α) (label : String) (value : α) : Labelled α :=
  ⟨insertEntry label value labelled.entries, insertEntry_sorted labelled.sorted⟩

/-- The entries of a list, later ones in the place of earlier ones with the same label. -/
def ofList (entries : List (String × α)) : Labelled α :=
  entries.foldl (fun labelled entry => labelled.insert entry.1 entry.2) {}

def get? (labelled : Labelled α) (label : String) : Option α :=
  (labelled.entries.find? (·.1 = label)).map (·.2)

def isEmpty (labelled : Labelled α) : Bool := labelled.entries.isEmpty

end Labelled

end BoundedPrintf
