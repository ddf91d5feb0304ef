import Mathlib
import BoundedPrintf.Proofs.Log.Reading
import BoundedPrintf.Proofs.Log.TraceIds

/-! Entries that come back from their lines. The details of an entry are a tree already, so nothing in
them is sorted or dropped on the way, and only their nesting can keep a line from being read. -/
namespace BoundedPrintf

namespace Json

/-- A value as readers hold it, without floats: the members of an object are sorted, and no name occurs
twice. -/
inductive Tree : Json → Prop
  | null : Tree .null
  | bool (value : Bool) : Tree (.bool value)
  | integer {value : Int} : -2 ^ 63 ≤ value → value ≤ maxSize → Tree (.integer value)
  | string (text : String) : Tree (.string text)
  | array {items : List Json} : (∀ item ∈ items, Tree item) → Tree (.array items)
  | object {members : List (String × Json)} : members.Pairwise (fun x y => x.1 < y.1) →
      (∀ member ∈ members, Tree member.2) → Tree (.object members)

variable {json : Json}

theorem exact_of_tree (tree : Tree json) : Exact json := by
  induction tree with
  | null => exact .null
  | bool value => exact .bool value
  | integer least most => exact .integer least most
  | string text => exact .string text
  | array _ ih => exact .array ih
  | object _ _ ih => exact .object ih

theorem tidy_of_tree (tree : Tree json) : json.tidy = json := by
  induction tree with
  | null | bool _ | string _ => rfl
  | integer => rfl
  | @array items trees ih =>
      have same : items.map tidy = items := (List.map_congr_left ih).trans (List.map_id items)
      have sorted := sortedItems?_of_all fun item inside => sorted?_exact (exact_of_tree (trees item inside))
      rw [tidy, sorted?, sorted, same]
      rfl
  | @object members order trees ih =>
      have same : members.map tidyMember = members := by
        refine (List.map_congr_left fun member inside => ?_).trans (List.map_id members)
        rw [tidyMember, ih member inside, id]
      rw [tidy_object fun member inside => exact_of_tree (trees member inside), same,
        Labelled.entries_ofList order]

end Json

namespace Log

namespace Entry

/-- What the schema asks of an entry. -/
structure FollowsSchema (entry : Entry) : Prop where
  traceId : ∃ scope run number, Splits entry.traceId.toList [scope, run, number]
  mode : ∀ mode ∈ entry.mode, mode = "compat" ∨ mode = "strict"
  context : entry.outcome.isSome → entry.case.isSome ∨ entry.details.isSome

variable {entry : Entry}

theorem conforms_of_followsSchema (follows : entry.FollowsSchema) : entry.Conforms :=
  ⟨separators_eq_two_iff.mpr follows.traceId, follows.mode, follows.context⟩

theorem tidy_of_trees (trees : ∀ details ∈ entry.details, Json.Tree details) :
    entry.tidy = entry := by
  have same : entry.details.map Json.tidy = entry.details := by
    cases details : entry.details with
    | none => rfl
    | some json => rw [Option.map_some, Json.tidy_of_tree (trees json details)]
  rw [tidy, same]

/-- A line that is nested too deeply is no JSON for its reader. -/
theorem readLine_deep (exact : ∀ details ∈ entry.details, details.Exact)
    (deep : Json.nestingLimit ≤ entry.toJson.depth) : readLine entry.line = .error [.notJson] := by
  have refused : (Json.read? entry.line).bind Json.whole? = none := by
    rw [line, Json.read?_compact (exact_toJson exact), Option.bind_some, Json.whole?,
      if_neg (Nat.not_lt.mpr deep)]
  rw [readLine, refused]

/-- An entry that follows the schema is written on one line, and the line is read back as the entry in
all its fields. Only details can be nested too deeply for that; the object of the line is a level around
them. -/
theorem restored_from_line (follows : entry.FollowsSchema)
    (given : ∀ details ∈ entry.details, details ≠ .null)
    (trees : ∀ details ∈ entry.details, Json.Tree details) :
    (∀ c ∈ entry.line.toList, ' ' ≤ c) ∧
      ((∀ details ∈ entry.details, details.depth + 1 < Json.nestingLimit) →
        readLine entry.line = .ok entry) ∧
      (∀ details ∈ entry.details, Json.nestingLimit ≤ details.depth + 1 →
        readLine entry.line = .error [.notJson]) := by
  have exact : ∀ details ∈ entry.details, details.Exact := fun details inside =>
    Json.exact_of_tree (trees details inside)
  refine ⟨?_, ?_, ?_⟩
  · intro c inside
    rw [line, Json.compact, String.toList_ofList] at inside
    exact of_decide_eq_true (List.all_eq_true.mp (Json.printable_chars (exact_toJson exact) 0) c inside)
  · intro shallow
    have told : ∀ details ∈ entry.details, Told details := fun details inside =>
      ⟨given details inside, exact details inside, shallow details inside⟩
    rw [readLine_line (conforms_of_followsSchema follows) told, tidy_of_trees trees]
  · intro details inside deep
    refine readLine_deep exact (Nat.not_lt.mp fun shallow => ?_)
    exact Nat.not_lt.mpr deep (depth_toJson_lt_iff.mp shallow details inside)

/-- Marks of JSON, line breaks and other control characters in its texts, and numbers at their bounds. -/
def markedEntry : Entry where
  timestamp := "\r\n"
  traceId := ":\x22:::\x7f::"
  level := .error
  event := "\x00\\\x1f\x7b"
  mode := some "strict"
  case := some ""
  clause := some "null\n\u2028🦀"
  outcome := some .skip
  durationMs := some 18446744073709551615
  details := some (.object [("", .array [.null, .integer (-9223372036854775808)]),
    ("\n", .object [("a", .string "\x08"), ("b", .array [])])])

theorem marked_entry_restored : markedEntry.FollowsSchema ∧
    (∀ details ∈ markedEntry.details, details ≠ .null ∧ Json.Tree details ∧
      details.depth + 1 < Json.nestingLimit) ∧
    (∀ c ∈ markedEntry.line.toList, ' ' ≤ c) ∧ readLine markedEntry.line = .ok markedEntry := by
  have pair : Splits markedEntry.traceId.toList [[':', '"'], [':', '\x7f'], []] :=
    @Splits.part [':', '"'] _ _ (by decide)
      (@Splits.part [':', '\x7f'] _ _ (by decide) (.last (by decide)))
  have follows : markedEntry.FollowsSchema :=
    ⟨⟨_, _, _, pair⟩, by rintro _ ⟨⟩; exact .inr rfl, fun _ => .inl rfl⟩
  have details : ∀ details ∈ markedEntry.details, details ≠ .null ∧ Json.Tree details ∧
      details.depth + 1 < Json.nestingLimit := by
    rintro _ ⟨⟩
    have list : Json.Tree (.array [.null, .integer (-9223372036854775808)]) := by
      refine .array ?_
      simp only [List.forall_mem_cons, List.not_mem_nil, false_imp_iff, implies_true, and_true]
      exact ⟨.null, .integer (by decide) (by decide)⟩
    have inner : Json.Tree (.object [("a", .string "\x08"), ("b", .array [])]) := by
      refine .object (by decide) ?_
      simp only [List.forall_mem_cons, List.not_mem_nil, false_imp_iff, implies_true, and_true]
      exact ⟨.string _, .array nofun⟩
    refine ⟨nofun, .object (by decide) ?_, by decide⟩
    simp only [List.forall_mem_cons, List.not_mem_nil, false_imp_iff, implies_true, and_true]
    exact ⟨list, inner⟩
  obtain ⟨single, restored, -⟩ := restored_from_line follows (fun json inside => (details json inside).1)
    fun json inside => (details json inside).2.1
  exact ⟨follows, details, single, restored fun json inside => (details json inside).2.2⟩

end Entry

end Log

end BoundedPrintf
