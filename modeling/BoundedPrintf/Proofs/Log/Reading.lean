import BoundedPrintf.Log.Validation
import BoundedPrintf.Proofs.Json.SingleLine
import BoundedPrintf.Proofs.Json.Whole

/-! Log lines that are accepted. Writer, checks and reader agree on the fields of an entry: every
entry that conforms to the schema is written on one line, passes the checks and is read back. -/
namespace BoundedPrintf.Log

namespace Entry

def fieldNames : List String :=
  ["timestamp", "trace_id", "level", "event", "mode", "case", "section", "outcome", "duration_ms",
    "details"]

/-- What an entry says in a field, if anything. -/
def value (entry : Entry) : String → Option Json
  | "timestamp" => some (.string entry.timestamp)
  | "trace_id" => some (.string entry.traceId)
  | "level" => some (.string entry.level.name)
  | "event" => some (.string entry.event)
  | "mode" => entry.mode.map .string
  | "case" => entry.case.map .string
  | "section" => entry.clause.map .string
  | "outcome" => entry.outcome.map fun verdict => .string verdict.name
  | "duration_ms" => entry.durationMs.map fun duration => .integer duration.toNat
  | "details" => entry.details
  | _ => none

variable {entry : Entry}

theorem toJson_eq_present (entry : Entry) :
    entry.toJson = .object (Json.present fieldNames entry.value) := by
  simp [toJson, Json.present, List.filterMap_eq_flatMap_toList, fieldNames, value]

/-- The entry with the tree of its details. -/
def tidy (entry : Entry) : Entry := { entry with details := entry.details.map Json.tidy }

theorem value_tidy (entry : Entry) (name : String) :
    (entry.value name).map Json.tidy = entry.tidy.value name := by
  unfold value
  split
  iterate 4 rfl
  iterate 5 rw [Option.map_map]; rfl
  iterate 2 rfl

/-- The object that a reader of the line gets. -/
def object (entry : Entry) : Labelled Json := Labelled.ofList (Json.present fieldNames entry.value)

theorem get?_object {name : String} (listed : name ∈ fieldNames) :
    entry.object.get? name = entry.value name :=
  Json.get?_present (by decide) listed

/-- What the schema asks of an entry. -/
structure Conforms (entry : Entry) : Prop where
  traceId : separators entry.traceId.toList = 2
  mode : ∀ mode ∈ entry.mode, mode = Mode.compat.name ∨ mode = Mode.strict.name
  context : entry.outcome.isSome → entry.case.isSome ∨ entry.details.isSome

/-- Details that a line tells. -/
structure Told (details : Json) : Prop where
  given : details ≠ .null
  exact : details.Exact
  shallow : details.depth + 1 < Json.nestingLimit

theorem value_cases {name : String} {json : Json} (given : entry.value name = some json) :
    (∃ text, json = .string text) ∨ (∃ duration : UInt64, json = .integer duration.toNat) ∨
      entry.details = some json := by
  unfold value at given
  split at given
  iterate 4 exact .inl ⟨_, (Option.some.inj given).symm⟩
  iterate 4
    obtain ⟨_, -, rfl⟩ := Option.map_eq_some_iff.mp given
    exact .inl ⟨_, rfl⟩
  · obtain ⟨duration, -, rfl⟩ := Option.map_eq_some_iff.mp given
    exact .inr (.inl ⟨duration, rfl⟩)
  · exact .inr (.inr given)
  · cases given

theorem exact_value (exact : ∀ details ∈ entry.details, details.Exact) {name : String} {json : Json}
    (given : entry.value name = some json) : json.Exact := by
  rcases value_cases given with ⟨text, rfl⟩ | ⟨duration, rfl⟩ | details
  · exact .string text
  · exact Json.exact_uint64 duration
  · exact exact json details

theorem exact_toJson (exact : ∀ details ∈ entry.details, details.Exact) : entry.toJson.Exact := by
  rw [toJson_eq_present]
  exact .object fun member inside => exact_value exact (Json.mem_present.mp inside).2

theorem depth_value (shallow : ∀ details ∈ entry.details, details.depth + 1 < Json.nestingLimit)
    {name : String} {json : Json} (given : entry.value name = some json) :
    json.depth ≤ Json.nestingLimit - 2 := by
  rcases value_cases given with ⟨text, rfl⟩ | ⟨duration, rfl⟩ | details
  · exact Nat.zero_le _
  · exact Nat.zero_le _
  · have bound := shallow json details
    omega

/-- The object of an entry is a level around its details. -/
theorem depth_toJson_lt_iff : entry.toJson.depth < Json.nestingLimit ↔
    ∀ details ∈ entry.details, details.depth + 1 < Json.nestingLimit := by
  have listed : "details" ∈ fieldNames := by decide
  have limit : Json.nestingLimit = Json.nestingLimit - 2 + 1 + 1 := rfl
  rw [toJson_eq_present, limit, Nat.lt_succ_iff, Json.depth_object_le]
  constructor
  · intro shallow details inside
    have bound := shallow ("details", details) (Json.mem_present.mpr ⟨listed, inside⟩)
    exact Nat.succ_lt_succ (Nat.lt_succ_of_le bound)
  · intro shallow member inside
    exact depth_value shallow (Json.mem_present.mp inside).2

theorem read?_line (told : ∀ details ∈ entry.details, Told details) :
    (Json.read? entry.line).bind Json.whole? = some (.object entry.tidy.object.entries) := by
  have whole : ∀ details ∈ entry.details, details.Exact := fun details inside =>
    (told details inside).exact
  have shallow : entry.toJson.depth < Json.nestingLimit :=
    depth_toJson_lt_iff.mpr fun details inside => (told details inside).shallow
  have exact : ∀ member ∈ Json.present fieldNames entry.value, member.2.Exact :=
    fun member inside => exact_value whole (Json.mem_present.mp inside).2
  have values : (fun name => (entry.value name).map Json.tidy) = entry.tidy.value :=
    funext entry.value_tidy
  rw [line, Json.read?_compact (exact_toJson whole), Option.bind_some,
    Json.whole?_exact (exact_toJson whole) shallow, toJson_eq_present,
    Json.tidy_object exact, Json.map_tidyMember_present, values, object]

/-- The tree of an entry asks for no more and no less than the entry. -/
theorem conforms_tidy (conforms : entry.Conforms) : entry.tidy.Conforms := by
  refine ⟨conforms.traceId, conforms.mode, fun outcome => ?_⟩
  rw [tidy, Option.isSome_map]
  exact conforms.context outcome

theorem checkName_eq_nil {object : Json} {field : String} {allowed : List String}
    (fine : ∀ text, object.get? field = some (.string text) → text ∈ allowed) :
    checkName object field allowed = [] := by
  rw [checkName]
  split
  · next value found =>
      obtain ⟨json, here, text⟩ := Option.bind_eq_some_iff.mp found
      obtain rfl : json = .string value := by
        cases json <;> simp_all [Json.text?]
      rw [if_pos (List.contains_iff_mem.mpr (fine value here))]
  · rfl

theorem complaints_object (conforms : entry.Conforms) :
    complaints (.object entry.object.entries) = [] := by
  have get : ∀ name ∈ fieldNames, (Json.object entry.object.entries).get? name = entry.value name :=
    fun name listed => (Json.get?_object _ name).trans (get?_object listed)
  have required : requiredFields.filter (fun field => !has (.object entry.object.entries) field) =
      [] := by
    refine List.filter_eq_nil_iff.mpr ?_
    simp [requiredFields, has, get "timestamp" (by decide), get "trace_id" (by decide),
      get "level" (by decide), get "event" (by decide), value]
  have level : checkName (.object entry.object.entries) "level" (Level.all.map Level.name) = [] := by
    refine checkName_eq_nil fun text found => ?_
    rw [get "level" (by decide)] at found
    cases found
    cases entry.level <;> decide
  have mode : checkName (.object entry.object.entries) "mode"
      [Mode.compat.name, Mode.strict.name] = [] := by
    refine checkName_eq_nil fun text found => ?_
    rw [get "mode" (by decide)] at found
    obtain ⟨_, given, ⟨⟩⟩ := Option.map_eq_some_iff.mp found
    simpa using conforms.mode text given
  have outcome : checkName (.object entry.object.entries) "outcome"
      (Verdict.all.map Verdict.name) = [] := by
    refine checkName_eq_nil fun text found => ?_
    rw [get "outcome" (by decide)] at found
    obtain ⟨verdict, -, ⟨⟩⟩ := Option.map_eq_some_iff.mp found
    cases verdict <;> decide
  have id : ((Json.object entry.object.entries).get? "trace_id").bind Json.text? =
      some entry.traceId := by
    rw [get "trace_id" (by decide)]
    rfl
  have context : (has (.object entry.object.entries) "outcome" &&
      !has (.object entry.object.entries) "case" &&
      !has (.object entry.object.entries) "details") = false := by
    have context := conforms.context
    simp only [has, get "outcome" (by decide), get "case" (by decide), get "details" (by decide),
      value, Option.isSome_map]
    revert context
    cases entry.outcome.isSome <;> cases entry.case.isSome <;> cases entry.details.isSome <;> decide
  rw [complaints, required, level, mode, outcome, id, context]
  simp [conforms.traceId]

theorem ofJson?_object (given : ∀ details ∈ entry.details, details ≠ .null) :
    ofJson? (.object entry.object.entries) = some entry := by
  have known : ∀ member ∈ entry.object.entries, member.1 ∈ fieldNames := fun member inside =>
    (Json.mem_present.mp (Labelled.mem_of_mem_ofList inside)).1
  have record : (Json.object entry.object.entries).record? fieldNames =
      some ⟨entry.object.entries, false⟩ := Json.record?_object known
  have get : ∀ name ∈ fieldNames,
      (Json.Record.mk entry.object.entries false).get? name = entry.value name :=
    fun name listed => get?_object listed
  have named : (Json.Record.mk entry.object.entries false).positional = false := rfl
  generalize (⟨entry.object.entries, false⟩ : Json.Record) = fields at record get named
  have timestamp : fields.required? "timestamp" Json.text? = some entry.timestamp :=
    Json.Record.required?_of_get? (get "timestamp" (by decide))
  have traceId : fields.required? "trace_id" Json.text? = some entry.traceId :=
    Json.Record.required?_of_get? (get "trace_id" (by decide))
  have level : fields.required? "level" (fun json => json.name?.bind Level.ofName?) =
      some entry.level := by
    rw [Json.Record.required?_of_get? (get "level" (by decide))]
    cases entry.level <;> rfl
  have event : fields.required? "event" Json.text? = some entry.event :=
    Json.Record.required?_of_get? (get "event" (by decide))
  have mode : fields.optional? "mode" Json.text? = some entry.mode :=
    Json.Record.optional?_of_get? named (get "mode" (by decide)) fun _ _ => ⟨nofun, rfl⟩
  have case : fields.optional? "case" Json.text? = some entry.case :=
    Json.Record.optional?_of_get? named (get "case" (by decide)) fun _ _ => ⟨nofun, rfl⟩
  have clause : fields.optional? "section" Json.text? = some entry.clause :=
    Json.Record.optional?_of_get? named (get "section" (by decide)) fun _ _ => ⟨nofun, rfl⟩
  have outcome : fields.optional? "outcome" (fun json => json.name?.bind Verdict.ofName?) =
      some entry.outcome := by
    refine Json.Record.optional?_of_get? named (get "outcome" (by decide)) fun verdict _ =>
      ⟨nofun, ?_⟩
    cases verdict <;> rfl
  have duration : fields.optional? "duration_ms" Json.uint64? = some entry.durationMs := by
    refine Json.Record.optional?_of_get? named (get "duration_ms" (by decide)) fun duration _ =>
      ⟨nofun, Json.uint64?_toNat duration⟩
  have details : fields.optional? "details" some = some entry.details := by
    have found : fields.get? "details" = entry.details.map id := by
      rw [get "details" (by decide), Option.map_id]
      rfl
    exact Json.Record.optional?_of_get? named found fun json inside => ⟨given json inside, rfl⟩
  rw [fieldNames] at record
  simp only [ofJson?, record, Option.bind_eq_bind, Option.bind_some, timestamp, traceId, level, event,
    mode, case, clause, outcome, duration, details]

end Entry

/-- An entry that conforms is read back from its line, up to the order of the members in its
details. -/
theorem readLine_line {entry : Entry} (conforms : entry.Conforms)
    (told : ∀ details ∈ entry.details, Entry.Told details) :
    readLine entry.line = .ok entry.tidy := by
  have given : ∀ details ∈ entry.tidy.details, details ≠ .null := by
    intro details inside
    obtain ⟨json, here, rfl⟩ := Option.map_eq_some_iff.mp inside
    exact Json.tidy_ne_null (told json here).exact (told json here).given
  rw [readLine, Entry.read?_line told]
  simp only [Entry.complaints_object (Entry.conforms_tidy conforms), Entry.ofJson?_object given]

end BoundedPrintf.Log
