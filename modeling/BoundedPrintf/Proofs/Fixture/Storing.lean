import BoundedPrintf.Fixture.Set
import BoundedPrintf.Proofs.Json.Whole

/-! Fixture sets in their stored form. Each part of a set is written as one value and read back from
it. Only a double in decimal digits may come back as another one, so sets without such an argument
are told by their text. -/
namespace BoundedPrintf

namespace FixtureArgument

variable {arg : FixtureArgument}

/-- The argument is no double in decimal digits. -/
def Told (arg : FixtureArgument) : Prop := ∀ bits, arg ≠ .double bits

theorem ofJson?_toJson (told : arg.Told) : ofJson? arg.toJson = some arg := by
  cases arg with
  | int value => simp [toJson, ofJson?, Json.int64?_toInt]
  | uint value | doubleBits value | pointer value => simp [toJson, ofJson?, Json.uint64?_toNat]
  | double bits => exact absurd rfl (told bits)
  | text value | count label => rfl
  | nullText => rfl

theorem exact_toJson (told : arg.Told) : arg.toJson.Exact := by
  have single {kind : String} {value : Json} (exact : value.Exact) :
      (Json.object [(kind, value)]).Exact :=
    .object fun _ member => List.mem_singleton.mp member ▸ exact
  cases arg with
  | int value => exact single (Json.exact_int64 value)
  | uint value | doubleBits value | pointer value => exact single (Json.exact_uint64 value)
  | double bits => exact absurd rfl (told bits)
  | text value | count label => exact single (.string _)
  | nullText => exact .string _

end FixtureArgument

namespace FixtureCase

variable {case : FixtureCase}

/-- No argument of the case is a double in decimal digits. -/
def Told (case : FixtureCase) : Prop := ∀ arg ∈ case.args, arg.Told

/-- The expected counts in JSON. -/
def counts (case : FixtureCase) : Json :=
  .object (case.expectedCounts.entries.map fun entry => (entry.1, .integer entry.2.toInt))

/-- What a case says in a field, if anything. -/
def value (case : FixtureCase) : String → Option Json
  | "name" => some (.string case.name)
  | "section" => some (.string case.clause)
  | "template" => some (.string case.template)
  | "capacity" => some (.integer case.capacity.toNat)
  | "args" => some (.array (case.args.map FixtureArgument.toJson))
  | "expected_output" => some (.string case.expectedOutput)
  | "expected_return" => some (.integer case.expectedReturn.toInt)
  | "expected_counts" => if case.expectedCounts.isEmpty then none else some case.counts
  | "mode" => some (.string case.mode)
  | _ => none

theorem toJson_eq_present (case : FixtureCase) :
    case.toJson = .object (Json.present fieldNames case.value) := by
  by_cases none : case.expectedCounts.entries = [] <;>
    simp [toJson, Json.present, fieldNames, value, counts, Labelled.isEmpty, none]

theorem value_counts (case : FixtureCase) : case.value "expected_counts" =
    if case.expectedCounts.isEmpty then none else some case.counts := rfl

theorem nodup_fieldNames : fieldNames.Nodup := by decide

theorem record?_toJson (case : FixtureCase) :
    case.toJson.record? fieldNames = some ⟨Json.present fieldNames case.value, false⟩ := by
  rw [toJson_eq_present]
  exact Json.record?_present nodup_fieldNames

section Fields

variable {fields : Json.Record}

/-- The fields are the ones that a case says. -/
def SaidBy (case : FixtureCase) (fields : Json.Record) : Prop :=
  ∀ name ∈ fieldNames, fields.get? name = case.value name

theorem saidBy_present (case : FixtureCase) :
    case.SaidBy ⟨Json.present fieldNames case.value, false⟩ := by
  intro name listed
  exact Json.find?_present nodup_fieldNames listed

theorem required?_text {text : String} (said : case.SaidBy fields) (name : String)
    (listed : name ∈ fieldNames) (given : case.value name = some (.string text)) :
    fields.required? name Json.text? = some text :=
  Json.Record.required?_of_get? ((said name listed).trans given)

theorem required?_capacity (said : case.SaidBy fields) :
    fields.required? "capacity" Json.uint64? = some case.capacity :=
  (Json.Record.required?_of_get? (said "capacity" (by decide))).trans (Json.uint64?_toNat _)

theorem required?_return (said : case.SaidBy fields) :
    fields.required? "expected_return" Json.int32? = some case.expectedReturn :=
  (Json.Record.required?_of_get? (said "expected_return" (by decide))).trans (Json.int32?_toInt _)

theorem withDefault?_args (told : case.Told) (said : case.SaidBy fields) :
    fields.withDefault? "args" [] (Json.list? FixtureArgument.ofJson?) = some case.args := by
  refine Json.Record.withDefault?_of_get? (said "args" (by decide)) nofun ?_
  rintro _ ⟨⟩
  exact Json.list?_map fun arg member => FixtureArgument.ofJson?_toJson (told arg member)

/-- Counts are left out when there are none, which is the default. -/
theorem withDefault?_counts (said : case.SaidBy fields) :
    fields.withDefault? "expected_counts" {} (Json.labelled? Json.int32?) =
      some case.expectedCounts := by
  refine Json.Record.withDefault?_of_get? (said "expected_counts" (by decide)) ?_ ?_
  · intro missing
    rw [value_counts, ite_eq_left_iff] at missing
    have empty : case.expectedCounts.isEmpty = true := by_contra fun some => nomatch missing some
    exact Labelled.eq_of_entries (List.isEmpty_iff.mp empty)
  · intro json given
    rw [value_counts, Option.mem_def, ite_eq_iff] at given
    obtain ⟨-, ⟨⟩⟩ | ⟨-, ⟨⟩⟩ := given
    have back : ∀ entry ∈ case.expectedCounts.entries,
        (Json.integer entry.2.toInt).int32? = some entry.2 :=
      fun entry _ => Json.int32?_toInt entry.2
    exact @Json.labelled?_map Int32 Json.int32? (fun value => .integer value.toInt) _ back

theorem withDefault?_mode (said : case.SaidBy fields) :
    fields.withDefault? "mode" "both" Json.text? = some case.mode := by
  refine Json.Record.withDefault?_of_get? (said "mode" (by decide)) nofun ?_
  rintro _ ⟨⟩
  rfl

theorem ofJson?_of_saidBy {json : Json} (record : json.record? fieldNames = some fields)
    (told : case.Told) (said : case.SaidBy fields) : ofJson? json = some case := by
  have name := required?_text said "name" (by decide) rfl
  have clause := required?_text said "section" (by decide) rfl
  have template := required?_text said "template" (by decide) rfl
  have output := required?_text said "expected_output" (by decide) rfl
  rw [ofJson?, record]
  simp only [Option.bind_eq_bind, Option.bind_some, name, clause, template, output,
    required?_capacity said, required?_return said, withDefault?_args told said,
    withDefault?_counts said, withDefault?_mode said]

end Fields

theorem ofJson?_toJson (told : case.Told) : ofJson? case.toJson = some case :=
  ofJson?_of_saidBy (record?_toJson case) told (saidBy_present case)

theorem exact_counts (case : FixtureCase) : case.counts.Exact := by
  refine .object fun member inside => ?_
  obtain ⟨entry, -, rfl⟩ := List.mem_map.mp inside
  exact Json.exact_int32 entry.2

theorem exact_value (told : case.Told) {name : String} {json : Json}
    (given : case.value name = some json) : json.Exact := by
  unfold value at given
  split at given
  · exact Option.some.inj given ▸ .string _
  · exact Option.some.inj given ▸ .string _
  · exact Option.some.inj given ▸ .string _
  · exact Option.some.inj given ▸ Json.exact_uint64 _
  · refine Option.some.inj given ▸ .array fun item inside => ?_
    obtain ⟨arg, member, rfl⟩ := List.mem_map.mp inside
    exact FixtureArgument.exact_toJson (told arg member)
  · exact Option.some.inj given ▸ .string _
  · exact Option.some.inj given ▸ Json.exact_int32 _
  · obtain ⟨-, ⟨⟩⟩ | ⟨-, ⟨⟩⟩ := ite_eq_iff.mp given
    exact exact_counts case
  · exact Option.some.inj given ▸ .string _
  · cases given

theorem exact_toJson (told : case.Told) : case.toJson.Exact := by
  rw [toJson_eq_present]
  refine .object fun member inside => ?_
  exact exact_value told (Json.mem_present.mp inside).2

end FixtureCase

namespace FixtureSet

variable {set : FixtureSet}

/-- No argument of the set is a double in decimal digits. -/
def Told (set : FixtureSet) : Prop := ∀ case ∈ set.cases, case.Told

def fieldNames : List String := ["version", "family", "captured_at", "cases"]

/-- What a set says in a field. -/
def value (set : FixtureSet) : String → Option Json
  | "version" => some (.string set.version)
  | "family" => some (.string set.family)
  | "captured_at" => some (.string set.capturedAt)
  | "cases" => some (.array (set.cases.map FixtureCase.toJson))
  | _ => none

theorem toJson_eq_present (set : FixtureSet) :
    set.toJson = .object (Json.present fieldNames set.value) := rfl

theorem ofJson?_of_saidBy {json : Json} {fields : Json.Record}
    (record : json.record? fieldNames = some fields) (told : set.Told)
    (said : ∀ name ∈ fieldNames, fields.get? name = set.value name) :
    ofJson? json = some set := by
  have version : fields.required? "version" Json.text? = some set.version :=
    Json.Record.required?_of_get? (said "version" (by decide))
  have family : fields.required? "family" Json.text? = some set.family :=
    Json.Record.required?_of_get? (said "family" (by decide))
  have capturedAt : fields.required? "captured_at" Json.text? = some set.capturedAt :=
    Json.Record.required?_of_get? (said "captured_at" (by decide))
  have cases : fields.required? "cases" (Json.list? FixtureCase.ofJson?) = some set.cases :=
    (Json.Record.required?_of_get? (said "cases" (by decide))).trans
      (Json.list?_map fun case member => FixtureCase.ofJson?_toJson (told case member))
  rw [fieldNames] at record
  rw [ofJson?, record]
  simp only [Option.bind_eq_bind, Option.bind_some, version, family, capturedAt, cases]

theorem ofJson?_toJson (told : set.Told) : ofJson? set.toJson = some set := by
  have once : fieldNames.Nodup := by decide
  rw [toJson_eq_present]
  exact ofJson?_of_saidBy (Json.record?_present once) told fun _ listed =>
    Json.find?_present once listed

theorem exact_toJson (told : set.Told) : set.toJson.Exact := by
  have cases : (Json.array (set.cases.map FixtureCase.toJson)).Exact := by
    refine .array fun item inside => ?_
    obtain ⟨case, member, rfl⟩ := List.mem_map.mp inside
    exact FixtureCase.exact_toJson (told case member)
  refine .object ?_
  simp only [List.forall_mem_cons]
  exact ⟨.string _, .string _, .string _, cases, nofun⟩

/-- A set that holds no double in decimal digits is read back from its stored form as it was, with
all cases and arguments in their order. -/
theorem read?_write (set : FixtureSet)
    (told : ∀ case ∈ set.cases, ∀ arg ∈ case.args, ∀ bits, arg ≠ .double bits) :
    read? set.write = some set := by
  have text : Json.read? set.write = some set.toJson := Json.read?_pretty (exact_toJson told)
  rw [read?, text, Option.bind_some, ofJson?_toJson told]

/-- A case whose texts have to be escaped and whose numbers are at their bounds. -/
def extremeCase : FixtureCase where
  name := "quote \" and backslash \\"
  clause := "line\nand nul \x00 \x1f"
  template := "%ju\t%s\x7f%n%n 🦀"
  capacity := 18446744073709551615
  args := [.uint 18446744073709551615, .text "null_str", .nullText, .count "", .count "\"",
    .int (-9223372036854775808), .doubleBits 0x7ff8000000000000, .pointer 0]
  expectedOutput := "\x00é\x80"
  expectedReturn := -2147483648
  expectedCounts := Labelled.ofList [("é", 2147483647), ("", -1), ("\"", 0)]
  mode := ""

theorem extreme_set_read_back :
    let bare : FixtureCase := ⟨"", "", "", 0, [], "", 0, {}, "both"⟩
    let set : FixtureSet := ⟨"1", "", "\\u0000", [extremeCase, bare]⟩
    (∀ case ∈ set.cases, ∀ arg ∈ case.args, ∀ bits, arg ≠ .double bits) ∧
      read? set.write = some set := by
  intro bare set
  have told : ∀ case ∈ set.cases, ∀ arg ∈ case.args, ∀ bits, arg ≠ .double bits := by
    simp [set, bare, extremeCase]
  exact ⟨told, read?_write set told⟩

end FixtureSet

end BoundedPrintf
