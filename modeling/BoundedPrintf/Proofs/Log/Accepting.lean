import Mathlib
import BoundedPrintf.Proofs.Json.Whole
import BoundedPrintf.Proofs.Log.TraceIds

/-! What is known of an accepted line. The checks look for members of an object, while the entry is read
from their values, and a `null` is a member without a value: it is all that stands between the checks
and the schema. -/
namespace BoundedPrintf

namespace Json

variable {members : List (String × Json)} {names : List String} {name : String} {record : Record}

/-- A record has the fields of its object. -/
theorem get?_of_record? (read : (object members).record? names = some record) (listed : name ∈ names) :
    record.get? name = (object members).get? name ∧ record.positional = false := by
  rw [record?] at read
  obtain ⟨once, same⟩ := Option.ite_none_right_eq_some.mp read
  rw [← Option.some.inj same]
  refine ⟨?_, rfl⟩
  rw [Record.get?, get?, ← Labelled.findRev?_eq_find? once, List.findRev?_eq_find?_reverse,
    List.findRev?_eq_find?_reverse, ← List.filter_reverse, List.find?_filter]
  congr 2
  funext member
  by_cases same : member.1 = name <;> simp [same, listed]

/-- An optional field that is read has a value, or none where nothing but `null` is given. -/
theorem Record.optional?_eq_some {α : Type} {read? : Json → Option α} {given : Option α}
    (read : record.optional? name read? = some given) :
    (given = none ∧ ∀ json ∈ record.get? name, json = .null) ∨
      ∃ json value, record.get? name = some json ∧ read? json = some value ∧ given = some value := by
  rw [optional?] at read
  split at read
  · next missing =>
      split at read
      · cases read
      · exact .inl ⟨(Option.some.inj read).symm, by simp [missing]⟩
  · next null => exact .inl ⟨(Option.some.inj read).symm, by simp [null]⟩
  · next json proper found =>
      obtain ⟨value, back, rfl⟩ := Option.map_eq_some_iff.mp read
      exact .inr ⟨json, value, found, back, rfl⟩

theorem text?_eq_some {json : Json} {text : String} : json.text? = some text ↔ json = .string text := by
  cases json <;> simp [text?]

end Json

namespace Log

/-- The object of a line gives a `null` for a field. -/
def GivesNull (line field : String) : Prop :=
  ∃ object, (Json.read? line).bind Json.whole? = some object ∧ object.get? field = some .null

variable {line : String} {entry : Entry} {members : List (String × Json)}

theorem exists_of_accepted (accepted : readLine line = .ok entry) : ∃ members,
    (Json.read? line).bind Json.whole? = some (.object members) ∧
      complaints (.object members) = [] ∧ Entry.ofJson? (.object members) = some entry := by
  rw [readLine] at accepted
  split at accepted
  · cases accepted
  · next members read =>
      split at accepted
      · next fine =>
          split at accepted
          · next found same =>
              cases accepted
              exact ⟨members, read, fine, same⟩
          · cases accepted
      · cases accepted
  · cases accepted

/-- What the object of a line says where an entry is read from it. -/
structure Tells (object : Json) (entry : Entry) : Prop where
  traceId : object.get? "trace_id" = some (.string entry.traceId)
  mode : ∀ mode ∈ entry.mode, object.get? "mode" = some (.string mode)
  outcome : entry.outcome.isSome → has object "outcome"
  case : has object "case" → entry.case.isSome ∨ object.get? "case" = some .null
  details : has object "details" → entry.details.isSome ∨ object.get? "details" = some .null

/-- A field that is given and read as nothing is `null`. -/
theorem given_or_null {α : Type} {object : Json} {record : Json.Record} {field : String}
    {read? : Json → Option α} {value : Option α} (same : record.get? field = object.get? field)
    (read : record.optional? field read? = some value) (given : has object field) :
    value.isSome ∨ object.get? field = some .null := by
  rcases Json.Record.optional?_eq_some read with ⟨-, null⟩ | ⟨-, found, -, -, rfl⟩
  · obtain ⟨json, inside⟩ := Option.isSome_iff_exists.mp given
    rw [same, inside] at null
    rw [inside, null json rfl]
    exact .inr rfl
  · exact .inl rfl

theorem tells_of_ofJson? (read : Entry.ofJson? (.object members) = some entry) :
    Tells (.object members) entry := by
  simp only [Entry.ofJson?, Option.bind_eq_bind, Option.bind_eq_some_iff, Option.some.injEq] at read
  obtain ⟨record, fields, timestamp, -, traceId, id, level, -, event, -, mode, modeRead, case, caseRead,
    clause, -, outcome, outcomeRead, duration, -, details, detailsRead, rfl⟩ := read
  have get {name : String} := fun listed => (@Json.get?_of_record? members _ name record fields listed).1
  constructor
  case traceId =>
    obtain ⟨json, found, text⟩ := Option.bind_eq_some_iff.mp id
    rw [← get (by decide), found, Json.text?_eq_some.mp text]
  case mode =>
    intro name inside
    rcases Json.Record.optional?_eq_some modeRead with ⟨rfl, -⟩ | ⟨json, found, here, text, rfl⟩
    · cases inside
    · cases inside
      rw [← get (by decide), here, Json.text?_eq_some.mp text]
  case outcome =>
    intro some
    rcases Json.Record.optional?_eq_some outcomeRead with ⟨rfl, -⟩ | ⟨json, found, here, -, rfl⟩
    · cases some
    · rw [has, ← get (by decide), here]
      rfl
  case case => exact given_or_null (get (by decide)) caseRead
  case details => exact given_or_null (get (by decide)) detailsRead

theorem fine_of_complaints {object : Json} (fine : complaints object = []) :
    (∀ id, object.get? "trace_id" = some (.string id) → separators id.toList = 2) ∧
      (∀ mode, object.get? "mode" = some (.string mode) → mode = "compat" ∨ mode = "strict") ∧
      (has object "outcome" → has object "case" ∨ has object "details") := by
  simp only [complaints, List.append_eq_nil_iff] at fine
  obtain ⟨⟨⟨⟨⟨-, -⟩, mode⟩, -⟩, id⟩, context⟩ := fine
  refine ⟨?_, ?_, ?_⟩
  · intro text found
    simpa [found, Json.text?] using id
  · intro name found
    simpa [checkName, found, Json.text?, Mode.name, or_iff_not_imp_left] using mode
  · intro given
    by_contra neither
    obtain ⟨noCase, noDetails⟩ := not_or.mp neither
    simp [given, noCase, noDetails] at context

/-- An entry that follows the schema, but for its context: where an outcome has neither a case nor
details, the line gives a `null` for one of them. -/
structure Accepted (line : String) (entry : Entry) : Prop where
  traceId : ∃ scope run number, Splits entry.traceId.toList [scope, run, number]
  mode : ∀ mode ∈ entry.mode, mode = "compat" ∨ mode = "strict"
  context : entry.outcome.isSome → entry.case.isSome ∨ entry.details.isSome ∨
    GivesNull line "case" ∨ GivesNull line "details"

/-- An accepted line has a trace id of three parts and a known mode, and its outcome has a context unless
the line gives `null` for it, which passes for a member and reads as nothing. -/
theorem accepted_follows_schema (accepted : readLine line = .ok entry) : Accepted line entry := by
  obtain ⟨members, object, fine, read⟩ := exists_of_accepted accepted
  have tells := tells_of_ofJson? read
  obtain ⟨id, mode, context⟩ := fine_of_complaints fine
  constructor
  case traceId => exact separators_eq_two_iff.mp (id _ tells.traceId)
  case mode =>
    intro name inside
    exact mode name (tells.mode name inside)
  case context =>
    intro outcome
    rcases context (tells.outcome outcome) with given | given
    · rcases tells.case given with named | null
      · exact .inl named
      · exact .inr (.inr (.inl ⟨_, object, null⟩))
    · rcases tells.details given with carried | null
      · exact .inr (.inl carried)
      · exact .inr (.inr (.inr ⟨_, object, null⟩))

theorem exists_of_any {p : Entry → Bool} (shown : (readLine line).toOption.any p = true) :
    ∃ entry, readLine line = .ok entry ∧ p entry = true := by
  cases read : readLine line with
  | error found =>
      rw [read] at shown
      cases shown
  | ok entry =>
      rw [read] at shown
      exact ⟨entry, rfl, shown⟩

/-- A level as an object, a mode that is given twice and a member that is no field. -/
def looseLine : String :=
  "\x7b\"mode\":\"odd\",\"timestamp\":\"\",\"trace_id\":\"a:::b::1\",\"level\":\x7b\"warn\":null\x7d," ++
    "\"event\":\"e\",\"mode\":\"strict\",\"other\":[1.5],\"outcome\":\"fail\",\"details\":0\x7d"

theorem loose_line_follows_schema : ∃ entry, readLine looseLine = .ok entry ∧
    entry.mode = some "strict" ∧ entry.outcome = some .fail ∧ Accepted looseLine entry := by
  obtain ⟨entry, read, shown⟩ := @exists_of_any looseLine
    (fun entry => entry.mode = some "strict" ∧ entry.outcome = some .fail) (by decide +kernel)
  obtain ⟨mode, outcome⟩ := of_decide_eq_true shown
  exact ⟨entry, read, mode, outcome, accepted_follows_schema read⟩

/-- An outcome whose case is a `null`. -/
def nullCase : String :=
  "\x7b\"timestamp\":\"t\",\"trace_id\":\"a::b::1\",\"level\":\"info\",\"event\":\"e\"," ++
    "\"outcome\":\"pass\",\"case\":null\x7d"

theorem outcome_without_context : ∃ entry, readLine nullCase = .ok entry ∧
    entry.outcome = some .pass ∧ entry.case = none ∧ entry.details = none := by
  obtain ⟨entry, read, shown⟩ := @exists_of_any nullCase
    (fun entry => entry.outcome = some .pass ∧ entry.case = none ∧ entry.details.isNone)
    (by decide +kernel)
  obtain ⟨outcome, case, details⟩ := of_decide_eq_true shown
  exact ⟨entry, read, outcome, case, Option.isNone_iff_eq_none.mp details⟩

end Log

end BoundedPrintf
