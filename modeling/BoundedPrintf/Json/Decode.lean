import BoundedPrintf.Json.Basic

/-! Typed readings of JSON values. A record is an object, in which each known name occurs at most
once and others are ignored, or an array of its fields in order. -/
namespace BoundedPrintf.Json

def text? : Json → Option String
  | .string text => some text
  | _ => none

def bool? : Json → Option Bool
  | .bool value => some value
  | _ => none

def int64? : Json → Option Int64
  | .integer value => if -2 ^ 63 ≤ value ∧ value < 2 ^ 63 then some (Int64.ofInt value) else none
  | _ => none

def int32? : Json → Option Int32
  | .integer value => if -2 ^ 31 ≤ value ∧ value < 2 ^ 31 then some (Int32.ofInt value) else none
  | _ => none

def uint64? : Json → Option UInt64
  | .integer value => if 0 ≤ value ∧ value < 2 ^ 64 then some (UInt64.ofNat value.toNat) else none
  | _ => none

/-- The encoding of a number. An integer is taken as the double nearest to it. -/
def double? : Json → Option UInt64
  | .integer value => some (Binary64.ofRatio (value < 0) value.natAbs 1).toBits
  | .float value => some value.toBits
  | _ => none

def items? : Json → Option (List Json)
  | .array items => some items
  | _ => none

def list? {α : Type} (read? : Json → Option α) (json : Json) : Option (List α) := do (← json.items?).mapM read?

/-- Texts under labels, each read on its own; of a label that occurs again the last value counts. -/
def labelled? {α : Type} (read? : Json → Option α) : Json → Option (Labelled α)
  | .object members => do
      let entries ← members.mapM fun member => (read? member.2).map (member.1, ·)
      some (Labelled.ofList entries)
  | _ => none

/-- The fields of a record that were given. In an array of fields the last ones may be missing. -/
structure Record where
  fields : List (String × Json)
  positional : Bool

/-- The fields of a record with these names. -/
def record? (names : List String) : Json → Option Record
  | .object members =>
      let known := members.filter fun member => names.contains member.1
      if (known.map (·.1)).Nodup then some ⟨known, false⟩ else none
  | .array items => if items.length ≤ names.length then some ⟨names.zip items, true⟩ else none
  | _ => none

namespace Record

variable {α : Type}

def get? (record : Record) (name : String) : Option Json := (record.fields.find? (·.1 = name)).map (·.2)

def required? (record : Record) (name : String) (read? : Json → Option α) : Option α :=
  (record.get? name).bind read?

/-- A field that has a value when it is missing. A field that is given has to be of its type, even
so. -/
def withDefault? (record : Record) (name : String) (value : α) (read? : Json → Option α) : Option α :=
  match record.get? name with
  | none => some value
  | some json => read? json

/-- A field that may be missing from an object, or be `null`. -/
def optional? (record : Record) (name : String) (read? : Json → Option α) : Option (Option α) :=
  match record.get? name with
  | none => if record.positional then none else some none
  | some .null => some none
  | some json => (read? json).map some

end Record

/-- The name of an alternative without a value, alone or as the only member of an object. -/
def name? : Json → Option String
  | .string name => some name
  | .object [(name, .null)] => some name
  | _ => none

end BoundedPrintf.Json
