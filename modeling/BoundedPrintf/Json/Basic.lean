import BoundedPrintf.Binary64.Basic
import BoundedPrintf.Labelled

/-! JSON values as they are written: members keep their order, and a name may occur more than once.
Integers and other numbers are told apart by their spelling. -/
namespace BoundedPrintf

inductive Json
  | null
  | bool (value : Bool)
  /-- An integer of at most 64 bits, from -2^63 to 2^64 - 1. -/
  | integer (value : Int)
  | float (value : Binary64)
  | string (text : String)
  | array (items : List Json)
  | object (members : List (String × Json))
  /-- Well-formed JSON that has no value: a number too large for any type, or a text with half of a
  surrogate pair. It does no harm where nobody asks for its value. -/
  | invalid

namespace Json

/-- How many arrays and objects are nested in each other. -/
def depth : Json → Nat
  | .array items => (itemDepths items).foldl max 0 + 1
  | .object members => (memberDepths members).foldl max 0 + 1
  | _ => 0
where
  itemDepths : List Json → List Nat
    | [] => []
    | item :: rest => item.depth :: itemDepths rest
  memberDepths : List (String × Json) → List Nat
    | [] => []
    | (_, value) :: rest => value.depth :: memberDepths rest

/-- The first level of nesting that a reader of whole values refuses. -/
def nestingLimit : Nat := 128

/-- The value as a tree without duplicates, members sorted by name. There is none if some part has
no value. -/
def sorted? : Json → Option Json
  | .null => some .null
  | .bool value => some (.bool value)
  | .integer value => some (.integer value)
  | .float value => some (.float value)
  | .string text => some (.string text)
  | .array items => (sortedItems? items).map .array
  | .object members => (sortedMembers? members).map fun members => .object (Labelled.ofList members).entries
  | .invalid => none
where
  sortedItems? : List Json → Option (List Json)
    | [] => some []
    | item :: rest => do
        let item ← item.sorted?
        let rest ← sortedItems? rest
        some (item :: rest)
  sortedMembers? : List (String × Json) → Option (List (String × Json))
    | [] => some []
    | (name, value) :: rest => do
        let value ← value.sorted?
        let rest ← sortedMembers? rest
        some ((name, value) :: rest)

/-- The value as a whole: sorted, complete and not nested too deeply. -/
def whole? (json : Json) : Option Json := if json.depth < nestingLimit then json.sorted? else none

/-- The value of the last member of a name. -/
def get? (json : Json) (name : String) : Option Json :=
  match json with
  | .object members => (members.findRev? (·.1 = name)).map (·.2)
  | _ => none

end Json

end BoundedPrintf
