import BoundedPrintf.Bytes

/-! UTF-8 of texts. Reading cuts bytes into scalar values and ill-formed parts, each of which is as
long as the start of some well-formed sequence that it agrees with. -/
namespace BoundedPrintf.Text

/-- The bytes of a text. -/
def utf8 (text : String) : Bytes := text.toUTF8.toList

/-- The ranges of the bytes that have to follow a first byte, or nothing for a byte that starts no
sequence. -/
def continuation? (first : UInt8) : Option (List (UInt8 × UInt8)) :=
  if first < 0x80 then some []
  else if first < 0xC2 then none
  else if first < 0xE0 then some [any]
  else if first = 0xE0 then some [(0xA0, 0xBF), any]
  else if first = 0xED then some [(0x80, 0x9F), any]
  else if first < 0xF0 then some [any, any]
  else if first = 0xF0 then some [(0x90, 0xBF), any, any]
  else if first < 0xF4 then some [any, any, any]
  else if first = 0xF4 then some [(0x80, 0x8F), any, any]
  else none
where
  any : UInt8 × UInt8 := (0x80, 0xBF)

/-- The bytes at the start of a text that lie in the given ranges, one after the other. -/
def following : List (UInt8 × UInt8) → Bytes → Bytes
  | (low, high) :: ranges, byte :: rest => if low ≤ byte && byte ≤ high then byte :: following ranges rest else []
  | _, _ => []

/-- The scalar value of a well-formed sequence. -/
def scalar (first : UInt8) (rest : Bytes) : Char :=
  let lead := first.toNat % (if rest.isEmpty then 128 else 2 ^ (6 - rest.length))
  Char.ofNat (rest.foldl (fun value byte => value * 64 + byte.toNat % 64) lead)

/-- The scalar value at the start of the bytes, if the sequence there is well formed, and the number
of bytes after the first that belong to it. -/
def decodeFirst (first : UInt8) (rest : Bytes) : Option Char × Nat :=
  match continuation? first with
  | none => (none, 0)
  | some ranges =>
      let tail := following ranges rest
      (if tail.length = ranges.length then some (scalar first tail) else none, tail.length)

/-- The scalar values of the bytes in order, nothing for each ill-formed part. -/
def decode : Bytes → List (Option Char)
  | [] => []
  | first :: rest =>
      let (value, used) := decodeFirst first rest
      value :: decode (rest.drop used)
termination_by bytes => bytes.length
decreasing_by
  simp only [List.length_drop, List.length_cons]
  omega

/-- The text of the bytes, with U+FFFD for each ill-formed part. -/
def decodeLossy (bytes : Bytes) : String := String.ofList ((decode bytes).map (·.getD '\ufffd'))

/-- The text of the bytes if all of them are well formed. -/
def decode? (bytes : Bytes) : Option String := ((decode bytes).mapM id).map String.ofList

end BoundedPrintf.Text
