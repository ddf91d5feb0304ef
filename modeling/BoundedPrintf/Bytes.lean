/-! Byte strings are lists of octets, so that prefixes, runs and concatenations are those of `List`.
Characters of a byte string are written as ASCII character literals. -/
namespace BoundedPrintf

-- Powers are those of the core library, whatever else gives numbers a power where they are used.
attribute [instance(2000), default_instance 20000] instPowNat

abbrev Bytes := List UInt8

/-- The octet of a character below U+0100. -/
def octet (c : Char) : UInt8 := c.toUInt8

theorem octet_ofUInt8 (byte : UInt8) : octet (Char.ofUInt8 byte) = byte :=
  UInt8.toUInt8_toUInt32 byte

/-- The octets of an ASCII text. -/
def ascii (text : String) : Bytes := text.toList.map octet

/-- The largest size, that of a machine word of 64 bits. -/
def maxSize : Nat := 2 ^ 64 - 1

def isDigit (byte : UInt8) : Bool := octet '0' ≤ byte && byte ≤ octet '9'

/-- The value of a decimal digit. -/
def digitValue (byte : UInt8) : Nat := (byte - octet '0').toNat

/-- The bytes before the first NUL. -/
def beforeNul (bytes : Bytes) : Bytes := bytes.takeWhile (· != 0)

theorem beforeNul_of_no_nul {bytes : Bytes} (clean : ∀ b ∈ bytes, b ≠ 0) : beforeNul bytes = bytes := by
  induction bytes with
  | nil => rfl
  | cons b rest ih =>
      have head := clean b List.mem_cons_self
      have tail := ih fun x member => clean x (List.mem_cons_of_mem b member)
      simp only [beforeNul] at tail ⊢
      simp [head, tail]

theorem beforeNul_no_nul {bytes : Bytes} : ∀ b ∈ beforeNul bytes, b ≠ 0 := by
  intro b member
  have kept := List.all_takeWhile (p := (· != 0)) (l := bytes)
  simpa using List.all_eq_true.mp kept b member

end BoundedPrintf
