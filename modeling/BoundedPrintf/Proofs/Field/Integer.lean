import Mathlib
import BoundedPrintf.Field
import BoundedPrintf.Proofs.Numeral.Positional

/-! Reading integer fields back. Padding, sign, mark and zeros can be told from the digits by a reader
who knows the conversion and whether it has the alternate form, so the field gives its number away. -/
namespace BoundedPrintf

/-- The conversions of integers. -/
inductive IntegerConversion
  | d | i | u | o | x | X
  deriving DecidableEq, Repr

namespace IntegerConversion

def byte : IntegerConversion → UInt8
  | d => octet 'd'
  | i => octet 'i'
  | u => octet 'u'
  | o => octet 'o'
  | x => octet 'x'
  | X => octet 'X'

def isSigned : IntegerConversion → Bool
  | d | i => true
  | u | o | x | X => false

def base : IntegerConversion → Nat
  | d | i | u => 10
  | o => 8
  | x | X => 16

def upper : IntegerConversion → Bool
  | X => true
  | d | i | u | o | x => false

/-- What may stand before the digits in the alternate form. The zero of an octal number is one of its
digits. -/
def mark : IntegerConversion → Bytes
  | x => ascii "0x"
  | X => ascii "0X"
  | d | i | u | o => []

end IntegerConversion

namespace Field

def isSpace (byte : UInt8) : Bool := byte = octet ' '

/-- A field without the spaces around it. -/
def trimmed (field : Bytes) : Bytes := (field.dropWhile isSpace).rdropWhile isSpace

/-- The number behind an optional sign. -/
def signedValue? (value? : Bytes → Option Nat) : Bytes → Option Int
  | [] => none
  | first :: rest =>
      if first = octet '-' then (value? rest).map fun value => -(value : Int)
      else (value? (if first = octet '+' then rest else first :: rest)).map Int.ofNat

/-- The number that a field stands for under a conversion: spaces around it do not matter, a sign is
optional, and so is the mark of the base in the alternate form. -/
def value? (conversion : IntegerConversion) (alternate : Bool) (field : Bytes) : Option Int :=
  let mark := if alternate then conversion.mark else []
  signedValue? (fun text =>
    Numeral.value? conversion.base conversion.upper ((text.dropPrefix? mark).getD text))
    (trimmed field)

section Trimming

variable {text : Bytes}

theorem dropWhile_spaces (visible : ∀ b, text.head? = some b → isSpace b = false) (count : Nat) :
    (List.replicate count (octet ' ') ++ text).dropWhile isSpace = text := by
  have spaces : ∀ b ∈ List.replicate count (octet ' '), isSpace b = true := by
    intro b member
    rw [List.eq_of_mem_replicate member]
    rfl
  rw [List.dropWhile_append_of_pos spaces]
  cases text with
  | nil => rfl
  | cons first rest => rw [List.dropWhile_cons_of_neg (by simp [visible first rfl])]

theorem trimmed_padded (some : text ≠ []) (visible : ∀ b ∈ text, isSpace b = false)
    (left right : Nat) :
    trimmed (List.replicate left (octet ' ') ++ text ++ List.replicate right (octet ' ')) = text := by
  have front : ∀ b, (text ++ List.replicate right (octet ' ')).head? = Option.some b →
      isSpace b = false := by
    intro b head
    rw [List.head?_append_of_ne_nil _ some] at head
    exact visible b (List.mem_of_mem_head? head)
  have back : ∀ b, text.reverse.head? = Option.some b → isSpace b = false := by
    intro b head
    exact visible b (List.mem_reverse.mp (List.mem_of_mem_head? head))
  rw [trimmed, List.append_assoc, dropWhile_spaces front, List.rdropWhile, List.reverse_append,
    List.reverse_replicate, dropWhile_spaces back, List.reverse_reverse]

end Trimming

section Reading

variable {conversion : IntegerConversion} {number : Nat}

/-- Digits behind zeros, with nothing else. -/
def numeral (conversion : IntegerConversion) (zeros number : Nat) : Bytes :=
  List.replicate zeros (octet '0') ++ Numeral.digits conversion.base number conversion.upper

/-- The bytes that may stand around digits and mark but not among them. -/
def strange : Bytes := [octet ' ', octet '+', octet '-']

theorem base_bounds (conversion : IntegerConversion) :
    2 ≤ conversion.base ∧ conversion.base ≤ 36 := by
  cases conversion <;> decide

theorem digitOf?_strange (conversion : IntegerConversion) :
    ∀ b ∈ strange, Numeral.digitOf? conversion.base conversion.upper b = none := by
  cases conversion <;> decide +kernel

theorem strange_of_mark (conversion : IntegerConversion) : ∀ b ∈ conversion.mark, b ∉ strange := by
  cases conversion <;> decide +kernel

/-- A mark has a letter that is no digit in its base. -/
theorem exists_of_mark (some : conversion.mark ≠ []) :
    ∃ b ∈ conversion.mark, Numeral.digitOf? conversion.base conversion.upper b = none := by
  cases conversion with
  | x => exact ⟨octet 'x', by decide, by decide⟩
  | X => exact ⟨octet 'X', by decide, by decide⟩
  | d | i | u | o => exact absurd rfl some

theorem signedValue?_minus (value? : Bytes → Option Nat) (text : Bytes) :
    signedValue? value? (ascii "-" ++ text) = (value? text).map fun value => -(value : Int) := rfl

theorem signedValue?_plus (value? : Bytes → Option Nat) (text : Bytes) :
    signedValue? value? (ascii "+" ++ text) = (value? text).map Int.ofNat := rfl

theorem signedValue?_unsigned (value? : Bytes → Option Nat) {text : Bytes} (some : text ≠ [])
    (plain : ∀ b ∈ text, b ∉ strange) :
    signedValue? value? text = (value? text).map Int.ofNat := by
  cases text with
  | nil => exact absurd rfl some
  | cons first rest =>
      have head := plain first List.mem_cons_self
      have noMinus : first ≠ octet '-' := by
        rintro rfl
        exact head (by simp [strange])
      have noPlus : first ≠ octet '+' := by
        rintro rfl
        exact head (by simp [strange])
      rw [signedValue?, if_neg noMinus, if_neg noPlus]

section Numerals

variable (small : number < 2 ^ 64) (zeros : Nat)
include small

theorem value?_numeral :
    Numeral.value? conversion.base conversion.upper (numeral conversion zeros number) = some number :=
  have bounds := base_bounds conversion
  Numeral.value?_zeros_digits bounds.1 small conversion.upper zeros bounds.2

theorem numeral_ne_nil : numeral conversion zeros number ≠ [] :=
  Numeral.zeros_digits_ne_nil (base_bounds conversion).1 small conversion.upper zeros

theorem digit_of_numeral : ∀ b ∈ numeral conversion zeros number,
    ∃ d, Numeral.digitOf? conversion.base conversion.upper b = some d :=
  have bounds := base_bounds conversion
  Numeral.digitOf?_of_mem bounds.1 small conversion.upper zeros bounds.2

theorem plain_of_numeral : ∀ b ∈ numeral conversion zeros number, b ∉ strange := by
  intro b member odd
  obtain ⟨d, digit⟩ := digit_of_numeral small zeros b member
  rw [digitOf?_strange conversion b odd] at digit
  cases digit

theorem dropPrefix?_numeral :
    ((numeral conversion zeros number).dropPrefix? conversion.mark).getD
      (numeral conversion zeros number) = numeral conversion zeros number := by
  by_cases none : conversion.mark = []
  · rw [none, List.dropPrefix?_nil, Option.getD_some]
  · rcases dropped : (numeral conversion zeros number).dropPrefix? conversion.mark with _ | rest
    · rfl
    · obtain ⟨front, split, same⟩ := List.dropPrefix?_eq_some_iff.mp dropped
      obtain rfl := eq_of_beq same
      obtain ⟨b, member, letter⟩ := exists_of_mark none
      have inside : b ∈ numeral conversion zeros number := by
        rw [split]
        exact List.mem_append_left rest member
      obtain ⟨d, digit⟩ := digit_of_numeral small zeros b inside
      rw [letter] at digit
      cases digit

end Numerals

/-- What stands around the numeral of an integer field. -/
structure Frame (conversion : IntegerConversion) (alternate : Bool) where
  left : Nat
  sign : Bytes
  mark : Bytes
  right : Nat
  signs : sign = [] ∨ sign = ascii "+" ∨ sign = ascii "-"
  marks : mark = [] ∨ alternate = true ∧ mark = conversion.mark

namespace Frame

variable {alternate : Bool} (frame : Frame conversion alternate)

/-- The field with a text in the frame. -/
def field (text : Bytes) : Bytes :=
  List.replicate frame.left (octet ' ') ++ (frame.sign ++ (frame.mark ++ text)) ++
    List.replicate frame.right (octet ' ')

/-- The number with the sign of the frame. -/
def signed (number : Nat) : Int := if frame.sign = ascii "-" then -(number : Int) else number

theorem signed_natAbs {value : Int} (minus : frame.sign = ascii "-" ↔ value < 0) :
    frame.signed value.natAbs = value := by
  rw [signed]
  split
  case isTrue sign =>
    have negative := minus.mp sign
    omega
  case isFalse sign =>
    have nonneg : ¬ value < 0 := fun negative => sign (minus.mpr negative)
    omega

theorem visible_sign : ∀ b ∈ frame.sign, isSpace b = false := by
  rcases frame.signs with sign | sign | sign <;> rw [sign] <;> decide +kernel

theorem plain_mark : ∀ b ∈ frame.mark, b ∉ strange := by
  rcases frame.marks with mark | ⟨-, mark⟩
  · rw [mark]
    nofun
  · rw [mark]
    exact strange_of_mark conversion

theorem dropPrefix?_mark (small : number < 2 ^ 64) (zeros : Nat) :
    let allowed := if alternate then conversion.mark else []
    let text := frame.mark ++ numeral conversion zeros number
    (text.dropPrefix? allowed).getD text = numeral conversion zeros number := by
  rcases frame.marks with mark | ⟨given, mark⟩
  · rw [mark, List.nil_append]
    cases alternate with
    | false => simp [List.dropPrefix?_nil]
    | true => exact dropPrefix?_numeral small zeros
  · subst given
    simp only [mark, if_true, List.dropPrefix?_append_of_beq _ (BEq.refl conversion.mark),
      Option.getD_some]

theorem value?_field (small : number < 2 ^ 64) (zeros : Nat) :
    value? conversion alternate (frame.field (numeral conversion zeros number)) =
      some (frame.signed number) := by
  have plain : ∀ b ∈ frame.mark ++ numeral conversion zeros number, b ∉ strange := by
    intro b member
    rcases List.mem_append.mp member with mark | digit
    · exact frame.plain_mark b mark
    · exact plain_of_numeral small zeros b digit
  have visible : ∀ b ∈ frame.sign ++ (frame.mark ++ numeral conversion zeros number),
      isSpace b = false := by
    intro b member
    rcases List.mem_append.mp member with sign | rest
    · exact frame.visible_sign b sign
    · have noSpace : b ≠ octet ' ' := by
        rintro rfl
        exact plain _ rest (by simp [strange])
      simpa [isSpace] using noSpace
  have some : frame.mark ++ numeral conversion zeros number ≠ [] := by
    simp [numeral_ne_nil small zeros]
  have trim := trimmed_padded (by simp [some]) visible frame.left frame.right
  have read := frame.dropPrefix?_mark small zeros
  have digits := @value?_numeral conversion number small zeros
  rw [value?, field, trim, signed]
  rcases frame.signs with sign | sign | sign
  · rw [sign, List.nil_append, signedValue?_unsigned _ some plain, read, digits]
    rfl
  · rw [sign, signedValue?_plus, read, digits]
    rfl
  · rw [sign, signedValue?_minus, read, digits]
    rfl

end Frame

end Reading

theorem Layout.flatten_chunks (layout : Layout) (spec : Spec) :
    let padding := spec.minimumWidth - layout.contentSize
    let left := spec.flags.leftJustified
    let zeros := layout.zeroFill && !left
    Chunk.flatten (layout.chunks spec) =
      List.replicate (if left || zeros then 0 else padding) (octet ' ') ++
        (layout.sign ++ (layout.mark ++
          (List.replicate ((if zeros then padding else 0) + layout.leadingZeros) (octet '0') ++
            Chunk.flatten layout.body))) ++
        List.replicate (if left then padding else 0) (octet ' ') := by
  simp only [Layout.chunks, Chunk.flatten, Chunk.bytes, List.flatMap_append, List.flatMap_cons,
    List.flatMap_nil, List.replicate_add, List.append_assoc, List.append_nil]

theorem Layout.exists_flatten {layout : Layout} (spec : Spec) {digits : Bytes}
    (body : layout.body = [.text digits]) : ∃ left padding right,
    Chunk.flatten (layout.chunks spec) =
      List.replicate left (octet ' ') ++ (layout.sign ++ (layout.mark ++
        (List.replicate (padding + layout.leadingZeros) (octet '0') ++ digits))) ++
        List.replicate right (octet ' ') := by
  have text : Chunk.flatten layout.body = digits := by
    rw [body]
    exact List.append_nil digits
  have flat := layout.flatten_chunks spec
  rw [text] at flat
  exact ⟨_, _, _, flat⟩

section Writing

variable {conversion : IntegerConversion}

theorem sign_cases (negative positive : Bool) (flags : Flags) :
    (negative = true ∧ sign negative positive flags = ascii "-") ∨
      (negative = false ∧ (sign negative positive flags = [] ∨
        sign negative positive flags = ascii "+" ∨ sign negative positive flags = ascii " ")) := by
  cases negative with
  | true => exact .inl ⟨rfl, rfl⟩
  | false =>
      refine .inr ⟨rfl, ?_⟩
      simp only [sign, Bool.false_eq_true, if_false]
      split
      · exact .inr (.inl rfl)
      · split
        · exact .inr (.inr rfl)
        · exact .inl rfl

theorem plus_ne_minus : ascii "+" ≠ ascii "-" := by decide

theorem exists_flatten_signed (value : Int) (spec : Spec) : ∃ left zeros right,
    Chunk.flatten (Field.signed value spec) =
      List.replicate left (octet ' ') ++ (sign (value < 0) (0 < value) spec.flags ++
        (List.replicate zeros (octet '0') ++ Numeral.decimal value.natAbs)) ++
        List.replicate right (octet ' ') := by
  let digits := Numeral.decimal value.natAbs
  let layout : Layout :=
    { sign := sign (value < 0) (0 < value) spec.flags
      leadingZeros := zerosBefore spec digits.length
      body := [.text digits]
      bodySize := digits.length
      zeroFill := fillsInteger spec }
  obtain ⟨left, padding, right, flat⟩ := @Layout.exists_flatten layout spec digits rfl
  exact ⟨left, padding + layout.leadingZeros, right, flat⟩

/-- A sign that is a space is one more space in front of the number. -/
theorem exists_frame_signed (signed : conversion.isSigned = true) (value : Int) (spec : Spec) :
    ∃ (frame : Frame conversion spec.flags.alternate) (zeros : Nat),
      Chunk.flatten (Field.signed value spec) = frame.field (numeral conversion zeros value.natAbs) ∧
        (frame.sign = ascii "-" ↔ value < 0) := by
  obtain ⟨left, zeros, right, flat⟩ := exists_flatten_signed value spec
  have text : List.replicate zeros (octet '0') ++ Numeral.decimal value.natAbs =
      numeral conversion zeros value.natAbs := by
    cases conversion with
    | d | i => rfl
    | u | o | x | X => cases signed
  rw [text] at flat
  rcases sign_cases (value < 0) (0 < value) spec.flags with
    ⟨negative, minus⟩ | ⟨positive, none | plus | space⟩
  · refine ⟨⟨left, ascii "-", [], right, .inr (.inr rfl), .inl rfl⟩, zeros, ?_, ?_⟩
    · rw [flat, minus]
      rfl
    · exact iff_of_true rfl (of_decide_eq_true negative)
  · refine ⟨⟨left, [], [], right, .inl rfl, .inl rfl⟩, zeros, ?_, ?_⟩
    · rw [flat, none]
      rfl
    · exact iff_of_false nofun (of_decide_eq_false positive)
  · refine ⟨⟨left, ascii "+", [], right, .inr (.inl rfl), .inl rfl⟩, zeros, ?_, ?_⟩
    · rw [flat, plus]
      rfl
    · exact iff_of_false plus_ne_minus (of_decide_eq_false positive)
  · refine ⟨⟨left + 1, [], [], right, .inl rfl, .inl rfl⟩, zeros, ?_, ?_⟩
    · rw [flat, space, Frame.field, List.replicate_succ', List.append_assoc _ [octet ' ']]
      rfl
    · exact iff_of_false nofun (of_decide_eq_false positive)

/-- The mark of an octal number is one more zero. -/
theorem baseMark_cases {spec : Spec} (same : spec.conversion = conversion.byte)
    (value leadingZeros : Nat) :
    baseMark value leadingZeros spec = [] ∨ baseMark value leadingZeros spec = [octet '0'] ∨
      spec.flags.alternate = true ∧ baseMark value leadingZeros spec = conversion.mark := by
  rw [baseMark, same]
  split
  case isFalse => exact .inl rfl
  case isTrue given =>
    have alternate : spec.flags.alternate = true := (Bool.and_eq_true _ _ ▸ given).1
    cases conversion with
    | d | i | u => exact .inl rfl
    | x | X => exact .inr (.inr ⟨alternate, rfl⟩)
    | o =>
        by_cases none : leadingZeros = 0
        · exact .inr (.inl (if_pos none))
        · exact .inl (if_neg none)

theorem exists_flatten_unsigned (value : Nat) {spec : Spec}
    (same : spec.conversion = conversion.byte) : ∃ leadingZeros left zeros right,
    Chunk.flatten (Field.unsigned value spec) =
      List.replicate left (octet ' ') ++ (baseMark value leadingZeros spec ++
        numeral conversion zeros value) ++ List.replicate right (octet ' ') := by
  have base : base spec.conversion = (conversion.base, conversion.upper) := by
    rw [same]
    cases conversion <;> rfl
  let digits := Numeral.digits conversion.base value conversion.upper
  let leadingZeros := zerosBefore spec digits.length
  let layout : Layout :=
    { mark := baseMark value leadingZeros spec
      leadingZeros
      body := [.text digits]
      bodySize := digits.length
      zeroFill := fillsInteger spec }
  obtain ⟨left, padding, right, flat⟩ := @Layout.exists_flatten layout spec digits rfl
  rw [Field.unsigned, base]
  exact ⟨leadingZeros, left, padding + leadingZeros, right, flat⟩

theorem exists_frame_unsigned (value : Nat) {spec : Spec}
    (same : spec.conversion = conversion.byte) :
    ∃ (frame : Frame conversion spec.flags.alternate) (zeros : Nat),
      Chunk.flatten (Field.unsigned value spec) = frame.field (numeral conversion zeros value) ∧
        frame.sign = [] := by
  obtain ⟨leadingZeros, left, zeros, right, flat⟩ := exists_flatten_unsigned value same
  rcases baseMark_cases same value leadingZeros with none | zero | ⟨given, mark⟩
  · refine ⟨⟨left, [], [], right, .inl rfl, .inl rfl⟩, zeros, ?_, rfl⟩
    rw [flat, none]
    rfl
  · refine ⟨⟨left, [], [], right, .inl rfl, .inl rfl⟩, zeros + 1, ?_, rfl⟩
    rw [flat, zero]
    rfl
  · refine ⟨⟨left, [], conversion.mark, right, .inl rfl, .inr ⟨given, rfl⟩⟩, zeros, ?_, rfl⟩
    rw [flat, mark]
    rfl

/-- A signed field stands for its number, whatever the flags, the width and the precision are. -/
theorem value?_signed (signed : conversion.isSigned = true) {value : Int}
    (small : value.natAbs < 2 ^ 64) (spec : Spec) :
    value? conversion spec.flags.alternate (Chunk.flatten (Field.signed value spec)) = some value := by
  obtain ⟨frame, zeros, flat, minus⟩ := exists_frame_signed signed value spec
  rw [flat, frame.value?_field small, frame.signed_natAbs minus]

theorem value?_unsigned {value : Nat} (small : value < 2 ^ 64) {spec : Spec}
    (same : spec.conversion = conversion.byte) :
    value? conversion spec.flags.alternate (Chunk.flatten (Field.unsigned value spec)) =
      some (value : Int) := by
  obtain ⟨frame, zeros, flat, none⟩ := exists_frame_unsigned value same
  rw [flat, frame.value?_field small, Frame.signed, none, if_neg nofun]

end Writing

end Field

end BoundedPrintf
