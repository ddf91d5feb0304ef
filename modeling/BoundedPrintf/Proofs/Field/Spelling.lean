import Mathlib
import BoundedPrintf.Proofs.Field.Width
import BoundedPrintf.Proofs.Numeral.Spelling

/-! Integer fields spelled out. Without a width nothing is filled up, so a field is a sign or the
prefix of a base, the zeros that the precision asks for, and the numeral of the core library. -/
namespace BoundedPrintf

namespace Field

/-- The least number of digits. -/
def leastDigits (spec : Spec) : Nat := spec.precision.value?.getD 0

/-- Zeros in front of a numeral with fewer digits than are asked for. -/
def extended (least : Nat) (numeral : Bytes) : Bytes :=
  List.replicate (least - numeral.length) (octet '0') ++ numeral

/-- The sign in front of a number: a minus below zero, and above zero a plus or a space that the
flags ask for. -/
def signBefore (value : Int) (flags : Flags) : Bytes :=
  if value < 0 then ascii "-"
  else if value = 0 then []
  else if flags.alignment = .right then ascii "+"
  else if flags.space then ascii " "
  else []

/-- The prefix that tells the base of a number other than zero in the alternate form. An octal
number has one only where no zero is put in front of its digits anyway. -/
def prefixBefore (conversion : IntegerConversion) (value digits : Nat) (spec : Spec) : Bytes :=
  if spec.flags.alternate = true ∧ value ≠ 0 then
    match conversion with
    | .x => ascii "0x"
    | .X => ascii "0X"
    | .o => if leastDigits spec ≤ digits then ascii "0" else []
    | .d | .i | .u => []
  else []

/-- The field of a signed number without a width. -/
def signedText (value : Int) (spec : Spec) : Bytes :=
  signBefore value spec.flags ++ extended (leastDigits spec) (Numeral.spelled 10 false value.natAbs)

/-- The field of an unsigned number without a width. -/
def unsignedText (conversion : IntegerConversion) (value : Nat) (spec : Spec) : Bytes :=
  let numeral := Numeral.spelled conversion.base conversion.upper value
  prefixBefore conversion value numeral.length spec ++ extended (leastDigits spec) numeral

section Text

variable {spec : Spec} {conversion : IntegerConversion}

theorem Layout.chunks_of_no_width (layout : Layout) (noWidth : spec.minimumWidth = 0) :
    layout.chunks spec = layout.chunks spec.withoutWidth := by
  have none : spec.withoutWidth.minimumWidth = 0 := rfl
  rw [chunks, chunks, noWidth, none]
  rfl

theorem sign_eq_signBefore (value : Int) (flags : Flags) :
    sign (value < 0) (0 < value) flags = signBefore value flags := by
  rw [sign, signBefore]
  rcases lt_trichotomy value 0 with negative | zero | positive
  · simp [negative]
    rfl
  · simp [zero]
  · have notBelow : ¬ value < 0 := by omega
    simp only [notBelow, positive, positive.ne', Flags.forcesSign, decide_true, decide_false,
      Bool.true_and, Bool.false_eq_true, decide_eq_true_eq, if_false]
    rfl

theorem flatten_signed {value : Int} (small : value.natAbs < 2 ^ 64)
    (noWidth : spec.minimumWidth = 0) :
    Chunk.flatten (Field.signed value spec) = signedText value spec := by
  rw [Field.signed, Layout.chunks_of_no_width _ noWidth, Layout.flatten_withoutWidth]
  simp only [sign_eq_signBefore, Numeral.decimal_eq_spelled small, Operand.flatten_text,
    List.nil_append]
  rfl

theorem base_eq (same : spec.conversion = conversion.byte) :
    base spec.conversion = (conversion.base, conversion.upper) := by
  rw [same]
  cases conversion <;> rfl

/-- No zeros are put in front exactly where there are digits enough. -/
theorem baseMark_eq_prefixBefore (same : spec.conversion = conversion.byte)
    (value digits : Nat) :
    baseMark value (zerosBefore spec digits) spec = prefixBefore conversion value digits spec := by
  rw [baseMark, prefixBefore.eq_def, same]
  by_cases given : spec.flags.alternate = true ∧ value ≠ 0
  · rw [if_pos given, if_pos (by simpa using given)]
    cases conversion with
    | o =>
        have enough : zerosBefore spec digits = 0 ↔ leastDigits spec ≤ digits := Nat.sub_eq_zero_iff_le
        by_cases wide : leastDigits spec ≤ digits
        · exact (if_pos (enough.mpr wide)).trans (if_pos wide).symm
        · exact (if_neg (mt enough.mp wide)).trans (if_neg wide).symm
    | d | i | u | x | X => rfl
  · rw [if_neg given, if_neg (by simpa using given)]

theorem flatten_unsigned {value : Nat} (small : value < 2 ^ 64)
    (same : spec.conversion = conversion.byte) (noWidth : spec.minimumWidth = 0) :
    Chunk.flatten (Field.unsigned value spec) = unsignedText conversion value spec := by
  have bounds : 2 ≤ conversion.base ∧ conversion.base ≤ 16 := by cases conversion <;> decide
  have spelled := Numeral.digits_eq_spelled bounds.1 bounds.2 conversion.upper small
  rw [Field.unsigned, base_eq same]
  simp only [spelled]
  rw [Layout.chunks_of_no_width _ noWidth, Layout.flatten_withoutWidth]
  simp only [baseMark_eq_prefixBefore same, Operand.flatten_text, List.nil_append]
  rfl

theorem spelled_zero (base : Nat) (upper : Bool) : Numeral.spelled base upper 0 = [octet '0'] := by
  rw [Numeral.spelled, Nat.toDigits_zero]
  cases upper <;> rfl

/-- An octal number in the alternate form begins with a zero: its only digit, its prefix or a zero
that the precision asks for. -/
theorem head?_octal (alternate : spec.flags.alternate = true) (value : Nat) :
    (unsignedText .o value spec).head? = some (octet '0') := by
  by_cases zero : value = 0
  · have numeral : Numeral.spelled IntegerConversion.o.base IntegerConversion.o.upper value =
        [octet '0'] := by
      rw [zero]
      exact spelled_zero _ _
    have none : prefixBefore .o value 1 spec = [] := if_neg (by simp [zero])
    rw [unsignedText, numeral, List.length_singleton, none, List.nil_append, extended,
      ← List.replicate_succ']
    rfl
  · rw [unsignedText, prefixBefore, if_pos ⟨alternate, zero⟩]
    split
    · rfl
    · next few =>
        obtain ⟨zeros, more⟩ := Nat.exists_eq_add_of_lt (Nat.lt_of_not_le few)
        rw [List.nil_append, extended, more, Nat.add_assoc, Nat.add_sub_cancel_left]
        rfl

end Text

end Field

namespace Operand

section Making

variable [Build]

/-- A value makes a field, and a sink with room takes it as a whole. -/
structure Makes (operand : Operand) (spec : Spec) (text : Bytes) : Prop where
  field : operand.field spec = some text
  taken : ∀ sink : Sink, text.length ≤ sink.room →
    ∃ after, (operand.producer spec).run sink = some (after, true) ∧
      after.output = sink.output ++ text

theorem makes_of_field {operand : Operand} {spec : Spec} {text : Bytes}
    (given : operand.field spec = some text) : operand.Makes spec text :=
  ⟨given, taken_field given⟩

/-- Integer fields without a width are sign or prefix, zeros and numeral. -/
theorem integers_spelled_out (spec : Spec) (noWidth : spec.minimumWidth = 0) :
    (∀ value : Int64, (signed value).Makes spec (Field.signedText value.toInt spec)) ∧
      ∀ (conversion : IntegerConversion) (value : UInt64), conversion.isSigned = false →
        spec.conversion = conversion.byte →
        (unsigned value).Makes spec (Field.unsignedText conversion value.toNat spec) ∧
          (conversion = .o → spec.flags.alternate = true →
            (Field.unsignedText conversion value.toNat spec).head? = some (octet '0')) := by
  constructor
  · intro value
    have least := value.le_toInt
    have most := value.toInt_lt
    exact makes_of_field (congrArg some (Field.flatten_signed (by omega) noWidth))
  · intro conversion value _ same
    refine ⟨makes_of_field (congrArg some (Field.flatten_unsigned value.toNat_lt same noWidth)), ?_⟩
    rintro rfl alternate
    exact Field.head?_octal alternate value.toNat

end Making

/-- The prefix of an octal number gives way to a zero that the precision asks for. -/
theorem octal_zeros_spelled_out :
    let _ : Build := .checked
    let spec : Spec :=
      { flags := { alternate := true }, precision := .fixed 2, conversion := octet 'o' }
    spec.minimumWidth = 0 ∧ IntegerConversion.o.isSigned = false ∧
      spec.conversion = IntegerConversion.o.byte ∧
      (signed Int64.minValue).Makes spec (ascii "-9223372036854775808") ∧
      (unsigned 8).Makes spec (ascii "010") ∧ (unsigned 7).Makes spec (ascii "07") := by
  intro _ spec
  have noWidth : spec.minimumWidth = 0 := rfl
  have unsigned : IntegerConversion.o.isSigned = false := rfl
  have same : spec.conversion = IntegerConversion.o.byte := rfl
  obtain ⟨signed, octal⟩ := integers_spelled_out spec noWidth
  refine ⟨noWidth, unsigned, same, ?_, ?_, ?_⟩
  · exact signed Int64.minValue
  · exact (octal .o 8 unsigned same).1
  · exact (octal .o 7 unsigned same).1

end Operand

end BoundedPrintf
