import BoundedPrintf.Proofs.Field.Integer
import BoundedPrintf.Proofs.FloatText.Parts
import BoundedPrintf.Proofs.Sink.Producer

/-! Fields in a width. What the width adds depends only on the field that the same directive makes
without one: spaces on either side of it, or zeros behind its sign and the prefix of its base. -/
namespace BoundedPrintf

/-- The directive without its width. -/
def Spec.withoutWidth (spec : Spec) : Spec := { spec with width := .absent }

/-- A value with its converter. -/
inductive Operand
  | signed (value : Int64)
  | unsigned (value : UInt64)
  | float (value : Binary64)
  | text (bytes : Option Bytes)
  | char (byte : UInt8)
  | pointer (address : UInt64)
  deriving DecidableEq

namespace Field

/-- The sign that a field without padding begins with. -/
def signOf (field : Bytes) : Bytes := (field.take 1).filter fun byte => byte ∈ strange

/-- The prefixes of the bases in the alternate form. -/
def markOfConversion (conversion : UInt8) : Bytes :=
  match Char.ofUInt8 conversion with
  | 'o' => ascii "0"
  | 'x' => ascii "0x"
  | 'X' => ascii "0X"
  | _ => []

/-- The prefix of its base that an unsigned field without padding begins with. Zero has none. -/
def markOf (spec : Spec) (field : Bytes) : Bytes :=
  if spec.flags.alternate ∧ field ≠ ascii "0" then markOfConversion spec.conversion else []

/-- A field without padding in the width of a directive. -/
def widened (spec : Spec) (zeros : Bool) (lead field : Bytes) : Bytes :=
  let padding := spec.minimumWidth - field.length
  if spec.flags.leftJustified then field ++ List.replicate padding (octet ' ')
  else if zeros then lead ++ (List.replicate padding (octet '0') ++ field.drop lead.length)
  else List.replicate padding (octet ' ') ++ field

section Widening

variable {spec : Spec} {zeros : Bool} {lead field : Bytes}

theorem length_widened (front : zeros = true → lead <+: field) :
    (widened spec zeros lead field).length = max spec.minimumWidth field.length := by
  rw [widened]
  split
  · simp only [List.length_append, List.length_replicate]
    omega
  · split
    · next filled =>
        have shorter := (front filled).length_le
        simp only [List.length_append, List.length_replicate, List.length_drop]
        omega
    · simp only [List.length_append, List.length_replicate]
      omega

theorem widened_of_wide (front : zeros = true → lead <+: field)
    (wide : spec.minimumWidth ≤ field.length) : widened spec zeros lead field = field := by
  rw [widened, Nat.sub_eq_zero_of_le wide]
  split
  · exact List.append_nil field
  · split
    · next filled => exact List.prefix_iff_eq_append.mp (front filled)
    · rfl

end Widening

namespace Layout

variable {layout : Layout} {spec : Spec}

theorem flatten_withoutWidth (layout : Layout) (spec : Spec) :
    Chunk.flatten (layout.chunks spec.withoutWidth) = layout.sign ++ (layout.mark ++
      (List.replicate layout.leadingZeros (octet '0') ++ Chunk.flatten layout.body)) := by
  have none : spec.withoutWidth.minimumWidth - layout.contentSize = 0 := Nat.zero_sub _
  rw [flatten_chunks, none]
  simp

/-- A layout whose body has the announced size is widened. -/
theorem flatten_eq_widened (announced : layout.bodySize = Chunk.sizes layout.body) (spec : Spec) :
    Chunk.flatten (layout.chunks spec) = widened spec layout.zeroFill (layout.sign ++ layout.mark)
      (Chunk.flatten (layout.chunks spec.withoutWidth)) := by
  have size : (Chunk.flatten (layout.chunks spec.withoutWidth)).length = layout.contentSize := by
    rw [flatten_withoutWidth, contentSize, announced, ← Chunk.length_flatten]
    simp only [List.length_append, List.length_replicate]
    omega
  have behind (rest : Bytes) : (layout.sign ++ (layout.mark ++ rest)).drop
      (layout.sign ++ layout.mark).length = rest := by
    rw [← List.append_assoc, List.drop_left]
  -- The padding is found from the announced size, and that is the length of the bare field.
  rw [widened, size, flatten_withoutWidth, flatten_chunks, behind]
  cases left : spec.flags.leftJustified with
  | true => simp
  | false =>
      cases zeros : layout.zeroFill with
      | true =>
          simp only [Bool.not_false, Bool.and_true, Bool.or_true, Bool.false_eq_true, if_true,
            if_false, List.replicate_zero, List.nil_append, List.append_nil, List.replicate_add,
            List.append_assoc]
      | false => simp

end Layout

section Leads

variable {spec : Spec}

theorem not_strange_of_isDigit {byte : UInt8} (digit : isDigit byte = true) : byte ∉ strange := by
  intro odd
  simp only [strange, List.mem_cons, List.not_mem_nil, or_false] at odd
  rcases odd with rfl | rfl | rfl <;> exact absurd digit (by decide)

/-- A sign in front of a number can be told from it. -/
theorem signOf_append (negative positive : Bool) (flags : Flags) {first : UInt8} {rest : Bytes}
    (plain : first ∉ strange) :
    signOf (sign negative positive flags ++ first :: rest) = sign negative positive flags := by
  rcases sign_cases negative positive flags with ⟨-, minus⟩ | ⟨-, none | plus | space⟩
  · rw [minus]
    rfl
  · rw [none, List.nil_append, signOf, List.take_succ_cons, List.take_zero,
      List.filter_cons_of_neg (by simpa using plain), List.filter_nil]
  · rw [plus]
    rfl
  · rw [space]
    rfl

theorem baseMark_eq (value : Nat) (spec : Spec) : baseMark value 0 spec =
    if spec.flags.alternate ∧ value ≠ 0 then markOfConversion spec.conversion else [] := by
  rw [baseMark, markOfConversion]
  by_cases given : spec.flags.alternate ∧ value ≠ 0
  · rw [if_pos given, if_pos (by simpa using given)]
    rfl
  · rw [if_neg given, if_neg (by simpa using given)]

/-- The mark of a number without leading zeros can be told from its digits. -/
theorem markOf_append {value : Nat} (small : value < 2 ^ 64) {base : Nat} (least : 2 ≤ base)
    (upper : Bool) (spec : Spec) :
    markOf spec (baseMark value 0 spec ++ Numeral.digits base value upper) =
      baseMark value 0 spec := by
  have some : 0 < (Numeral.digits base value upper).length := by
    rw [Numeral.length_digits least small]
    exact Nat.succ_pos _
  rw [markOf, baseMark_eq]
  by_cases given : spec.flags.alternate ∧ value ≠ 0
  · rw [if_pos given]
    by_cases none : markOfConversion spec.conversion = []
    · rw [none, ite_self]
    · -- Mark and digits together are longer than the one digit of zero.
      have longer : markOfConversion spec.conversion ++ Numeral.digits base value upper ≠
          ascii "0" := by
        intro same
        have lengths := congrArg List.length same
        have front := List.length_pos_of_ne_nil none
        rw [List.length_append, ascii, List.length_map] at lengths
        change _ = 1 at lengths
        omega
      rw [if_pos ⟨given.1, longer⟩]
  · rw [if_neg given, List.nil_append, if_neg]
    rintro ⟨alternate, other⟩
    have zero : value = 0 := by_contra fun positive => given ⟨alternate, positive⟩
    exact other (by rw [zero]; rfl)

end Leads

theorem regular_floatText [Build] {magnitude : Binary64} {spec : Spec} {text : FloatText}
    (written : floatText magnitude spec = some text) : text.Regular := by
  rw [floatText] at written
  split at written
  · obtain rfl := Option.some.inj written
    exact FloatText.regular_exponential _ _ _ _
  · exact FloatText.regular_general written
  · obtain rfl := Option.some.inj written
    exact FloatText.regular_ofMagnitude _ _ _

end Field

namespace Operand

/-- What the converter of a value writes under a directive. -/
def producer (spec : Spec) : Operand → Producer
  | .signed value => .signed value.toInt spec
  | .unsigned value => .unsigned value.toNat spec
  | .float value => .float value spec
  | .text bytes => .text bytes spec
  | .char byte => .char byte spec
  | .pointer address => .pointer address spec

/-- The whole field of a value under a directive, unless the program stops. -/
def field [Build] (operand : Operand) (spec : Spec) : Option Bytes := (operand.producer spec).stream

/-- The flag `0` counts for integers without a precision and for finite doubles. -/
def fillsZeros (spec : Spec) : Operand → Bool
  | .signed _ | .unsigned _ => spec.flags.zero && spec.precision.value?.isNone
  | .float value => spec.flags.zero && value.isFinite
  | .text _ | .char _ | .pointer _ => false

/-- What zeros are put behind: the sign or the prefix that the field without a width begins with. -/
def lead (spec : Spec) (field : Bytes) : Operand → Bytes
  | .signed _ | .float _ => Field.signOf field
  | .unsigned _ => Field.markOf spec field
  | .text _ | .char _ | .pointer _ => []

theorem zerosBefore_of_none {spec : Spec} (none : spec.precision.value?.isNone = true)
    (digits : Nat) : Field.zerosBefore spec digits = 0 := by
  rw [Field.zerosBefore, Option.isNone_iff_eq_none.mp none, Option.getD_none, Nat.zero_sub]

theorem flatten_text (bytes : Bytes) : Chunk.flatten [.text bytes] = bytes := List.append_nil bytes

section Widths

variable [Build]

/-- The layout of a field, which does not depend on the width. -/
structure LaidOut (operand : Operand) (spec : Spec) (bare : Bytes) (layout : Field.Layout) : Prop where
  field : operand.field spec = some (Chunk.flatten (layout.chunks spec))
  bare : bare = Chunk.flatten (layout.chunks spec.withoutWidth)
  announced : layout.bodySize = Chunk.sizes layout.body
  zeroFill : layout.zeroFill = operand.fillsZeros spec
  lead : layout.zeroFill = true →
    operand.lead spec (Chunk.flatten (layout.chunks spec.withoutWidth)) = layout.sign ++ layout.mark

namespace LaidOut

variable {operand : Operand} {spec : Spec} {bare : Bytes} {layout : Field.Layout}

theorem lead_prefix (laidOut : operand.LaidOut spec bare layout)
    (filled : operand.fillsZeros spec = true) : operand.lead spec bare <+: bare := by
  have lead := laidOut.lead (laidOut.zeroFill.trans filled)
  rw [laidOut.bare, lead, Field.Layout.flatten_withoutWidth, ← List.append_assoc]
  exact List.prefix_append _ _

theorem field_eq_widened (laidOut : operand.LaidOut spec bare layout) : operand.field spec =
    some (Field.widened spec (operand.fillsZeros spec) (operand.lead spec bare) bare) := by
  rw [laidOut.field, laidOut.bare, Field.Layout.flatten_eq_widened laidOut.announced,
    ← laidOut.zeroFill]
  cases filled : layout.zeroFill with
  | true => rw [laidOut.lead filled]
  | false => rfl

end LaidOut

theorem exists_layout_signed (value : Int64) {spec : Spec} {bare : Bytes}
    (given : (signed value).field spec.withoutWidth = some bare) :
    ∃ layout, (signed value).LaidOut spec bare layout := by
  obtain rfl := Option.some.inj given
  have least := value.le_toInt
  have most := value.toInt_lt
  have small : value.toInt.natAbs < 2 ^ 64 := by omega
  obtain ⟨first, rest, begins⟩ := List.exists_cons_of_ne_nil
    (@Field.numeral_ne_nil .d value.toInt.natAbs small 0)
  have plain : first ∉ Field.strange :=
    @Field.plain_of_numeral .d value.toInt.natAbs small 0 first (begins ▸ List.mem_cons_self)
  have digits : Numeral.decimal value.toInt.natAbs = first :: rest := begins
  refine ⟨_, rfl, rfl, rfl, rfl, ?_⟩
  intro filled
  have noZeros := zerosBefore_of_none (Bool.and_eq_true_iff.mp filled).2
  rw [Field.Layout.flatten_withoutWidth]
  simp only [noZeros, List.replicate_zero, List.nil_append, List.append_nil, flatten_text, digits]
  exact Field.signOf_append _ _ spec.flags plain

theorem exists_layout_unsigned (value : UInt64) {spec : Spec} {bare : Bytes}
    (given : (unsigned value).field spec.withoutWidth = some bare) :
    ∃ layout, (unsigned value).LaidOut spec bare layout := by
  obtain rfl := Option.some.inj given
  have small := value.toNat_lt
  have least : 2 ≤ (Field.base spec.conversion).1 := by
    rw [Field.base]
    split <;> decide
  refine ⟨_, rfl, rfl, rfl, rfl, ?_⟩
  intro filled
  have noZeros := zerosBefore_of_none (Bool.and_eq_true_iff.mp filled).2
  rw [Field.Layout.flatten_withoutWidth]
  simp only [noZeros, List.replicate_zero, List.nil_append, flatten_text]
  exact Field.markOf_append small least _ spec

theorem exists_layout_float (value : Binary64) {spec : Spec} {bare : Bytes}
    (given : (float value).field spec.withoutWidth = some bare) :
    ∃ layout, (float value).LaidOut spec bare layout := by
  have whole : (float value).field spec = (Field.float value spec).map Chunk.flatten := rfl
  have without : (float value).field spec.withoutWidth =
      (Field.float value spec.withoutWidth).map Chunk.flatten := rfl
  have sorted : value.isFinite = (!value.isNaN && !value.isInfinite) := by cases value <;> rfl
  rw [without] at given
  by_cases nan : value.isNaN = true
  · rw [Field.float, if_pos nan] at whole given
    refine ⟨_, whole, (Option.some.inj given).symm, rfl, ?_, fun fills => absurd fills Bool.false_ne_true⟩
    simp [fillsZeros, sorted, nan]
  · by_cases infinite : value.isInfinite = true
    · rw [Field.float, if_neg nan, if_pos infinite] at whole given
      refine ⟨_, whole, (Option.some.inj given).symm, rfl, ?_, fun fills => absurd fills Bool.false_ne_true⟩
      simp [fillsZeros, sorted, infinite]
    · rw [Field.float, if_neg nan, if_neg infinite] at whole given
      -- The text is the same with and without a width.
      have same (magnitude : Binary64) :
          Field.floatText magnitude spec.withoutWidth = Field.floatText magnitude spec := rfl
      obtain ⟨_, laid, rfl⟩ := Option.map_eq_some_iff.mp given
      obtain ⟨text, written, rfl⟩ := Option.map_eq_some_iff.mp laid
      dsimp only at whole
      rw [same] at written
      rw [written] at whole
      have regular := Field.regular_floatText written
      obtain ⟨digit, rest, begins, first⟩ := regular.exists_digit
      refine ⟨_, whole, rfl, regular.sizes_chunks.symm, ?_, ?_⟩
      · simp [fillsZeros, sorted, nan, infinite]
      · intro _
        rw [Field.Layout.flatten_withoutWidth]
        simp only [List.replicate_zero, List.nil_append, List.append_nil, begins]
        exact Field.signOf_append _ _ spec.flags (Field.not_strange_of_isDigit first)

theorem exists_layout {operand : Operand} {spec : Spec} {bare : Bytes}
    (given : operand.field spec.withoutWidth = some bare) :
    ∃ layout, operand.LaidOut spec bare layout := by
  cases operand with
  | signed value => exact exists_layout_signed value given
  | unsigned value => exact exists_layout_unsigned value given
  | float value => exact exists_layout_float value given
  | text | char =>
      obtain rfl := Option.some.inj given
      exact ⟨_, rfl, rfl, rfl, rfl, nofun⟩
  | pointer address =>
      obtain rfl := Option.some.inj given
      by_cases null : address = 0
      · subst null
        exact ⟨_, rfl, rfl, rfl, rfl, nofun⟩
      · have whole : (pointer address).field spec =
            some (Chunk.flatten (Field.pointer address spec)) := rfl
        rw [Field.pointer, if_neg null] at whole
        refine ⟨_, whole, ?_, rfl, rfl, nofun⟩
        rw [Field.pointer, if_neg null]

/-- A sink with room takes a field as a whole. -/
theorem taken_field {operand : Operand} {spec : Spec} {field : Bytes}
    (given : operand.field spec = some field) (sink : Sink) (fits : field.length ≤ sink.room) :
    ∃ after, (operand.producer spec).run sink = some (after, true) ∧
      after.output = sink.output ++ field := by
  obtain ⟨after, fitted, ran, takes⟩ := Producer.run_takes sink given
  obtain rfl : fitted = true := takes.fits.mpr fits
  refine ⟨after, ran, ?_⟩
  rw [takes.output, List.take_of_length_le fits]

/-- Only a double can have no field, and its width has no part in that. -/
theorem field_eq_none_iff (operand : Operand) (spec : Spec) : operand.field spec = none ↔
    Build.checksSums = true ∧ ∃ value, operand = .float value ∧ Field.Overflows value spec := by
  have stopped : operand.field spec = none ↔ _ := (operand.producer spec).stream_eq_none_iff
  rw [stopped]
  cases operand with
  | float value =>
      refine and_congr_right fun _ => ⟨fun overflows => ⟨value, rfl, overflows⟩, ?_⟩
      rintro ⟨_, ⟨⟩, overflows⟩
      exact overflows
  | signed | unsigned | text | char | pointer =>
      exact and_congr_right fun _ => iff_of_false nofun nofun

/-- A field in a width is the field without one where that is as wide, and else as wide as asked for:
spaces follow it under left alignment, zeros stand behind its sign or prefix where the flag `0`
counts, and spaces stand before it otherwise. A sink with room takes it as a whole. There is no field
exactly where there is none without the width: where the decimal places of a double stop the
program. -/
theorem field_in_width (operand : Operand) (spec : Spec) :
    (operand.field spec = none ↔ operand.field spec.withoutWidth = none) ∧
    (operand.field spec = none ↔
      Build.checksSums = true ∧ ∃ value, operand = .float value ∧ Field.Overflows value spec) ∧
    ∀ bare, operand.field spec.withoutWidth = some bare →
      let width := spec.width.value?.getD 0
      let padding := width - bare.length
      let lead := operand.lead spec bare
      ∃ field, operand.field spec = some field ∧
        field =
          (if width ≤ bare.length then bare
          else if spec.flags.leftJustified then bare ++ List.replicate padding (octet ' ')
          else if operand.fillsZeros spec then
            lead ++ (List.replicate padding (octet '0') ++ bare.drop lead.length)
          else List.replicate padding (octet ' ') ++ bare) ∧
        field.length = max width bare.length ∧
        (operand.fillsZeros spec = true → lead <+: bare) ∧
        ∀ sink : Sink, field.length ≤ sink.room →
          ∃ after, (operand.producer spec).run sink = some (after, true) ∧
            after.output = sink.output ++ field := by
  have without : operand.field spec.withoutWidth = none ↔
      Build.checksSums = true ∧ ∃ value, operand = .float value ∧ Field.Overflows value spec := by
    rw [field_eq_none_iff]
    exact and_congr_right fun _ => exists_congr fun _ => and_congr_right fun _ =>
      ⟨fun ⟨finite, style, places⟩ => ⟨finite, style, places⟩,
        fun ⟨finite, style, places⟩ => ⟨finite, style, places⟩⟩
  refine ⟨(field_eq_none_iff operand spec).trans without.symm, field_eq_none_iff operand spec, ?_⟩
  intro bare given width padding lead
  obtain ⟨layout, laidOut⟩ := exists_layout given
  have front : operand.fillsZeros spec = true → lead <+: bare := laidOut.lead_prefix
  have placed := laidOut.field_eq_widened
  refine ⟨_, placed, ?_, ?_, front, taken_field placed⟩
  · split
    · next wide => rw [Field.widened_of_wide front wide]
    · rfl
  · rw [Field.length_widened front]
    rfl

end Widths

/-- Zeros stand between the sign and the digits of a number in exponential style. -/
theorem zeros_behind_sign :
    let _ : Build := .checked
    let operand : Operand := .float (Binary64.ofBits 0xBFF8000000000000)
    let spec : Spec :=
      { flags := { zero := true }, width := .fixed 12, precision := .fixed 2, conversion := octet 'e' }
    let sink : Sink := ⟨Array.replicate 16 0xAA, 0, by decide⟩
    operand.field spec.withoutWidth = some (ascii "-1.50e+00") ∧
      operand.fillsZeros spec = true ∧ operand.lead spec (ascii "-1.50e+00") = ascii "-" ∧
      operand.field spec = some (ascii "-0001.50e+00") ∧
      (ascii "-0001.50e+00").length ≤ sink.room ∧
      ∃ after, (operand.producer spec).run sink = some (after, true) ∧
        after.output = sink.output ++ ascii "-0001.50e+00" := by
  intro _ operand spec sink
  have bare : operand.field spec.withoutWidth = some (ascii "-1.50e+00") := by decide +kernel
  have filled : operand.fillsZeros spec = true := by decide +kernel
  have fits : (ascii "-0001.50e+00").length ≤ sink.room := by decide
  obtain ⟨field, whole, placed, -, -, taken⟩ := (operand.field_in_width spec).2.2 _ bare
  obtain rfl : field = ascii "-0001.50e+00" := placed.trans (by decide +kernel)
  exact ⟨bare, filled, rfl, whole, fits, taken sink fits⟩

end Operand

end BoundedPrintf
