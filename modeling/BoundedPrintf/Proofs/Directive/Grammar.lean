import BoundedPrintf.Proofs.Directive.Decision
import Mathlib.Data.List.Induction
import Mathlib.Data.Nat.Digits.Defs

/-! The grammar of directives. A directive is written as flags, a width, a precision, a length
modifier and a conversion, in this order. Each part has a text and a meaning, and the parser gives
back the meaning of every text, whatever follows it. -/
namespace BoundedPrintf.Grammar

open Directive (Draft)

inductive Flag
  | minus
  | plus
  | space
  | hash
  | zero
  deriving DecidableEq, Repr

namespace Flag

def byte : Flag → UInt8
  | minus => octet '-'
  | plus => octet '+'
  | space => octet ' '
  | hash => octet '#'
  | zero => octet '0'

def alignment? : Flag → Option Alignment
  | minus => some .left
  | plus => some .right
  | space | hash | zero => none

end Flag

/-- Flags in any order and repetition: the last one that aligns decides, of the others it matters
whether they occur. -/
def flagsMeant (flags : List Flag) : Flags where
  alignment := (flags.filterMap Flag.alignment?).getLast?.getD .default
  space := .space ∈ flags
  alternate := .hash ∈ flags
  zero := .zero ∈ flags

def digitByte (digit : Fin 10) : UInt8 := octet '0' + UInt8.ofNat digit

/-- The value of a decimal numeral, its most significant digit first. -/
def numeralValue (digits : List (Fin 10)) : Nat := Nat.ofDigits 10 (digits.map Fin.val).reverse

/-- A number that is too large for a size counts as the largest one. -/
def numeralExtent (digits : List (Fin 10)) : Extent := .fixed (min (numeralValue digits) maxSize)

/-- A numeral without leading zeros, since these would be flags, or a star. -/
inductive Width
  | numeral (first : Fin 10) (rest : List (Fin 10)) (positive : first ≠ 0)
  | star

namespace Width

def text : Width → Bytes
  | numeral first rest _ => (first :: rest).map digitByte
  | star => [octet '*']

def extent : Width → Extent
  | numeral first rest _ => numeralExtent (first :: rest)
  | star => .argument

end Width

/-- A point with any digits behind it, also with none, or with a star. -/
inductive Precision
  | numeral (digits : List (Fin 10))
  | star

namespace Precision

def text : Precision → Bytes
  | numeral digits => octet '.' :: digits.map digitByte
  | star => [octet '.', octet '*']

def extent : Precision → Extent
  | numeral digits => numeralExtent digits
  | star => .argument

end Precision

inductive Length
  | none | h | hh | l | ll | z | t | j | L
  deriving DecidableEq, Repr

namespace Length

def text : Length → Bytes
  | none => []
  | h => ascii "h"
  | hh => ascii "hh"
  | l => ascii "l"
  | ll => ascii "ll"
  | z => ascii "z"
  | t => ascii "t"
  | j => ascii "j"
  | L => ascii "L"

def meaning : Length → LengthClass
  | none | L => .none
  | h => .h
  | hh => .hh
  | l => .l
  | ll => .ll
  | z => .z
  | t => .t
  | j => .j

end Length

/-- The conversion bytes. -/
def conversions : Bytes := ascii "diuoxXfFeEgGscnp"

structure Written where
  flags : List Flag := []
  width : Option Width := none
  precision : Option Precision := none
  length : Length := .none
  conversion : UInt8
  known : conversion ∈ conversions

namespace Written

def modifiers (written : Written) : Bytes :=
  written.flags.map Flag.byte ++ written.width.elim [] Width.text ++
    written.precision.elim [] Precision.text ++ written.length.text

/-- What stands behind the percent sign. -/
def text (written : Written) : Bytes := written.modifiers ++ [written.conversion]

def meaning (written : Written) : Spec where
  flags := flagsMeant written.flags
  width := written.width.elim .absent Width.extent
  precision := written.precision.elim .absent Precision.extent
  length := written.length.meaning
  conversion := written.conversion

end Written

section Bytes

theorem isModifier_flag (flag : Flag) : isModifier flag.byte = true := by
  cases flag <;> rfl

theorem isModifier_digit : ∀ digit : Fin 10, isModifier (digitByte digit) = true := by
  decide

theorem all_isModifier_width (width : Width) : width.text.all isModifier = true := by
  cases width with
  | numeral first rest positive =>
      rw [Width.text, List.all_map, List.all_eq_true]
      intro digit _
      exact isModifier_digit digit
  | star => rfl

theorem all_isModifier_precision (precision : Precision) :
    precision.text.all isModifier = true := by
  cases precision with
  | numeral digits =>
      rw [Precision.text, List.all_cons, List.all_map, Bool.and_eq_true, List.all_eq_true]
      constructor
      · rfl
      · intro digit _
        exact isModifier_digit digit
  | star => rfl

theorem all_isModifier_length (length : Length) : length.text.all isModifier = true := by
  cases length <;> rfl

theorem all_isModifier_modifiers (written : Written) : written.modifiers.all isModifier = true := by
  have flags : (written.flags.map Flag.byte).all isModifier = true := by
    rw [List.all_map, List.all_eq_true]
    intro flag _
    exact isModifier_flag flag
  have width : (written.width.elim [] Width.text).all isModifier = true := by
    cases written.width with
    | none => rfl
    | some width => exact all_isModifier_width width
  have precision : (written.precision.elim [] Precision.text).all isModifier = true := by
    cases written.precision with
    | none => rfl
    | some precision => exact all_isModifier_precision precision
  simp only [Written.modifiers, List.all_append, flags, width, precision, all_isModifier_length,
    Bool.and_self]

/-- A conversion byte ends the modifiers and makes a directive of them. -/
theorem conversion_decides {conversion : UInt8} (known : conversion ∈ conversions) :
    isModifier conversion = false ∧ ∀ draft : Draft,
      draft.finish conversion = .spec (draft.toSpec conversion) := by
  have decided : (conversions.all fun byte => !isModifier byte && byte != 0 &&
      byte != octet '%' && isConversion byte) = true := by
    decide
  have facts := List.all_eq_true.mp decided conversion known
  simp only [Bool.and_eq_true, Bool.not_eq_true', bne_iff_ne] at facts
  obtain ⟨⟨⟨noModifier, visible⟩, noPercent⟩, supported⟩ := facts
  refine ⟨noModifier, ?_⟩
  intro draft
  simp only [Draft.finish, visible, noPercent, supported, if_true, if_false]

end Bytes

section Digits

/-- One more digit at the end of a number. -/
def withDigit (number : Nat) (digit : Fin 10) : Nat := 10 * number + digit

def withDigitCapped (number : Nat) (digit : Fin 10) : Nat := min (withDigit number digit) maxSize

theorem numeralValue_eq_foldl (digits : List (Fin 10)) :
    numeralValue digits = digits.foldl withDigit 0 := by
  have commuted : (fun number (digit : Fin 10) => digit.val + 10 * number) = withDigit := by
    funext number digit
    exact Nat.add_comm _ _
  rw [numeralValue, Nat.ofDigits_eq_foldr, List.foldr_reverse, List.foldl_map]
  simp only [Nat.cast_id, commuted]

/-- Capping a number at every digit is capping it at the end. -/
theorem foldl_withDigitCapped (digits : List (Fin 10)) (number : Nat) :
    digits.foldl withDigitCapped (min number maxSize) =
      min (digits.foldl withDigit number) maxSize := by
  induction digits generalizing number with
  | nil => rfl
  | cons digit rest ih =>
      have step : withDigitCapped (min number maxSize) digit =
          min (withDigit number digit) maxSize := by
        simp only [withDigitCapped, withDigit]
        omega
      rw [List.foldl_cons, List.foldl_cons, step, ih]

/-- The draft with a number in the place that digits belong to. -/
def numbered (draft : Draft) (number : Nat) : Draft :=
  if draft.point then { draft with precision := .fixed number, number }
  else { draft with width := .fixed number, number }

theorem numbered_numbered (draft : Draft) (first second : Nat) :
    numbered (numbered draft first) second = numbered draft second := by
  cases point : draft.point <;> simp [numbered, point]

theorem number_numbered (draft : Draft) (number : Nat) : (numbered draft number).number = number := by
  cases point : draft.point <;> simp [numbered, point]

theorem widthOpen_numbered (draft : Draft) (number : Nat) :
    (numbered draft number).widthOpen = false := by
  cases point : draft.point <;> simp [numbered, Draft.widthOpen, point]

theorem step_digit {draft : Draft} {digit : Fin 10} (noFlag : draft.widthOpen = false ∨ digit ≠ 0) :
    draft.step (digitByte digit) = numbered draft (withDigitCapped draft.number digit) := by
  have byte : ∀ digit : Fin 10, isDigit (digitByte digit) = true ∧
      digitValue (digitByte digit) = digit ∧ (digitByte digit = octet '0' → digit = 0) := by
    decide
  obtain ⟨isDigit, value, zero⟩ := byte digit
  have counts : (draft.widthOpen && digitByte digit = octet '0') = false := by
    rcases noFlag with closed | positive
    · simp [closed]
    · simp [mt zero positive]
  simp only [Draft.step, isDigit, counts, value, if_true]
  rfl

theorem foldl_digits (draft : Draft) (number : Nat) (digits : List (Fin 10)) :
    (digits.map digitByte).foldl Draft.step (numbered draft number) =
      numbered draft (digits.foldl withDigitCapped number) := by
  induction digits generalizing number with
  | nil => rfl
  | cons digit rest ih =>
      rw [List.map_cons, List.foldl_cons, step_digit (.inl (widthOpen_numbered draft number)),
        numbered_numbered, number_numbered, ih, List.foldl_cons]

end Digits

section Parts

theorem step_flag (flags : List Flag) (flag : Flag) :
    Draft.step { flags := flagsMeant flags } flag.byte =
      { flags := flagsMeant (flags ++ [flag]) } := by
  cases flag <;> simp [flagsMeant, Flag.alignment?] <;> rfl

theorem foldl_flags (flags : List Flag) :
    (flags.map Flag.byte).foldl Draft.step {} = { flags := flagsMeant flags } := by
  induction flags using List.reverseRecOn with
  | nil => rfl
  | append_singleton flags flag ih =>
      rw [List.map_append, List.foldl_append, ih]
      exact step_flag flags flag

theorem foldl_width (flags : Flags) (width : Option Width) :
    ∃ number, (width.elim [] Width.text).foldl Draft.step { flags } =
      { flags, width := width.elim .absent Width.extent, number } := by
  rcases width with _ | ⟨first, rest, positive⟩ | _
  · exact ⟨0, rfl⟩
  · refine ⟨min (numeralValue (first :: rest)) maxSize, ?_⟩
    calc ((first :: rest).map digitByte).foldl Draft.step { flags }
      _ = (rest.map digitByte).foldl Draft.step (numbered { flags } (withDigitCapped 0 first)) := by
        rw [List.map_cons, List.foldl_cons, step_digit (.inr positive)]
      _ = numbered { flags } (min (numeralValue (first :: rest)) maxSize) := by
        rw [foldl_digits, withDigitCapped, foldl_withDigitCapped, numeralValue_eq_foldl,
          List.foldl_cons]
  · exact ⟨0, rfl⟩

theorem foldl_precision (draft : Draft) (precision : Option Precision)
    (absent : draft.precision = .absent) :
    ∃ number point, (precision.elim [] Precision.text).foldl Draft.step draft =
      { draft with precision := precision.elim .absent Precision.extent, number, point } := by
  rcases precision with _ | digits | _
  · refine ⟨draft.number, draft.point, ?_⟩
    simp only [Option.elim_none, List.foldl_nil, ← absent]
  · refine ⟨min (numeralValue digits) maxSize, true, ?_⟩
    have capped := foldl_withDigitCapped digits 0
    rw [← numeralValue_eq_foldl, Nat.zero_min] at capped
    calc (octet '.' :: digits.map digitByte).foldl Draft.step draft
      _ = (digits.map digitByte).foldl Draft.step (numbered { draft with point := true } 0) := rfl
      _ = numbered { draft with point := true } (min (numeralValue digits) maxSize) := by
        rw [foldl_digits, capped]
  · exact ⟨0, true, rfl⟩

theorem foldl_length (draft : Draft) (length : Length) (none : draft.length = .none) :
    ∃ number, length.text.foldl Draft.step draft =
      { draft with length := length.meaning, number } := by
  obtain ⟨flags, width, precision, _, point, number⟩ := draft
  obtain rfl := none
  cases length with
  | none => exact ⟨number, rfl⟩
  | h | hh | l | ll | z | t | j | L => exact ⟨0, rfl⟩

end Parts

theorem toSpec_modifiers (written : Written) :
    (written.modifiers.foldl Draft.step {}).toSpec written.conversion = written.meaning := by
  obtain ⟨widthNumber, width⟩ := foldl_width (flagsMeant written.flags) written.width
  obtain ⟨number, point, precision⟩ := foldl_precision
    { flags := flagsMeant written.flags, width := written.width.elim .absent Width.extent,
      number := widthNumber } written.precision rfl
  obtain ⟨lastNumber, length⟩ := foldl_length
    { flags := flagsMeant written.flags, width := written.width.elim .absent Width.extent,
      precision := written.precision.elim .absent Precision.extent, number, point }
    written.length rfl
  rw [Written.modifiers, List.foldl_append, List.foldl_append, List.foldl_append, foldl_flags,
    width, precision, length]
  rfl

theorem parse_modifiers_conversion (written : Written) (rest : Bytes) :
    Directive.parse (written.modifiers ++ written.conversion :: rest) =
      (.spec written.meaning, written.modifiers.length + 1) := by
  have modifiers := List.all_eq_true.mp (all_isModifier_modifiers written)
  obtain ⟨decides, finish⟩ := conversion_decides written.known
  rw [Directive.parse_decided modifiers decides, finish, toSpec_modifiers]

/-- A directive of the grammar is read with its meaning and up to its end. -/
theorem parse_written (written : Written) (rest : Bytes) :
    Directive.parse (written.text ++ rest) = (.spec written.meaning, written.text.length) := by
  rw [Written.text, List.append_assoc, List.singleton_append, parse_modifiers_conversion,
    List.length_append, List.length_singleton]

/-- A zero is a flag in front of a width and a digit in it. -/
example : Directive.parse (ascii "-0+120.*hhx0") =
    (.spec {
      flags := { alignment := .right, zero := true }
      width := .fixed 120
      precision := .argument
      length := .hh
      conversion := octet 'x' }, 11) := by
  cbv

end BoundedPrintf.Grammar
