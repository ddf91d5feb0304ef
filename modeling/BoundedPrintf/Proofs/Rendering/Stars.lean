import Mathlib
import BoundedPrintf.Proofs.Argument.Narrowing
import BoundedPrintf.Proofs.Rendering.Single

/-! A star and the digits that could stand in its place. A directive that takes its width or its
precision from an argument does what the directive with the same number in the template does. -/
namespace BoundedPrintf

open Grammar
open Argument (Supply)

section Resolving

namespace Spec

variable {spec : Spec}

theorem action_congr [Build] {first second : Spec} {cursor next : Cursor}
    (same : first.resolve cursor = second.resolve next) :
    first.action cursor = second.action next := by
  rw [action, action, same]

theorem action_later [Build] (spec : Spec) (handed : Nat) (cursor : Cursor) :
    spec.action (cursor.later handed) =
      ((spec.action cursor).1, (spec.action cursor).2.later handed) :=
  Segment.action_later (.directive spec) .compat handed cursor

theorem precision_withPrecision_ne (spec : Spec) (precision : Int) :
    (spec.withPrecision precision).precision ≠ .argument := by
  rw [withPrecision]
  dsimp only
  split <;> nofun

section Given

variable (given : spec.width ≠ .argument)
include given

theorem resolve_of_given (cursor : Cursor) : spec.resolve cursor =
    if spec.precision = .argument then (spec.withPrecision cursor.next.1.star, cursor.next.2)
    else (spec, cursor) := by
  rw [resolve, if_neg given]

theorem resolve_of_all_given (givenToo : spec.precision ≠ .argument) (cursor : Cursor) :
    spec.resolve cursor = (spec, cursor) := by
  rw [resolve_of_given given, if_neg givenToo]

theorem resolve_withPrecision (precision : Int) (cursor : Cursor) :
    (spec.withPrecision precision).resolve cursor = (spec.withPrecision precision, cursor) :=
  @resolve_of_all_given (spec.withPrecision precision) given
    (precision_withPrecision_ne spec precision) cursor

theorem resolve_of_precision_star (star : spec.precision = .argument) (cursor : Cursor) :
    spec.resolve cursor =
      (spec.withPrecision cursor.next.1.star).resolve cursor.next.2 := by
  have taken := resolve_of_given given cursor
  rw [if_pos star] at taken
  exact taken.trans (resolve_withPrecision given cursor.next.1.star cursor.next.2).symm

end Given

theorem resolve_of_width_star (star : spec.width = .argument) (cursor : Cursor) :
    spec.resolve cursor = (spec.withWidth cursor.next.1.star).resolve cursor.next.2 := by
  have given : (spec.withWidth cursor.next.1.star).width ≠ .argument := nofun
  rw [resolve_of_given given, resolve, if_pos star]

section Read

variable {first second : Argument} {width precision : Int}

/-- A star takes the first argument, and all that follows happens one argument later. -/
theorem action_of_width_star [Build] (star : spec.width = .argument)
    (read : Supply.star (some first) = width) (args : List Argument) :
    spec.action (Cursor.ofList (first :: args)) =
      (((spec.withWidth width).action (Cursor.ofList args)).1,
        ((spec.withWidth width).action (Cursor.ofList args)).2.later 1) := by
  have taken := action_congr (resolve_of_width_star star (Cursor.ofList (first :: args)))
  rw [← read]
  exact taken.trans (action_later _ 1 (Cursor.ofList args))

theorem action_of_precision_star [Build] (given : spec.width ≠ .argument)
    (star : spec.precision = .argument) (read : Supply.star (some first) = precision)
    (args : List Argument) : spec.action (Cursor.ofList (first :: args)) =
      (((spec.withPrecision precision).action (Cursor.ofList args)).1,
        ((spec.withPrecision precision).action (Cursor.ofList args)).2.later 1) := by
  have taken := action_congr (resolve_of_precision_star given star (Cursor.ofList (first :: args)))
  rw [← read]
  exact taken.trans (action_later _ 1 (Cursor.ofList args))

/-- The star of a precision comes behind that of a width. -/
theorem action_of_stars [Build] (widthStar : spec.width = .argument) (star : spec.precision = .argument)
    (read : Supply.star (some second) = precision) (first : Argument) (args : List Argument) :
    spec.action (Cursor.ofList (first :: second :: args)) =
      (((spec.withPrecision precision).action (Cursor.ofList (first :: args))).1,
        ((spec.withPrecision precision).action (Cursor.ofList (first :: args))).2.later 1) := by
  obtain ⟨width, readFirst⟩ : ∃ width, Supply.star (some first) = width := ⟨_, rfl⟩
  have same : (spec.withPrecision precision).width = .argument := widthStar
  have inner := @action_of_precision_star (spec.withWidth width) _ _ _ nofun star read args
  have commute : (spec.withWidth width).withPrecision precision =
      (spec.withPrecision precision).withWidth width := rfl
  rw [action_of_width_star widthStar readFirst, inner, action_of_width_star same readFirst, commute]

end Read

theorem withPrecision_of_width (spec : Spec) (width : Extent) (precision : Int) :
    { spec with width }.withPrecision precision =
      { spec with width, precision := (spec.withPrecision precision).precision } := rfl

/-- A width that is given has no part in the reading of stars. -/
theorem exists_resolved (spec : Spec) (cursor : Cursor) : ∃ precision next,
    ∀ width ≠ .argument, { spec with width }.resolve cursor =
      ({ spec with width, precision }, next) := by
  by_cases star : spec.precision = .argument
  · refine ⟨(spec.withPrecision cursor.next.1.star).precision, cursor.next.2, ?_⟩
    intro width given
    rw [resolve_of_given given, if_pos star, withPrecision_of_width]
  · refine ⟨spec.precision, cursor, ?_⟩
    intro width given
    rw [resolve_of_given given, if_neg star]

/-- A width of zero fills nothing up, just like none. -/
theorem action_of_width_zero [Build] (spec : Spec) (cursor : Cursor) :
    { spec with width := .fixed 0 }.action cursor = { spec with width := .absent }.action cursor := by
  obtain ⟨precision, next, resolved⟩ := exists_resolved spec cursor
  have effect (supply : Supply) : { spec with width := .fixed 0, precision }.effect supply =
      { spec with width := .absent, precision }.effect supply := rfl
  simp only [action, resolved (.fixed 0) (by decide), resolved .absent (by decide), effect]

/-- A width from an argument, as a directive without star has it. -/
theorem action_withWidth [Build] (spec : Spec) (width : Int) (cursor : Cursor) :
    (spec.withWidth width).action cursor =
      { spec with
        flags.alignment := if width < 0 then .left else spec.flags.alignment
        width := if width = 0 then .absent else .fixed width.natAbs }.action cursor := by
  by_cases zero : width = 0
  · subst zero
    exact action_of_width_zero spec cursor
  · rw [if_neg zero]
    rfl

end Spec

end Resolving

section Digits

/-- The decimal digits of a number. -/
def decimalText (number : Nat) : Bytes := ascii (toString number)

/-- What stands in a template for a width: nothing for zero, and a minus sign, which is a flag, in
front of a negative one. -/
def widthText (width : Int) : Bytes :=
  if width < 0 then octet '-' :: decimalText width.natAbs
  else if width = 0 then [] else decimalText width.natAbs

/-- What stands in a template for a precision: nothing for a negative one. -/
def precisionText (precision : Int) : Bytes :=
  if precision < 0 then [] else octet '.' :: decimalText precision.natAbs

/-- The decimal digits of a number are a numeral of the grammar with this value, and only that of
zero starts with a zero. -/
theorem exists_numeral (number : Nat) : ∃ digits : List (Fin 10),
    digits.map digitByte = decimalText number ∧ numeralValue digits = number ∧
      (0 < number → ∃ first rest, digits = first :: rest ∧ first ≠ 0) := by
  induction number using Nat.strongRecOn with
  | ind number ih =>
      have char : ∀ digit : Fin 10, digitByte digit = octet (Nat.digitChar digit) := by decide
      have text : decimalText number = (Nat.toDigits 10 number).map octet :=
        congrArg (List.map octet) Nat.toList_repr
      rcases Nat.lt_or_ge number 10 with small | large
      · refine ⟨[⟨number, small⟩], ?_, ?_, ?_⟩
        · rw [text, Nat.toDigits_of_lt_base small, List.map_singleton, List.map_singleton, char]
        · rw [numeralValue_eq_foldl]
          simp [withDigit]
        · intro positive
          exact ⟨⟨number, small⟩, [], rfl, by simpa [Fin.ext_iff] using Nat.ne_of_gt positive⟩
      · obtain ⟨front, frontText, value, leads⟩ := ih (number / 10) (by omega)
        have shorter : decimalText (number / 10) = (Nat.toDigits 10 (number / 10)).map octet :=
          congrArg (List.map octet) Nat.toList_repr
        refine ⟨front ++ [⟨number % 10, by omega⟩], ?_, ?_, ?_⟩
        · rw [text, Nat.toDigits_of_base_le (by decide) large, List.map_append, List.map_append,
            frontText, shorter, List.map_singleton, List.map_singleton, char]
        · rw [numeralValue_eq_foldl] at value ⊢
          rw [List.foldl_append, value]
          simp only [List.foldl_cons, List.foldl_nil, withDigit]
          omega
        · intro _
          obtain ⟨first, rest, rfl, nonzero⟩ := leads (by omega)
          exact ⟨first, rest ++ [_], rfl, nonzero⟩

theorem numeralExtent_of_value {digits : List (Fin 10)} {number : Nat}
    (value : numeralValue digits = number) (small : number ≤ maxSize) :
    numeralExtent digits = .fixed number := by
  rw [numeralExtent, value, Nat.min_eq_left small]

/-- The text for a width is one of the grammar, behind the flags or with a flag added to them. -/
theorem exists_width (flags : List Flag) {width : Int} (small : width.natAbs ≤ maxSize) :
    ∃ (allFlags : List Flag) (literal : Option Width),
      allFlags.map Flag.byte ++ literal.elim [] Width.text =
        flags.map Flag.byte ++ widthText width ∧
      flagsMeant allFlags = { flagsMeant flags with
        alignment := if width < 0 then .left else (flagsMeant flags).alignment } ∧
      literal.elim .absent Width.extent = if width = 0 then .absent else .fixed width.natAbs := by
  by_cases zero : width = 0
  · subst zero
    exact ⟨flags, none, rfl, rfl, rfl⟩
  · obtain ⟨digits, text, value, leads⟩ := exists_numeral width.natAbs
    obtain ⟨first, rest, rfl, nonzero⟩ := leads (by omega)
    have extent := numeralExtent_of_value value small
    by_cases negative : width < 0
    · refine ⟨flags ++ [.minus], some (.numeral first rest nonzero), ?_, ?_, ?_⟩
      · rw [Option.elim_some, Width.text, text, widthText, if_pos negative, List.map_append,
          List.append_assoc]
        rfl
      · simp [flagsMeant, Flag.alignment?, negative]
      · rw [if_neg zero]
        exact extent
    · refine ⟨flags, some (.numeral first rest nonzero), ?_, ?_, ?_⟩
      · rw [Option.elim_some, Width.text, text, widthText, if_neg negative, if_neg zero]
      · rw [if_neg negative]
      · rw [if_neg zero]
        exact extent

theorem exists_precision {precision : Int} (small : precision.natAbs ≤ maxSize) :
    ∃ literal : Option Precision, literal.elim [] Precision.text = precisionText precision ∧
      literal.elim .absent Precision.extent =
        if precision < 0 then .absent else .fixed precision.toNat := by
  by_cases negative : precision < 0
  · exact ⟨none, by rw [precisionText, if_pos negative]; rfl, by rw [if_pos negative]; rfl⟩
  · have same : precision.natAbs = precision.toNat := by omega
    obtain ⟨digits, text, value, _⟩ := exists_numeral precision.natAbs
    refine ⟨some (.numeral digits), ?_, ?_⟩
    · rw [precisionText, if_neg negative, ← text]
      rfl
    · rw [if_neg negative, ← same]
      exact numeralExtent_of_value value small

end Digits

/-- A template of one directive, whose width and precision are given as they stand there. -/
def directiveTemplate (flags : List Flag) (width precision : Bytes) (length : Length)
    (conversion : UInt8) : Bytes :=
  octet '%' :: (flags.map Flag.byte ++ width ++ precision ++ length.text ++ [conversion])

theorem natAbs_le_maxSize (number : Int32) : number.toInt.natAbs ≤ maxSize := by
  have least := number.le_toInt
  have most := number.toInt_lt
  simp only [maxSize]
  omega

section Call

variable [Build] (flags : List Flag) (length : Length) {conversion : UInt8}
  (known : conversion ∈ conversions) (args : List Argument) (buffer : Array UInt8) (mode : Mode)
include known

theorem width_star_alike (precision : Option Precision) (width : Int32) :
    Outcome.AlikeBut buffer 1
      (render buffer (directiveTemplate flags (ascii "*") (precision.elim [] Precision.text) length
        conversion) (.ofSigned width.toInt :: args) mode)
      (render buffer (directiveTemplate flags (widthText width.toInt)
        (precision.elim [] Precision.text) length conversion) args mode) := by
  obtain ⟨allFlags, literal, text, meant, extent⟩ := exists_width flags (natAbs_le_maxSize width)
  have read := Argument.Supplied.star_argument width
  generalize width.toInt = width at *
  let star : Written := { flags, width := some .star, precision, length, conversion, known }
  let given : Written :=
    { flags := allFlags, width := literal, precision, length, conversion, known }
  have template : given.template = directiveTemplate flags (widthText width)
      (precision.elim [] Precision.text) length conversion := by
    rw [directiveTemplate, ← text]
    rfl
  have meaning : given.meaning = { star.meaning with
      flags.alignment := if width < 0 then .left else star.meaning.flags.alignment
      width := if width = 0 then .absent else .fixed width.natAbs } := by
    simp only [given, star, Written.meaning, meant, extent]
  rw [← template]
  apply render_directive_alike star.segments_template given.segments_template
  rw [Spec.action_of_width_star rfl read, Spec.action_withWidth, meaning]

theorem precision_star_alike (width : Option Width) (front : List Argument)
    (enough : front.length = if width.elim .absent Width.extent = .argument then 1 else 0)
    (precision : Int32) : Outcome.AlikeBut buffer 1
      (render buffer (directiveTemplate flags (width.elim [] Width.text) (ascii ".*") length
        conversion) (front ++ .ofSigned precision.toInt :: args) mode)
      (render buffer (directiveTemplate flags (width.elim [] Width.text)
        (precisionText precision.toInt) length conversion) (front ++ args) mode) := by
  obtain ⟨literal, text, extent⟩ := exists_precision (natAbs_le_maxSize precision)
  have read := Argument.Supplied.star_argument precision
  generalize precision.toInt = precision at *
  let star : Written := { flags, width, precision := some .star, length, conversion, known }
  let given : Written := { flags, width, precision := literal, length, conversion, known }
  have template : given.template = directiveTemplate flags (width.elim [] Width.text)
      (precisionText precision) length conversion := by
    rw [← text]
    rfl
  have meaning : given.meaning = star.meaning.withPrecision precision := by
    simp only [given, star, Written.meaning, extent, Spec.withPrecision]
  rw [← template]
  apply render_directive_alike star.segments_template given.segments_template
  rw [meaning]
  by_cases widthStar : width.elim .absent Width.extent = .argument
  · rw [if_pos widthStar] at enough
    obtain ⟨first, rfl⟩ := List.length_eq_one_iff.mp enough
    exact Spec.action_of_stars widthStar rfl read first args
  · rw [if_neg widthStar] at enough
    obtain rfl := List.eq_nil_of_length_eq_zero enough
    exact Spec.action_of_precision_star widthStar rfl read args

/-- A star is rendered like the number that its argument holds: a width like its digits, behind a
minus sign if it is negative, and a precision like its digits or, if it is negative, like none. -/
theorem stars_as_digits (width precision : Int32) :
    (∀ given : Option Precision, Outcome.AlikeBut buffer 1
      (render buffer (directiveTemplate flags (ascii "*") (given.elim [] Precision.text) length
        conversion) (.ofSigned width.toInt :: args) mode)
      (render buffer (directiveTemplate flags (widthText width.toInt)
        (given.elim [] Precision.text) length conversion) args mode)) ∧
    (∀ (given : Option Width) (front : List Argument),
      front.length = (if given.elim .absent Width.extent = .argument then 1 else 0) →
      Outcome.AlikeBut buffer 1
        (render buffer (directiveTemplate flags (given.elim [] Width.text) (ascii ".*") length
          conversion) (front ++ .ofSigned precision.toInt :: args) mode)
        (render buffer (directiveTemplate flags (given.elim [] Width.text)
          (precisionText precision.toInt) length conversion) (front ++ args) mode)) ∧
    Outcome.AlikeBut buffer 2
      (render buffer (directiveTemplate flags (ascii "*") (ascii ".*") length conversion)
        (.ofSigned width.toInt :: .ofSigned precision.toInt :: args) mode)
      (render buffer (directiveTemplate flags (widthText width.toInt)
        (precisionText precision.toInt) length conversion) args mode) := by
  refine ⟨?_, ?_, ?_⟩
  · intro given
    exact width_star_alike flags length known args buffer mode given width
  · intro given front enough
    exact precision_star_alike flags length known args buffer mode given front enough precision
  · obtain ⟨literal, text, _⟩ := exists_precision (natAbs_le_maxSize precision)
    have precisionFirst := precision_star_alike flags length known args buffer mode
      (some .star) [.ofSigned width.toInt] rfl precision
    have widthLast := width_star_alike flags length known args buffer mode literal width
    rw [text] at widthLast
    exact precisionFirst.trans widthLast

end Call

/-- The least width undoes the forced sign, and of the two stars it is the first. -/
theorem least_width_as_digits :
    let _ : Build := .checked
    let stars := render (Array.replicate 8 0xAA) (ascii "%+0*.*d")
      [.int (-2147483648), .int (-1), .int 42] .strict
    let digits := render (Array.replicate 8 0xAA) (ascii "%+0-2147483648d") [.int 42] .strict
    octet 'd' ∈ conversions ∧ stars.result = digits.result ∧ stars.buffer = digits.buffer ∧
      stars.consumed = digits.consumed + 2 ∧ digits.buffer.toList = ascii "42     " ++ [0] := by
  intro _
  have known : octet 'd' ∈ conversions := by decide
  obtain ⟨_, _, alike⟩ := stars_as_digits [.plus, .zero] .none known [.int 42]
    (Array.replicate 8 0xAA) .strict (-2147483648) (-1)
  have starText : directiveTemplate [.plus, .zero] (ascii "*") (ascii ".*") .none (octet 'd') =
      ascii "%+0*.*d" := by decide +kernel
  have digitText : directiveTemplate [.plus, .zero] (widthText (-2147483648 : Int32).toInt)
      (precisionText (-1 : Int32).toInt) .none (octet 'd') = ascii "%+0-2147483648d" := by
    decide +kernel
  rw [starText, digitText] at alike
  exact ⟨known, alike.result, alike.buffer, alike.consumed (by decide), by cbv⟩

end BoundedPrintf
