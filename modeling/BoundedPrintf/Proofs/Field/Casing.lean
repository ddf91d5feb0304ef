import Mathlib
import BoundedPrintf.Proofs.Field.Integer
import BoundedPrintf.Proofs.FloatText.Form

/-! Letter case. A conversion in upper case lays out the same field as the one in lower case, with
capitals for its digits, its prefix, its words and the marker of its exponent. Nothing else in a
field is a letter. -/
namespace BoundedPrintf

/-- The ASCII capital of a letter. Every other byte stays as it is. -/
def capital (byte : UInt8) : UInt8 :=
  if octet 'a' ≤ byte && byte ≤ octet 'z' then byte - 32 else byte

theorem capital_of_isDigit {byte : UInt8} (digit : isDigit byte = true) : capital byte = byte := by
  have last : byte ≤ octet '9' := by
    rw [isDigit, Bool.and_eq_true, decide_eq_true_eq, decide_eq_true_eq] at digit
    exact digit.2
  have before : ¬ octet 'a' ≤ byte := by
    intro after
    exact absurd (UInt8.le_trans after last) (by decide)
  rw [capital, decide_eq_false before, Bool.false_and, if_neg Bool.false_ne_true]

theorem map_capital_digits {bytes : Bytes} (digits : ∀ b ∈ bytes, isDigit b = true) :
    bytes.map capital = bytes := by
  rw [List.map_congr_left fun b member => capital_of_isDigit (digits b member), List.map_id']

namespace Chunk

/-- A chunk in capitals. -/
def capitals : Chunk → Chunk
  | .text bytes => .text (bytes.map capital)
  | .fill byte count => .fill (capital byte) count

theorem flatten_capitals (chunks : List Chunk) :
    flatten (chunks.map capitals) = (flatten chunks).map capital := by
  have bytes (chunk : Chunk) : chunk.capitals.bytes = chunk.bytes.map capital := by
    cases chunk with
    | text bytes => rfl
    | fill byte count => exact (List.map_replicate ..).symm
  rw [flatten, flatten, List.flatMap_map, List.map_flatMap]
  simp only [bytes]

end Chunk

namespace Numeral

variable {base : Nat} {lower upper : Bool} {change : UInt8 → UInt8}

/-- What changes each digit changes the numeral. -/
theorem map_prepend (least : 0 < base)
    (digits : ∀ d < base, change (digit lower (UInt8.ofNat d)) = digit upper (UInt8.ofNat d))
    (places value : Nat) (behind : Bytes) :
    (prepend base lower places value behind).map change =
      prepend base upper places value (behind.map change) := by
  induction places generalizing value behind with
  | zero => rfl
  | succ places ih =>
      rw [prepend, prepend]
      split
      · rfl
      · rw [ih, List.map_cons, digits _ (Nat.mod_lt _ least)]

theorem map_digits (least : 0 < base)
    (each : ∀ d < base, change (digit lower (UInt8.ofNat d)) = digit upper (UInt8.ofNat d))
    (zero : change (octet '0') = octet '0') (value : Nat) :
    (digits base value lower).map change = digits base value upper := by
  rw [digits, digits]
  split
  · rw [List.map_singleton, zero]
  · exact map_prepend least each maxPlaces value []

theorem map_capital_hexadecimal (value : Nat) :
    (digits 16 value false).map capital = digits 16 value true := by
  have each : ∀ d : Fin 16, capital (digit false (UInt8.ofNat d)) = digit true (UInt8.ofNat d) := by
    decide
  exact map_digits (by decide) (fun d small => each ⟨d, small⟩) rfl value

theorem map_capital_decimal (value : Nat) : (decimal value).map capital = decimal value := by
  have each : ∀ d : Fin 10, capital (digit false (UInt8.ofNat d)) = digit false (UInt8.ofNat d) := by
    decide
  exact map_digits (by decide) (fun d small => each ⟨d, small⟩) rfl value

end Numeral

namespace FloatText

/-- A text with the capital of its marker. -/
def capitals (text : FloatText) : FloatText :=
  { text with exponent := text.exponent.map fun (marker, exponent) => (capital marker, exponent) }

theorem map_capital_exponentText (exponent : Int) :
    (exponentText exponent).map capital = exponentText exponent := by
  have sign : capital (octet (if exponent < 0 then '-' else '+')) =
      octet (if exponent < 0 then '-' else '+') := by
    split <;> rfl
  have digits : (if exponent.natAbs < 10 then octet '0' :: Numeral.decimal exponent.natAbs
      else Numeral.decimal exponent.natAbs).map capital =
      if exponent.natAbs < 10 then octet '0' :: Numeral.decimal exponent.natAbs
      else Numeral.decimal exponent.natAbs := by
    split
    · rw [List.map_cons, Numeral.map_capital_decimal]
      rfl
    · rw [Numeral.map_capital_decimal]
  rw [exponentText, List.map_cons, sign, digits]

theorem map_capitals_chunks {text : FloatText} (proper : text.form.Proper) :
    text.chunks.map Chunk.capitals = text.capitals.chunks := by
  have whole : text.integral.map capital = text.integral := map_capital_digits proper.whole_digits
  have fraction : text.fraction.map capital = text.fraction :=
    map_capital_digits fun b member => proper.decimal_digits b (List.mem_append_left _ member)
  have point : (if text.point then [octet '.'] else []).map capital =
      if text.point then [octet '.'] else [] := by
    split <;> rfl
  have zero : capital (octet '0') = octet '0' := rfl
  rw [chunks, chunks, capitals]
  cases text.exponent with
  | none =>
      simp only [Option.map_none, List.append_nil, List.map_cons, List.map_nil, Chunk.capitals,
        whole, fraction, point, zero]
  | some exponent =>
      simp only [Option.map_some, List.cons_append, List.nil_append, List.map_cons, List.map_nil,
        Chunk.capitals, whole, fraction, point, zero, map_capital_exponentText]

theorem size_capitals (text : FloatText) : text.capitals.size = text.size := by
  rw [size, size, capitals]
  cases text.exponent <;> rfl

section Styles

variable (value : Binary64) (precision : Nat) (alternate : Bool)

theorem capitals_exponential : exponential value precision true alternate =
    (exponential value precision false alternate).capitals := rfl

theorem capitals_fixed : fixed value precision alternate =
    (fixed value precision alternate).capitals := rfl

theorem capitals_general [Build] : general value precision true alternate =
    (general value precision false alternate).map capitals := by
  rw [general, general]
  split
  · simp only [Option.map_map]
    rfl
  · rfl

end Styles

end FloatText

namespace Field

/-- A layout in capitals. -/
def Layout.capitals (layout : Layout) : Layout :=
  { layout with
    sign := layout.sign.map capital
    mark := layout.mark.map capital
    body := layout.body.map Chunk.capitals }

/-- Padding is the same in capitals, and a conversion has no part in it. -/
theorem Layout.chunks_capitals (layout : Layout) (spec : Spec) (conversion : UInt8) :
    layout.capitals.chunks { spec with conversion } =
      (layout.chunks spec).map Chunk.capitals := by
  have space : capital (octet ' ') = octet ' ' := rfl
  have zero : capital (octet '0') = octet '0' := rfl
  have width : Spec.minimumWidth { spec with conversion } = spec.minimumWidth := rfl
  have size : layout.capitals.contentSize = layout.contentSize := by
    simp only [contentSize, capitals, List.length_map]
  rw [chunks, chunks, size, width]
  simp only [capitals, List.map_append, List.map_cons, List.map_nil, Chunk.capitals, space, zero]
  rfl

theorem map_capital_sign (negative positive : Bool) (flags : Flags) :
    (sign negative positive flags).map capital = sign negative positive flags := by
  rcases sign_cases negative positive flags with ⟨-, minus⟩ | ⟨-, none | plus | space⟩
  · rw [minus]
    rfl
  · rw [none]
    rfl
  · rw [plus]
    rfl
  · rw [space]
    rfl

variable (spec : Spec)

/-- The prefix `0x` becomes `0X`. -/
theorem map_capital_baseMark (value leadingZeros : Nat) :
    (baseMark value leadingZeros { spec with conversion := octet 'x' }).map capital =
      baseMark value leadingZeros { spec with conversion := octet 'X' } := by
  rw [baseMark, baseMark]
  dsimp only
  split <;> rfl

theorem unsigned_capitals (value : Nat) :
    unsigned value { spec with conversion := octet 'X' } =
      (unsigned value { spec with conversion := octet 'x' }).map Chunk.capitals := by
  have length : (Numeral.digits 16 value true).length = (Numeral.digits 16 value false).length := by
    rw [← Numeral.map_capital_hexadecimal, List.length_map]
  have lower : base (octet 'x') = (16, false) := rfl
  have upper : base (octet 'X') = (16, true) := rfl
  rw [unsigned, unsigned, lower, upper]
  dsimp only
  rw [length, ← map_capital_baseMark, ← Numeral.map_capital_hexadecimal,
    ← Layout.chunks_capitals _ { spec with conversion := octet 'x' } (octet 'X')]
  rfl

theorem word_capitals (body sign : Bytes) (conversion : UInt8) :
    word (body.map capital) (sign.map capital) { spec with conversion } =
      (word body sign spec).map Chunk.capitals := by
  rw [word, word, ← Layout.chunks_capitals _ spec conversion, List.length_map]
  rfl

/-- The case of a float conversion shows in the flag for upper case and nowhere else. -/
theorem float_letter {letter : UInt8} (known : letter ∈ ascii "feg") :
    (Char.ofUInt8 letter).isUpper = false ∧ (Char.ofUInt8 (capital letter)).isUpper = true ∧
      capital letter ||| 0x20 = letter ||| 0x20 := by
  have all : ∀ letter ∈ ascii "feg", (Char.ofUInt8 letter).isUpper = false ∧
      (Char.ofUInt8 (capital letter)).isUpper = true ∧
      capital letter ||| 0x20 = letter ||| 0x20 := by
    decide +kernel
  exact all letter known

section Doubles

variable [Build]

theorem floatText_capitals (magnitude : Binary64) {letter : UInt8} (known : letter ∈ ascii "feg") :
    floatText magnitude { spec with conversion := capital letter } =
      (floatText magnitude { spec with conversion := letter }).map FloatText.capitals := by
  obtain ⟨lower, upper, folded⟩ := float_letter known
  rw [floatText, floatText, Spec.uppercase, Spec.uppercase, lower, upper]
  dsimp only
  rw [folded]
  split
  · rw [FloatText.capitals_exponential]
    rfl
  · exact FloatText.capitals_general _ _ _
  · nth_rewrite 1 [FloatText.capitals_fixed]
    rfl

theorem proper_floatText {magnitude : Binary64} {text : FloatText}
    (written : floatText magnitude spec = some text) : text.form.Proper := by
  rw [floatText] at written
  split at written
  · obtain rfl := Option.some.inj written
    exact FloatText.proper_exponential _ _ _ _
  · exact (FloatText.proper_general _ _ _ _ written).1
  · obtain rfl := Option.some.inj written
    exact FloatText.proper_ofMagnitude _ _ _

/-- A double in upper case, be it a number, an infinity or a NaN. -/
theorem float_capitals (value : Binary64) {letter : UInt8} (known : letter ∈ ascii "feg") :
    float value { spec with conversion := capital letter } =
      (float value { spec with conversion := letter }).map (·.map Chunk.capitals) := by
  obtain ⟨lower, upper, -⟩ := float_letter known
  have nan : ascii "NAN" = (ascii "nan").map capital := by decide
  have inf : ascii "INF" = (ascii "inf").map capital := by decide
  have sign := map_capital_sign value.isNegative value.isPositive spec.flags
  rw [float, float, Spec.uppercase, Spec.uppercase, lower, upper]
  dsimp only
  simp only [Bool.false_eq_true, if_true, if_false]
  split
  · rw [nan, Option.map_some]
    exact congrArg some (word_capitals { spec with conversion := letter } _ [] (capital letter))
  · split
    · rw [inf, Option.map_some]
      nth_rewrite 1 [← sign]
      exact congrArg some (word_capitals { spec with conversion := letter } _ _ (capital letter))
    · generalize (if value.isNegative then -value else value) = magnitude
      rw [floatText_capitals spec magnitude known, Option.map_map, Option.map_map]
      apply Option.map_congr
      intro text written
      have proper := proper_floatText { spec with conversion := letter } written
      rw [Function.comp_apply, Function.comp_apply, ← FloatText.map_capitals_chunks proper,
        FloatText.size_capitals]
      nth_rewrite 1 [← sign]
      rw [← Layout.chunks_capitals _ { spec with conversion := letter } (capital letter)]
      rfl

end Doubles

end Field

end BoundedPrintf
