import Mathlib
import BoundedPrintf.Proofs.FloatText.Digits
import BoundedPrintf.Proofs.Numeral.Reading
import BoundedPrintf.Proofs.FloatText.Parts
import BoundedPrintf.Proofs.Sink.Stream

/-! The form of a float text, `I [.] D [e sign X]`. The size that padding relies on is announced before
the text is written, and the two agree since an exponent never takes more than three digits. -/
namespace BoundedPrintf

/-- A decimal numeral. The point, the decimals and the exponent can be missing. -/
structure DecimalForm where
  whole : Bytes
  point : Bool
  decimals : Bytes
  /-- The marker and the value of the exponent. -/
  exponent : Option (UInt8 × Int)

namespace DecimalForm

/-- The numeral of an absolute value, with two digits at least. -/
def padded (exponent : Int) : Bytes :=
  (Numeral.spelled 10 false exponent.natAbs).leftpad 2 (octet '0')

def exponentBytes : Option (UInt8 × Int) → Bytes
  | none => []
  | some (marker, exponent) =>
      marker :: octet (if exponent < 0 then '-' else '+') :: padded exponent

def bytes (form : DecimalForm) : Bytes :=
  form.whole ++ (if form.point then [octet '.'] else []) ++ form.decimals ++
    exponentBytes form.exponent

/-- The number that a numeral denotes. -/
def value (form : DecimalForm) : ℚ :=
  (Numeral.number (form.whole ++ form.decimals) : ℚ) / 10 ^ form.decimals.length *
    10 ^ (form.exponent.elim 0 Prod.snd)

/-- The grammar of a numeral, with the bounds of its parts. -/
structure Proper (form : DecimalForm) : Prop where
  whole_digits : ∀ b ∈ form.whole, isDigit b = true
  whole_length : 1 ≤ form.whole.length ∧ form.whole.length ≤ 99
  no_leading_zero : form.whole.head? = some (octet '0') → form.whole = [octet '0']
  decimal_digits : ∀ b ∈ form.decimals, isDigit b = true
  point_before_decimals : form.decimals ≠ [] → form.point = true
  exponent : ∀ marker exponent, form.exponent = some (marker, exponent) →
    (marker = octet 'e' ∨ marker = octet 'E') ∧
      ((padded exponent).length = 2 ∨ (padded exponent).length = 3)

end DecimalForm

namespace FloatText

variable {text : FloatText}

/-- The form in which the parts of a text are written. -/
def form (text : FloatText) : DecimalForm :=
  { whole := text.integral
    point := text.point
    decimals := text.fraction ++ List.replicate text.trailingZeros (octet '0')
    exponent := text.exponent }

/-- A text writes bytes of its announced length, all of them wherever there is room. -/
def Writes (text : FloatText) (bytes : Bytes) : Prop :=
  bytes.length = text.length ∧ ∀ sink : Sink, text.length ≤ sink.room →
    ∃ after, sink.emitAll text.chunks = (after, true) ∧ after.output = sink.output ++ bytes

section Exponents

variable {exponent : Int}

theorem exponentText_eq_padded (small : exponent.natAbs < 1000) :
    exponentText exponent =
      octet (if exponent < 0 then '-' else '+') :: DecimalForm.padded exponent := by
  have length : (Numeral.decimal exponent.natAbs).length = Nat.log 10 exponent.natAbs + 1 :=
    Numeral.length_digits (by decide) (by omega)
  rw [exponentText, DecimalForm.padded, ← Numeral.decimal_eq_spelled (by omega), List.leftpad, length]
  congr 1
  split
  · next single =>
      rw [Nat.log_of_lt single]
      rfl
  · next several =>
      have more : 1 ≤ Nat.log 10 exponent.natAbs := Nat.log_pos (by decide) (by omega)
      rw [Nat.sub_eq_zero_of_le (by omega)]
      rfl

theorem length_padded (small : exponent.natAbs < 1000) :
    (DecimalForm.padded exponent).length = 2 ∨ (DecimalForm.padded exponent).length = 3 := by
  have length := length_exponentText small
  rw [exponentText_eq_padded small, List.length_cons, exponentSize] at length
  split at length <;> omega

end Exponents

section Forms

theorem flatten_chunks_eq_form (regular : text.Regular) :
    Chunk.flatten text.chunks = text.form.bytes := by
  rw [chunks, DecimalForm.bytes, form]
  cases given : text.exponent with
  | none =>
      simp only [Chunk.flatten, List.append_nil, List.flatMap_cons, List.flatMap_nil, Chunk.bytes,
        DecimalForm.exponentBytes, List.append_assoc]
  | some exponent =>
      obtain ⟨marker, exponent⟩ := exponent
      have spelled := exponentText_eq_padded (regular.exponent marker exponent given)
      simp only [Chunk.flatten, List.flatMap_append, List.append_nil, List.flatMap_cons,
        List.flatMap_nil, Chunk.bytes, DecimalForm.exponentBytes, List.append_assoc, spelled]

/-- What is announced is written, unless a machine word cannot tell it. -/
theorem writes_form (regular : text.Regular) (small : text.size ≤ maxSize) :
    text.Writes text.form.bytes := by
  have announced : text.length = text.size := Nat.min_eq_left small
  have length : text.form.bytes.length = text.length := by
    rw [announced, ← regular.sizes_chunks, ← flatten_chunks_eq_form regular, Chunk.length_flatten]
  refine ⟨length, ?_⟩
  intro sink room
  have taken := sink.takes_write text.form.bytes
  rw [sink.emitAll_eq_write, flatten_chunks_eq_form regular]
  rw [← length] at room
  refine ⟨(sink.write text.form.bytes).1, Prod.ext rfl (taken.fits.mpr room), ?_⟩
  rw [taken.output, List.take_of_length_le room]

theorem length_decimals (text : FloatText) :
    text.form.decimals.length = text.fraction.length + text.trailingZeros := by
  rw [form, List.length_append, List.length_replicate]

theorem size_le_add (proper : text.form.Proper) : text.size ≤ text.form.decimals.length + 105 := by
  have whole : text.integral.length ≤ 99 := proper.whole_length.2
  have point : text.point.toNat ≤ 1 := Bool.toNat_le _
  have exponent (exponent : Int) : exponentSize exponent ≤ 5 := by
    rw [exponentSize]
    split <;> decide
  rw [length_decimals, size]
  split
  · omega
  · next shown _ =>
      have most := exponent shown
      omega

theorem size_le (proper : text.form.Proper) (few : text.form.decimals.length ≤ 2 ^ 32) :
    text.size ≤ maxSize := by
  have room : 2 ^ 32 + 105 ≤ maxSize := by decide
  have size := size_le_add proper
  omega

end Forms

section Magnitudes

variable (value : Binary64) (precision : Nat) (upper alternate : Bool)

theorem decimals_ofMagnitude :
    (ofMagnitude value precision alternate).fraction.length ≤ maxFractionDigits ∧
      (ofMagnitude value precision alternate).form.decimals.length = precision := by
  rw [length_decimals, ofMagnitude]
  dsimp only
  rw [length_fractionDigits]
  omega

theorem proper_ofMagnitude : (ofMagnitude value precision alternate).form.Proper := by
  obtain ⟨nonempty, digits, -⟩ := regular_ofMagnitude value precision alternate
  obtain ⟨most, single⟩ := IntegralDigits.split_numeral value {}
  have length := (decimals_ofMagnitude value precision alternate).2
  refine ⟨digits, ⟨List.length_pos_of_ne_nil nonempty, most⟩, single, ?_, ?_, nofun⟩
  · intro b member
    rcases List.mem_append.mp member with fraction | zero
    · exact isDigit_fractionDigits _ _ b fraction
    · rw [List.eq_of_mem_replicate zero]
      rfl
  · intro some
    have positive := List.length_pos_of_ne_nil some
    rw [length] at positive
    have point : (ofMagnitude value precision alternate).form.point =
        (decide (0 < precision) || alternate) := rfl
    rw [point, decide_eq_true positive, Bool.true_or]

theorem point_ofMagnitude : (ofMagnitude value precision alternate).form.point = true ↔
    0 < precision ∨ alternate = true := by
  have point : (ofMagnitude value precision alternate).form.point =
      (decide (0 < precision) || alternate) := rfl
  rw [point, Bool.or_eq_true, decide_eq_true_eq]

/-- Rounding settles the mantissa and the exponent of the exponential style. -/
theorem form_exponential : (exponential value precision upper alternate).form =
    { (ofMagnitude (value.normalize precision).1 precision alternate).form with
      exponent := some (octet (if upper then 'E' else 'e'), (value.normalize precision).2) } := rfl

theorem proper_exponential : (exponential value precision upper alternate).form.Proper := by
  have proper := proper_ofMagnitude (value.normalize precision).1 precision alternate
  have small := Binary64.natAbs_normalize_le value precision
  rw [form_exponential]
  refine { proper with exponent := ?_ }
  rintro marker exponent ⟨⟩
  refine ⟨?_, length_padded (by omega)⟩
  cases upper with
  | false => exact .inl rfl
  | true => exact .inr rfl

theorem proper_strip (proper : text.form.Proper) : (text.strip alternate).form.Proper := by
  refine ⟨proper.whole_digits, proper.whole_length, proper.no_leading_zero, ?_, ?_, proper.exponent⟩
  · intro b member
    rcases List.mem_append.mp member with kept | none
    · have before : b ∈ text.fraction :=
        List.mem_reverse.mp ((List.dropWhile_sublist _).mem (List.mem_reverse.mp kept))
      exact proper.decimal_digits b (List.mem_append_left _ before)
    · cases none
  · intro some
    have kept : (text.strip alternate).fraction ≠ [] := by
      intro none
      apply some
      rw [form, none]
      rfl
    have point : (text.strip alternate).form.point =
        (!(text.strip alternate).fraction.isEmpty || alternate) := rfl
    rw [point, List.isEmpty_eq_false_iff.mpr kept]
    rfl

theorem length_decimals_strip (few : text.fraction.length ≤ maxFractionDigits) :
    (text.strip alternate).form.decimals.length ≤ maxFractionDigits := by
  have fewer : ((text.fraction.reverse.dropWhile (· = octet '0')).reverse).length ≤
      text.fraction.length := by
    rw [List.length_reverse, ← @List.length_reverse _ text.fraction]
    exact (List.dropWhile_sublist _).length_le
  rw [length_decimals]
  exact fewer.trans few

/-- What the general style drops zeros from is a text of one of the other styles. -/
theorem proper_general [Build] (written : general value precision upper alternate = some text) :
    text.form.Proper ∧ text.form.decimals.length ≤ maxFractionDigits ∧
      (text.form.exponent = none ∨ text.form.exponent =
        some (octet (if upper then 'E' else 'e'), (value.normalize (max precision 1 - 1)).2)) := by
  have few (value : Binary64) (precision : Nat) :=
    (decimals_ofMagnitude value precision alternate).1
  obtain ⟨plain, rfl, ⟨places, rfl⟩ | rfl⟩ := plain_of_general written
  · exact ⟨proper_strip alternate (proper_ofMagnitude _ _ _),
      length_decimals_strip alternate (few _ _), .inl rfl⟩
  · exact ⟨proper_strip alternate (proper_exponential _ _ _ _),
      length_decimals_strip alternate (few _ _), .inr rfl⟩

/-- A text of the fixed style with decimals for the whole precision is written as its form says. -/
theorem fixed_writes (few : precision ≤ 2 ^ 32 + 2) :
    (fixed value precision alternate).Writes (fixed value precision alternate).form.bytes := by
  have proper := proper_ofMagnitude (value.roundAt precision) precision alternate
  have decimals := (decimals_ofMagnitude (value.roundAt precision) precision alternate).2
  have size := size_le_add proper
  have room : 2 ^ 32 + 2 + 105 ≤ maxSize := by decide
  apply writes_form (regular_ofMagnitude _ _ _)
  omega

theorem exponential_writes (few : precision ≤ 2 ^ 32) :
    (exponential value precision upper alternate).Writes
      (exponential value precision upper alternate).form.bytes := by
  have proper := proper_exponential value precision upper alternate
  have decimals := (decimals_ofMagnitude (value.normalize precision).1 precision alternate).2
  exact writes_form (regular_exponential value precision upper alternate)
    (size_le proper (decimals.le.trans few))

theorem general_writes [Build] (written : general value precision upper alternate = some text) :
    text.Writes text.form.bytes := by
  obtain ⟨proper, decimals, -⟩ := proper_general value precision upper alternate written
  have short : maxFractionDigits ≤ 2 ^ 32 := by decide
  exact writes_form (regular_general written) (size_le proper (decimals.trans short))

end Magnitudes

/-- Each style writes a numeral of the announced length. The fixed and the exponential style keep all
the decimals asked for. -/
theorem numerals_written [Build] (value : Binary64) (precision : Nat) (upper alternate : Bool)
    (few : precision ≤ 2 ^ 32) :
    (∃ form : DecimalForm, (fixed value precision alternate).Writes form.bytes ∧ form.Proper ∧
      form.decimals.length = precision ∧ (form.point = true ↔ 0 < precision ∨ alternate = true) ∧
      form.exponent = none) ∧
    (∃ form : DecimalForm, (exponential value precision upper alternate).Writes form.bytes ∧
      form.Proper ∧ form.decimals.length = precision ∧
      (form.point = true ↔ 0 < precision ∨ alternate = true) ∧
      form.exponent = some (octet (if upper then 'E' else 'e'), (value.normalize precision).2)) ∧
    ∃ (text : FloatText) (form : DecimalForm),
      general value precision upper alternate = some text ∧ text.Writes form.bytes ∧
      form.Proper ∧ (form.exponent = none ∨ form.exponent =
        some (octet (if upper then 'E' else 'e'), (value.normalize (max precision 1 - 1)).2)) := by
  refine ⟨?_, ?_, ?_⟩
  · have proper := proper_ofMagnitude (value.roundAt precision) precision alternate
    have decimals := (decimals_ofMagnitude (value.roundAt precision) precision alternate).2
    have point := point_ofMagnitude (value.roundAt precision) precision alternate
    have regular := regular_ofMagnitude (value.roundAt precision) precision alternate
    refine ⟨_, writes_form regular ?_, proper, decimals, point, rfl⟩
    exact size_le proper (decimals.le.trans few)
  · have proper := proper_exponential value precision upper alternate
    have decimals := (decimals_ofMagnitude (value.normalize precision).1 precision alternate).2
    have regular := regular_exponential value precision upper alternate
    have point := point_ofMagnitude (value.normalize precision).1 precision alternate
    refine ⟨_, writes_form regular ?_, proper, decimals, point, rfl⟩
    exact size_le proper (decimals.le.trans few)
  · have word : 2 ^ 32 ≤ maxSize - 2 := by decide
    have written := general_of_few value upper alternate (few.trans word)
    obtain ⟨proper, -, exponent⟩ := proper_general value precision upper alternate written
    exact ⟨_, _, written, general_writes value precision upper alternate written, proper, exponent⟩

theorem thousands_written : (2 : Nat) ≤ 2 ^ 32 ∧
    ∃ form : DecimalForm,
      (exponential (.ofBits 0x40934A0000000000) 2 true false).Writes form.bytes ∧ form.Proper ∧
      form.decimals.length = 2 ∧ form.exponent = some (octet 'E', 3) := by
  let _ : Build := .wrapping
  have few : (2 : Nat) ≤ 2 ^ 32 := by decide
  obtain ⟨-, ⟨form, writes, proper, decimals, -, exponent⟩, -⟩ :=
    numerals_written (.ofBits 0x40934A0000000000) 2 true false few
  have three : ((Binary64.ofBits 0x40934A0000000000).normalize 2).2 = 3 := by decide +kernel
  rw [three] at exponent
  exact ⟨few, form, writes, proper, decimals, exponent⟩

end FloatText

end BoundedPrintf
