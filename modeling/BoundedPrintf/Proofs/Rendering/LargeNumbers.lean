import Mathlib
import BoundedPrintf.Proofs.Field.Spelling
import BoundedPrintf.Proofs.FloatText.Large
import BoundedPrintf.Proofs.Rendering.Casing

/-! Numbers from 2^53 on. -/
namespace BoundedPrintf

open Binary64 (finite oneUnits overflowUnits Representable)

/-- The meaning of `%.0f`. -/
def Spec.wholeNumber : Spec := { precision := .fixed 0, conversion := octet 'f' }

/-- A text without decimals is the whole part. -/
theorem FloatText.flatten_ofMagnitude_zero (value : Binary64) :
    Chunk.flatten (ofMagnitude value 0 false).chunks = (IntegralDigits.split value {}).1.bytes := by
  have fraction : (ofMagnitude value 0 false).form.decimals = [] := rfl
  rw [flatten_chunks_eq_form (regular_ofMagnitude value 0 false), DecimalForm.bytes, fraction]
  exact (List.append_nil _).trans ((List.append_nil _).trans (List.append_nil _))

/-- Without a width and a sign nothing is added to a text. -/
theorem Field.flatten_bare (text : FloatText) (zeroFill : Bool) :
    Chunk.flatten (Layout.chunks
      { sign := [], body := text.chunks, bodySize := text.size, zeroFill } Spec.wholeNumber) =
      Chunk.flatten text.chunks := by
  have noWidth : Spec.wholeNumber.minimumWidth = 0 := rfl
  rw [Layout.chunks_of_no_width _ noWidth, Layout.flatten_withoutWidth]
  simp only [List.replicate_zero, List.nil_append]

section Rendering

variable [Build] {units : Nat} (large : 2 ^ 52 * oneUnits ≤ units)
include large

/-- The fixed style without decimals shows the digits of the whole part. -/
theorem flatten_whole (digits : IntegralDigits) :
    (Field.float (finite false units) Spec.wholeNumber).map Chunk.flatten =
      some (IntegralDigits.split (finite false units) digits).1.bytes := by
  have unchanged : (finite false units).roundAt 0 = finite false units := by
    rw [Binary64.roundAt, Binary64.wholeFrom_le_finite, decide_eq_true large, if_pos rfl]
  have text : Field.floatText (finite false units) Spec.wholeNumber =
      some (.ofMagnitude (finite false units) 0 false) := by
    have style (value : Binary64) :
        Field.floatText value Spec.wholeNumber = some (.fixed value 0 false) := rfl
    rw [style, FloatText.fixed, unchanged]
  have unsigned (positive : Bool) : Field.sign false positive Spec.wholeNumber.flags = [] := by
    cases positive <;> rfl
  have nan : (finite false units).isNaN = false := rfl
  have infinite : (finite false units).isInfinite = false := rfl
  simp only [Field.float, nan, infinite, Binary64.isNegative_finite, unsigned, text,
    Bool.false_eq_true, if_false, Option.map_some, Field.flatten_bare,
    FloatText.flatten_ofMagnitude_zero]
  exact congrArg some (IntegralDigits.split_congr _ {} digits).1

theorem render_whole (bits : UInt64) (decoded : Binary64.ofBits bits = finite false units)
    (digits : IntegralDigits) (buffer : Array UInt8) (mode : Mode) :
    let shown := (IntegralDigits.split (finite false units) digits).1.bytes
    shown.length < buffer.size →
      emitted buffer (ascii "%.0f") [.double bits] mode = shown ∧
        (render buffer (ascii "%.0f") [.double bits] mode).result = .ok shown.length := by
  intro shown room
  have single : Template.segments (ascii "%.0f") = [⟨.directive Spec.wholeNumber, 4⟩] := by
    decide +kernel
  have known : Spec.wholeNumber.conversion ∈ ascii "fegFEG" := by decide +kernel
  have emits : (Spec.wholeNumber.action (Cursor.ofList [.double bits])).1 = .emit shown := by
    have effect := Spec.effect_of_float Spec.wholeNumber (some (.double bits)) known
    have argument : Argument.Supply.double (some (.double bits)) = bits := rfl
    have action : (Spec.wholeNumber.action (Cursor.ofList [.double bits])).1 =
        .ofEffect (Spec.wholeNumber.effect (some (.double bits))) := rfl
    obtain ⟨chunks, field, flat⟩ := Option.map_eq_some_iff.mp (flatten_whole large digits)
    have same : Field.float (finite false units)
        { Spec.wholeNumber with conversion := Spec.wholeNumber.conversion } = some chunks := field
    rw [argument, decoded, same] at effect
    rw [action]
    exact (congrArg Action.ofEffect effect).trans (congrArg Action.emit flat)
  exact render_directive_emits single emits room mode

end Rendering

/-- A value from 2^53 on has no fraction. -/
theorem Binary64.whole_of_large {units : Nat} (representable : Representable units)
    (large : 2 ^ 53 * oneUnits ≤ units) : ∃ number, units = number * oneUnits := by
  obtain ⟨number, parts⟩ : oneUnits ∣ units := by
    rw [oneUnits] at large ⊢
    exact @Representable.two_pow_dvd units 1074 representable large
  exact ⟨number, parts.trans (Nat.mul_comm ..)⟩

theorem Binary64.exists_number {bits : UInt64} (isFinite : (ofBits bits).isFinite = true)
    (large : 2 ^ 53 ≤ (ofBits bits).toRat) (small : (ofBits bits).toRat < 10 ^ 99) :
    ∃ number : Nat, ofBits bits = finite false (number * oneUnits) ∧ (ofBits bits).toRat = number ∧
      2 ^ 53 ≤ number ∧ number < 10 ^ 99 := by
  have nonneg : 0 ≤ (ofBits bits).toRat := le_trans (by norm_num) large
  obtain ⟨units, decoded, rational⟩ := units_of_nonneg isFinite nonneg
  have reached : 2 ^ 53 * oneUnits ≤ units := by
    apply le_of_le_toRat
    rw [← rational]
    exact_mod_cast large
  rcases decoded with positive | ⟨-, zero⟩
  · obtain ⟨number, parts⟩ := whole_of_large (representable_ofBits positive).1 reached
    have value : (ofBits bits).toRat = number := by
      rw [rational, parts, Nat.cast_mul, mul_div_cancel_right₀ _ oneUnits_pos_rat.ne']
    rw [value] at large small
    rw [parts] at positive
    exact ⟨number, positive, value, by exact_mod_cast large, by exact_mod_cast small⟩
  · have one := oneUnits_pos
    omega

/-- From 2^53 up to 10^99 the numeral of a value is off by no more than a 2^42nd part of it, and exact
where no sum of leading digits is rounded. The directive `%.0f` shows the same digits. -/
theorem large_numbers_shown [Build] (bits : UInt64) (digits : IntegralDigits)
    (isFinite : (Binary64.ofBits bits).isFinite = true)
    (large : 2 ^ 53 ≤ (Binary64.ofBits bits).toRat)
    (small : (Binary64.ofBits bits).toRat < 10 ^ 99) :
    let value := Binary64.ofBits bits
    let shown := (IntegralDigits.split value digits).1.bytes
    let fraction := (IntegralDigits.split value digits).2
    ∃ number : Nat, value.toRat = number ∧
      |(Numeral.number shown : ℚ) - number| ≤ number / 2 ^ 42 ∧
      fraction.isFinite = true ∧ 0 ≤ fraction.toRat ∧ fraction.toRat ≤ number / 2 ^ 42 ∧
      ((number < 2 ^ 54 ∨ number ≤ 10 ^ 22 ∧
          ∀ place, Representable (Numeral.truncated number place * oneUnits)) →
        shown = Numeral.spelled 10 false number ∧ fraction = Binary64.zero) ∧
      ∀ (buffer : Array UInt8) (mode : Mode), shown.length < buffer.size →
        emitted buffer (ascii "%.0f") [.double bits] mode = shown ∧
          (render buffer (ascii "%.0f") [.double bits] mode).result = .ok shown.length := by
  intro value shown fraction
  obtain ⟨number, decoded, rational, least, most⟩ := Binary64.exists_number isFinite large small
  have representable : Representable (number * oneUnits) := (Binary64.representable_ofBits decoded).1
  have same : value = finite false (number * oneUnits) := decoded
  obtain ⟨above, below, rest, left, few⟩ := IntegralDigits.split_near representable least most digits
  have exact := IntegralDigits.split_eq_of_kept representable (by omega : 0 < number)
  have whole : 2 ^ 52 * oneUnits ≤ number * oneUnits := Nat.mul_le_mul_right _ (by omega)
  have shows := render_whole whole bits decoded digits
  rw [← same] at above below left exact shows
  have answered : fraction = finite false rest := left
  have share : (0 : ℚ) < 2 ^ 42 := by norm_num
  refine ⟨number, rational, ?_, ?_, ?_, ?_, fun kept => exact kept digits, shows⟩
  · have upper : (2 ^ 42 * Numeral.number shown : ℚ) ≤ 2 ^ 42 * number + number := by exact_mod_cast above
    have lower : (2 ^ 42 * number : ℚ) ≤ 2 ^ 42 * Numeral.number shown + number := by exact_mod_cast below
    rw [le_div_iff₀ share, ← abs_of_pos share, ← abs_mul, abs_le]
    constructor <;> linarith
  · rw [answered]
    rfl
  · rw [answered, Binary64.toRat_finite]
    exact div_nonneg (Nat.cast_nonneg _) (Nat.cast_nonneg _)
  · have part : ((2 ^ 42 : Nat) : ℚ) = 2 ^ 42 := by norm_num
    rw [answered, Binary64.toRat_finite, ← part]
    exact Binary64.div_oneUnits_le (Nat.two_pow_pos 42) few

/-- The largest power of ten that is representable has room in 24 bytes. -/
theorem largest_power_shown :
    let _ : Build := .checked
    let value := Binary64.ofBits 0x4480F0CF064DD592
    value.isFinite = true ∧ 2 ^ 53 ≤ value.toRat ∧ value.toRat < 10 ^ 99 ∧
      emitted (Array.replicate 24 0xAA) (ascii "%.0f") [.double 0x4480F0CF064DD592] .strict =
        ascii "10000000000000000000000" := by
  intro _ value
  have isFinite : value.isFinite = true := by decide +kernel
  have decoded : value = finite false (10 ^ 22 * oneUnits) := by decide +kernel
  have rational : value.toRat = 10 ^ 22 := by
    rw [decoded, Binary64.toRat_finite, Nat.cast_mul, mul_div_cancel_right₀ _ Binary64.oneUnits_pos_rat.ne']
    norm_num
  have large : 2 ^ 53 ≤ value.toRat := by
    rw [rational]
    norm_num
  have small : value.toRat < 10 ^ 99 := by
    rw [rational]
    norm_num
  obtain ⟨number, same, -, -, -, -, exact, shows⟩ :=
    large_numbers_shown 0x4480F0CF064DD592 {} isFinite large small
  obtain rfl : number = 10 ^ 22 := by
    have equal : (number : ℚ) = (10 ^ 22 : Nat) := by
      rw [← same]
      exact rational.trans (by norm_num)
    exact Nat.cast_injective equal
  have kept : ∀ place, Representable (Numeral.truncated (10 ^ 22) place * oneUnits) := by
    intro place
    rcases Nat.lt_or_ge 22 place with above | inside
    · have none : 10 ^ 22 / 10 ^ place = 0 := Nat.div_eq_of_lt (Nat.pow_lt_pow_right (by decide) above)
      rw [Numeral.truncated, none, Nat.zero_mul, Nat.zero_mul]
      exact Binary64.representable_zero
    · rw [Numeral.truncated, Nat.div_mul_cancel (Nat.pow_dvd_pow 10 inside), ← Nat.one_mul (10 ^ 22)]
      exact Binary64.representable_mul_pow (by decide)
  obtain ⟨digits, -⟩ := exact (.inr ⟨le_rfl, kept⟩)
  have numeral : Numeral.spelled 10 false (10 ^ 22) = ascii "10000000000000000000000" := by
    decide +kernel
  rw [numeral] at digits
  have shown := (shows (Array.replicate 24 0xAA) .strict (by rw [digits]; decide)).1
  exact ⟨isFinite, large, small, shown.trans digits⟩

/-- Two steps behind 2^54 the sum of all digits but the last is rounded up to the value itself, which
leaves nothing for the last digit. -/
theorem last_digit_lost :
    let value := Binary64.ofBits 0x4350000000000002
    value.isFinite = true ∧ value.toRat = 18014398509481992 ∧
      (IntegralDigits.split value {}).1.bytes = ascii "18014398509481990" ∧
      (IntegralDigits.split value {}).1.bytes ≠ Numeral.spelled 10 false 18014398509481992 ∧
      (IntegralDigits.split value {}).2 = Binary64.zero := by
  intro value
  have decoded : value = finite false (18014398509481992 * oneUnits) := by decide +kernel
  have rational : value.toRat = 18014398509481992 := by
    rw [decoded, Binary64.toRat_finite, Nat.cast_mul, mul_div_cancel_right₀ _ Binary64.oneUnits_pos_rat.ne']
    norm_num
  refine ⟨?_, rational, ?_⟩
  · decide +kernel
  · decide +kernel

end BoundedPrintf
