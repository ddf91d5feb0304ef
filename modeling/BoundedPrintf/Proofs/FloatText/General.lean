import Mathlib
import BoundedPrintf.Proofs.FloatText.Form

/-! The general style. It is a text of the fixed or of the exponential style, whichever the exponent of
the exponential style asks for, without the zeros at the end of the decimals. Nothing in front of the
point is dropped, so the number is the same. -/
namespace BoundedPrintf

namespace DecimalForm

variable {form plain : DecimalForm} {alternate : Bool}

/-- A numeral without the zeros at the end of its decimals. A point with nothing behind it is kept in
the alternate form only. -/
structure Stripped (form plain : DecimalForm) (alternate : Bool) : Prop where
  whole : form.whole = plain.whole
  exponent : form.exponent = plain.exponent
  decimals : ∃ zeros, plain.decimals = form.decimals ++ List.replicate zeros (octet '0')
  last : form.decimals.getLast? ≠ some (octet '0')
  point : form.point = true ↔ form.decimals ≠ [] ∨ alternate = true

/-- Zeros at the end of the decimals do not change the number. -/
theorem Stripped.value_eq (stripped : form.Stripped plain alternate) : form.value = plain.value := by
  obtain ⟨zeros, decimals⟩ := stripped.decimals
  have number : Numeral.number (plain.whole ++ plain.decimals) =
      Numeral.number (form.whole ++ form.decimals) * 10 ^ zeros := by
    rw [decimals, ← stripped.whole, ← List.append_assoc, Numeral.number_append,
      List.length_replicate, Numeral.number_zeros, Nat.add_zero]
  have length : plain.decimals.length = form.decimals.length + zeros := by
    rw [decimals, List.length_append, List.length_replicate]
  have positive : (10 : ℚ) ^ zeros ≠ 0 := pow_ne_zero zeros (by norm_num)
  simp only [value, number, length, stripped.exponent, Nat.cast_mul, Nat.cast_pow, Nat.cast_ofNat, pow_add]
  congr 1
  exact (mul_div_mul_right _ _ positive).symm

end DecimalForm

namespace FloatText

variable {text : FloatText}

section Stripping

variable (text : FloatText) (alternate : Bool)

theorem decimals_strip :
    (text.strip alternate).form.decimals = (text.fraction.reverse.dropWhile (· = octet '0')).reverse :=
  List.append_nil _

/-- What is dropped are zeros of the fraction and the zeros that are not written out. -/
theorem decimals_eq_strip : ∃ zeros, text.form.decimals =
    (text.strip alternate).form.decimals ++ List.replicate zeros (octet '0') := by
  obtain ⟨zeros, dropped⟩ : ∃ zeros, text.fraction.reverse.takeWhile (· = octet '0') =
      List.replicate zeros (octet '0') := by
    refine ⟨_, List.eq_replicate_of_mem ?_⟩
    intro b member
    have zero := List.mem_takeWhile_imp (p := (· = octet '0')) member
    exact of_decide_eq_true zero
  have fraction : text.fraction =
      (text.strip alternate).form.decimals ++ List.replicate zeros (octet '0') := by
    calc text.fraction
      _ = text.fraction.reverse.reverse := (List.reverse_reverse _).symm
      _ = (text.fraction.reverse.takeWhile (· = octet '0') ++
            text.fraction.reverse.dropWhile (· = octet '0')).reverse := by
        rw [List.takeWhile_append_dropWhile]
      _ = _ := by rw [dropped, List.reverse_append, List.reverse_replicate, decimals_strip]
  refine ⟨zeros + text.trailingZeros, ?_⟩
  calc text.form.decimals
    _ = text.fraction ++ List.replicate text.trailingZeros (octet '0') := rfl
    _ = _ := by rw [fraction, List.append_assoc, List.replicate_append_replicate]

theorem stripped_strip : (text.strip alternate).form.Stripped text.form alternate := by
  refine ⟨rfl, rfl, decimals_eq_strip text alternate, ?_, ?_⟩
  · intro zero
    rw [decimals_strip, List.getLast?_reverse] at zero
    have kept := List.head?_dropWhile_not (· = octet '0') text.fraction.reverse
    rw [zero] at kept
    exact absurd rfl (of_decide_eq_false kept)
  · have point : (text.strip alternate).form.point =
        (!(text.strip alternate).fraction.isEmpty || alternate) := rfl
    have same : (text.strip alternate).fraction = (text.strip alternate).form.decimals :=
      (decimals_strip text alternate).symm
    rw [point, same, Bool.or_eq_true, Bool.not_eq_true', List.isEmpty_eq_false_iff]

end Stripping

/-- The general style takes the fixed style when the exponent of the exponential style lies above -4 and
below the number of significant digits, and drops nothing but zeros at the end of the decimals. -/
theorem general_style [Build] (value : Binary64) (precision : Nat) (upper alternate : Bool)
    (few : precision ≤ 2 ^ 32) :
    let significant := max precision 1
    ∃ (text : FloatText) (marker : UInt8) (x : Int) (plain : FloatText),
      general value precision upper alternate = some text ∧
      (exponential value (significant - 1) upper alternate).exponent = some (marker, x) ∧
      plain = (if -4 < x ∧ x < significant then fixed value (significant - 1 - x).toNat alternate
        else exponential value (significant - 1) upper alternate) ∧
      (text.form.exponent = none ↔ -4 < x ∧ x < significant) ∧
      (text.form.exponent = none → (plain.form.decimals.length : Int) = significant - 1 - x) ∧
      text.Writes text.form.bytes ∧ text.form.Proper ∧
      plain.Writes plain.form.bytes ∧ plain.form.Proper ∧
      text.form.Stripped plain.form alternate ∧ text.form.value = plain.form.value := by
  intro significant
  have word : 2 ^ 32 ≤ maxSize - 2 := by decide
  have written := general_of_few value upper alternate (few.trans word)
  have proper := (proper_general value precision upper alternate written).1
  have writes := general_writes value precision upper alternate written
  refine ⟨_, _, (value.normalize (significant - 1)).2, _, written, rfl, rfl, ?_⟩
  change let x := (value.normalize (significant - 1)).2; _
  generalize (value.normalize (significant - 1)).2 = x at proper writes ⊢
  by_cases inside : -4 < x ∧ x < significant
  · rw [if_pos inside] at proper writes ⊢
    have places : (significant - 1 - x).toNat ≤ 2 ^ 32 + 2 := by omega
    generalize given : (significant - 1 - x).toNat = decimals at proper writes places ⊢
    have length : (fixed value decimals alternate).form.decimals.length = decimals :=
      (decimals_ofMagnitude (value.roundAt decimals) decimals alternate).2
    have stripped := stripped_strip (fixed value decimals alternate) alternate
    refine ⟨iff_of_true rfl inside, ?_, writes, proper, fixed_writes value decimals alternate places,
      proper_ofMagnitude _ _ _, stripped, stripped.value_eq⟩
    intro _
    rw [length]
    omega
  · rw [if_neg inside] at proper writes ⊢
    have stripped := stripped_strip (exponential value (significant - 1) upper alternate) alternate
    exact ⟨iff_of_false nofun inside, nofun, writes, proper,
      exponential_writes value (significant - 1) upper alternate (by omega),
      proper_exponential _ _ _ _, stripped, stripped.value_eq⟩

/-- The zeros of 100000 are not decimals. -/
theorem hundred_thousand_kept : (6 : Nat) ≤ 2 ^ 32 ∧
    let _ : Build := .wrapping
    ∃ text, general (.ofBits 0x40F86A0000000000) 6 false false = some text ∧
      text.Writes (ascii "100000") := by
  have few : (6 : Nat) ≤ 2 ^ 32 := by decide
  refine ⟨few, ?_⟩
  intro _
  obtain ⟨text, _, _, _, written, -, -, -, -, writes, -⟩ :=
    general_style (.ofBits 0x40F86A0000000000) 6 false false few
  have bytes : (general (.ofBits 0x40F86A0000000000) 6 false false).map (·.form.bytes) =
      some (ascii "100000") := by
    decide +kernel
  rw [written, Option.map_some, Option.some_inj] at bytes
  rw [bytes] at writes
  exact ⟨text, written, writes⟩

end FloatText

end BoundedPrintf
