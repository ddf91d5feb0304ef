import Mathlib
import BoundedPrintf.Json.Printer
import BoundedPrintf.Json.Reader

/-! Texts between quotation marks. Every character has a written form of its own, and no written form
ends the text or the line. -/
namespace BoundedPrintf.Json

/-- How a written character is read: by its number if it is a control character without a letter. -/
def symbol (c : Char) : Symbol := if (escape c).length = 6 then .unit c.toNat else .char c

theorem hexValue?_digitChar {value : Nat} (small : value < 16) :
    hexValue? value.digitChar = some value := by
  interval_cases value <;> rfl

theorem unit?_digitChar {value : Nat} (small : value < 32) :
    unit? '0' '0' (value / 16).digitChar (value % 16).digitChar = some (.unit value) := by
  have zero : hexValue? '0' = some 0 := rfl
  have high := hexValue?_digitChar (show value / 16 < 16 by omega)
  have low := hexValue?_digitChar (show value % 16 < 16 by omega)
  have sum : ((0 * 16 + 0) * 16 + value / 16) * 16 + value % 16 = value := by omega
  simp only [unit?, zero, high, low, Option.bind_eq_bind, Option.bind_some, sum]

theorem readSymbols_escape (c : Char) (rest : List Char) :
    readSymbols (escape c ++ rest) =
      (readSymbols rest).map fun (symbols, rest) => (symbol c :: symbols, rest) := by
  have joined : ∀ found : Symbol, (readSymbols rest).bind (fun (symbols, rest) =>
      some (found :: symbols, rest)) = (readSymbols rest).map fun (symbols, rest) =>
        (found :: symbols, rest) := fun found => by cases readSymbols rest <;> rfl
  unfold symbol escape
  split
  iterate 7 exact joined _
  next quote backslash _ _ _ _ _ =>
    split
    · next control =>
        have unit := unit?_digitChar (show c.toNat < 32 from control)
        simp only [List.cons_append, List.nil_append, readSymbols, unit, Option.bind_eq_bind,
          Option.bind_some, joined]
        rfl
    · next printable =>
        rw [List.singleton_append, readSymbols.eq_5 c rest quote, if_neg printable]
        · exact joined (.char c)
        · exact fun _ _ _ _ _ same _ => backslash same
        · exact fun _ _ same _ => backslash same

theorem readSymbols_escaped (text rest : List Char) :
    readSymbols (text.flatMap escape ++ '"' :: rest) = some (text.map symbol, rest) := by
  induction text with
  | nil => rfl
  | cons c text ih =>
      rw [List.flatMap_cons, List.append_assoc, readSymbols_escape, ih, Option.map_some,
        List.map_cons]

theorem characters?_unit {value : Nat} (plain : value < 0xD800) (rest : List Symbol) :
    characters? (.unit value :: rest) = (characters? rest).map (Char.ofNat value :: ·) := by
  have single : ¬ (0xD800 ≤ value ∧ value < 0xE000) := by omega
  have notHigh : ¬ (0xD800 ≤ value ∧ value < 0xDC00) := by omega
  have notLow : ¬ (0xDC00 ≤ value ∧ value < 0xE000) := by omega
  match rest with
  | [] | .char _ :: _ => simp only [characters?, if_neg single]
  | .unit low :: rest => rw [characters?, if_neg notHigh, if_neg notLow]

theorem lt_of_length_escape {c : Char} (numbered : (escape c).length = 6) : c.toNat < 32 := by
  unfold escape at numbered
  split at numbered
  iterate 7 simp at numbered
  next =>
    split at numbered
    · next control => exact control
    · simp at numbered

theorem characters?_map_symbol (text : List Char) : characters? (text.map symbol) = some text := by
  induction text with
  | nil => rfl
  | cons c text ih =>
      rw [List.map_cons, symbol]
      split
      · next numbered =>
          have control := lt_of_length_escape numbered
          rw [characters?_unit (by omega), ih, Option.map_some, Char.ofNat_toNat]
      · rw [characters?, ih, Option.map_some]

/-- Reading a text between quotation marks gives back what was written. -/
theorem readText_escaped (text : String) (rest : List Char) :
    readText (text.toList.flatMap escape ++ '"' :: rest) = some (some text, rest) := by
  simp [readText, readSymbols_escaped, characters?_map_symbol]

theorem printable_digitChar {value : Nat} (small : value < 16) : ' ' ≤ value.digitChar := by
  interval_cases value <;> decide

/-- What is written has no line breaks and no other control characters. -/
theorem printable_escape {c : Char} : ∀ d ∈ escape c, ' ' ≤ d := by
  unfold escape
  split
  iterate 7
    exact List.forall_mem_cons.mpr ⟨by decide, List.forall_mem_singleton.mpr (by decide)⟩
  next =>
    split
    · next control =>
        have below : c.toNat < 32 := control
        have high : ' ' ≤ (c.toNat / 16).digitChar := printable_digitChar (by omega)
        have low : ' ' ≤ (c.toNat % 16).digitChar := printable_digitChar (by omega)
        simp only [List.forall_mem_cons]
        exact ⟨by decide, by decide, by decide, by decide, high, low, by simp⟩
    · next printable =>
        intro d member
        rw [List.mem_singleton.mp member]
        exact Char.not_lt.mp printable

end BoundedPrintf.Json
