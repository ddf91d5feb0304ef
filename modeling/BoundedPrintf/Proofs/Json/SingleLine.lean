import BoundedPrintf.Proofs.Json.RoundTrip

/-! The compact form of a value is one line: it has no line breaks and no other control characters,
since texts are the only part of a value that can hold any, and they are written escaped. -/
namespace BoundedPrintf.Json

def printable (text : List Char) : Bool := text.all (' ' ≤ ·)

variable {json : Json} {level : Nat} {c : Char} {text more : List Char}

theorem printable_cons (visible : ' ' ≤ c) (rest : printable text) : printable (c :: text) := by
  rw [printable, List.all_cons, Bool.and_eq_true]
  exact ⟨decide_eq_true visible, rest⟩

theorem printable_append (front : printable text) (back : printable more) :
    printable (text ++ more) := by
  rw [printable, List.all_append, Bool.and_eq_true]
  exact ⟨front, back⟩

theorem printable_flatMap {α : Type} {parts : List α} {written : α → List Char}
    (all : ∀ part ∈ parts, printable (written part)) : printable (parts.flatMap written) := by
  rw [printable, List.all_flatMap, List.all_eq_true]
  exact all

theorem printable_textChars (text : String) : printable (textChars text) := by
  have escaped : ∀ c ∈ text.toList, printable (escape c) := fun c _ =>
    List.all_eq_true.mpr fun d inside => decide_eq_true (printable_escape d inside)
  exact printable_cons (by decide) (printable_append (printable_flatMap escaped) rfl)

theorem printable_toDigits (value : Nat) : printable (Nat.toDigits 10 value) := by
  refine List.all_eq_true.mpr fun c member => ?_
  have digit := isDigit_toDigits value c member
  simp only [Char.isDigit, Bool.and_eq_true, decide_eq_true_eq] at digit
  exact decide_eq_true (le_trans (by decide : ' ' ≤ '0') digit.1)

theorem printable_integerChars (value : Int) : printable (integerChars value) := by
  rw [integerChars]
  split
  · exact printable_cons (by decide) (printable_toDigits _)
  · exact printable_toDigits _

theorem printable_bracket {opening closing : Char} {parts : List (List Char)}
    (start : ' ' ≤ opening) (stop : ' ' ≤ closing) (inside : ∀ part ∈ parts, printable part) :
    printable (bracket .compact level opening closing parts) := by
  have closed : printable [closing] := printable_cons stop rfl
  cases parts with
  | nil => exact printable_cons start closed
  | cons first parts =>
      obtain ⟨printed, others⟩ := List.forall_mem_cons.mp inside
      have separated : printable
          (parts.flatMap fun part => ',' :: Style.compact.lead (level + 1) ++ part) :=
        printable_flatMap fun part member => printable_cons (by decide) (others part member)
      have behind : printable (remainder .compact level closing parts) :=
        printable_append (printable_append separated rfl) closed
      rw [bracket_cons]
      exact printable_cons start (printable_append rfl (printable_append printed behind))

theorem itemChars_eq_map (style : Style) (level : Nat) (items : List Json) :
    chars.itemChars style level items = items.map (·.chars style level) := by
  induction items with
  | nil => rfl
  | cons item items ih => rw [chars.itemChars, ih, List.map_cons]

theorem memberChars_eq_map (style : Style) (level : Nat) (members : List (String × Json)) :
    chars.memberChars style level members = members.map fun member =>
      textChars member.1 ++ style.colon ++ member.2.chars style level := by
  induction members with
  | nil => rfl
  | cons member members ih => rw [chars.memberChars, ih, List.map_cons]

theorem printable_chars (exact : Exact json) (level : Nat) :
    printable (json.chars .compact level) := by
  induction exact generalizing level with
  | null => rfl
  | bool value => cases value <;> rfl
  | integer => exact printable_integerChars _
  | string text => exact printable_textChars text
  | array _ ih =>
      refine printable_bracket (by decide) (by decide) ?_
      rw [itemChars_eq_map, List.forall_mem_map]
      intro item member
      exact ih item member _
  | object _ ih =>
      refine printable_bracket (by decide) (by decide) ?_
      rw [memberChars_eq_map, List.forall_mem_map]
      intro member inside
      have named : printable (textChars member.1 ++ [':']) :=
        printable_append (printable_textChars member.1) rfl
      exact printable_append named (ih member inside _)

/-- A value is written on one line. -/
theorem no_line_break_compact (exact : Exact json) : '\n' ∉ json.compact.toList := by
  intro member
  rw [compact, String.toList_ofList] at member
  have visible := List.all_eq_true.mp (printable_chars exact 0) _ member
  simp at visible

end BoundedPrintf.Json
