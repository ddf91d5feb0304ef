import Mathlib
import BoundedPrintf.Log.Validation

/-! The parts of a trace id. A text is cut at pairs of colons, each pair as early as possible, so that
of three colons in a row the last one belongs to the part behind. The number of pairs that a check
counts is one less than the number of these parts. -/
namespace BoundedPrintf.Log

/-- The parts of a text between pairs of colons. A part with a colon behind it has no pair in it, so
the pair that ends it is the first one. -/
inductive Splits : List Char → List (List Char) → Prop
  | last {text : List Char} : ¬ [':', ':'] <:+: text → Splits text [text]
  | part {part rest : List Char} {parts : List (List Char)} : ¬ [':', ':'] <:+: part ++ [':'] →
      Splits rest parts → Splits (part ++ ':' :: ':' :: rest) (part :: parts)

variable {text part rest : List Char} {parts : List (List Char)} {c : Char}

theorem separators_cons (single : ¬ [':', ':'] <+: c :: text) :
    separators (c :: text) = separators text := by
  rw [separators]
  rintro rest rfl rfl
  exact single ⟨rest, rfl⟩

theorem separators_of_single (single : ¬ [':', ':'] <:+: text) : separators text = 0 := by
  induction text with
  | nil => rfl
  | cons c text ih =>
      rw [List.infix_cons_iff, not_or] at single
      obtain ⟨here, later⟩ := single
      rw [separators_cons here, ih later]

/-- Whether a pair stands at the start of a part shows before the pair that ends it is complete. -/
theorem prefix_of_part :
    [':', ':'] <+: c :: (part ++ ':' :: ':' :: rest) ↔ [':', ':'] <+: c :: (part ++ [':']) := by
  have front : c :: (part ++ [':']) <+: c :: (part ++ ':' :: ':' :: rest) := ⟨':' :: rest, by simp⟩
  constructor
  · intro pair
    exact List.prefix_of_prefix_length_le pair front (by simp)
  · intro pair
    exact pair.trans front

theorem separators_part (single : ¬ [':', ':'] <:+: part ++ [':']) (rest : List Char) :
    separators (part ++ ':' :: ':' :: rest) = separators rest + 1 := by
  induction part with
  | nil => rfl
  | cons c part ih =>
      rw [List.cons_append, List.infix_cons_iff, not_or] at single
      obtain ⟨here, later⟩ := single
      rw [List.cons_append, separators_cons (mt prefix_of_part.mp here), ih later]

theorem length_of_splits (splits : Splits text parts) : parts.length = separators text + 1 := by
  induction splits with
  | last single => rw [separators_of_single single, List.length_singleton]
  | part single _ ih => rw [separators_part single, List.length_cons, ih]

theorem splits_cons (single : ¬ [':', ':'] <+: c :: text) (splits : Splits text (part :: parts)) :
    Splits (c :: text) ((c :: part) :: parts) := by
  cases splits with
  | last alone =>
      refine .last ?_
      rw [List.infix_cons_iff, not_or]
      exact ⟨single, alone⟩
  | part alone splits =>
      refine @Splits.part (c :: part) _ _ ?_ splits
      rw [List.cons_append, List.infix_cons_iff, not_or]
      exact ⟨mt prefix_of_part.mpr single, alone⟩

theorem exists_splits (text : List Char) : ∃ part parts, Splits text (part :: parts) := by
  induction text using separators.induct with
  | case1 rest ih =>
      obtain ⟨part, parts, splits⟩ := ih
      have empty : ¬ [':', ':'] <:+: [] ++ [':'] := by decide
      exact ⟨[], part :: parts, .part empty splits⟩
  | case2 c text single ih =>
      obtain ⟨part, parts, splits⟩ := ih
      refine ⟨c :: part, parts, splits_cons ?_ splits⟩
      rintro ⟨rest, pair⟩
      cases pair
      exact single rest rfl rfl
  | case3 =>
      have empty : ¬ [':', ':'] <:+: [] := by decide
      exact ⟨[], [], .last empty⟩

/-- A text has three parts if two pairs of colons are counted in it. -/
theorem separators_eq_two_iff :
    separators text = 2 ↔ ∃ scope run number, Splits text [scope, run, number] := by
  constructor
  · intro counted
    obtain ⟨scope, parts, splits⟩ := exists_splits text
    have length := length_of_splits splits
    rw [counted, List.length_cons] at length
    obtain ⟨run, number, rfl⟩ := List.length_eq_two.mp (Nat.succ.inj length)
    exact ⟨scope, run, number, splits⟩
  · rintro ⟨scope, run, number, splits⟩
    have length := length_of_splits splits
    simpa using length.symm

end BoundedPrintf.Log
