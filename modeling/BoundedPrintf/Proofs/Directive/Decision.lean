import BoundedPrintf.Directive.Parser
import Mathlib.Data.List.TakeWhile

/-! Reading a directive stops at the first byte that is no modifier. That byte decides, and nothing
behind it is looked at. -/
namespace BoundedPrintf

namespace Directive

variable {modifiers text rest : Bytes} {byte : UInt8}

/-- A directive is decided by the first byte that is no modifier, or by none. -/
theorem decided_or_not (text : Bytes) : (∀ b ∈ text, isModifier b = true) ∨
    ∃ modifiers byte rest, text = modifiers ++ byte :: rest ∧
      (∀ b ∈ modifiers, isModifier b = true) ∧ isModifier byte = false := by
  induction text with
  | nil => exact .inl nofun
  | cons first text ih =>
      cases decides : isModifier first with
      | false => exact .inr ⟨[], first, text, rfl, nofun, decides⟩
      | true =>
          rcases ih with all | ⟨modifiers, byte, rest, rfl, all, decided⟩
          · exact .inl (List.forall_mem_cons.mpr ⟨decides, all⟩)
          · exact .inr ⟨first :: modifiers, byte, rest, rfl,
            List.forall_mem_cons.mpr ⟨decides, all⟩, decided⟩

theorem parse_decided (all : ∀ b ∈ modifiers, isModifier b = true)
    (decides : isModifier byte = false) :
    parse (modifiers ++ byte :: rest) =
      ((modifiers.foldl Draft.step {}).finish byte, modifiers.length + 1) := by
  have run : (modifiers ++ byte :: rest).takeWhile isModifier = modifiers := by
    rw [List.takeWhile_append_of_pos all, List.takeWhile_cons_of_neg (by simp [decides]),
      List.append_nil]
  simp only [parse, run, List.drop_left]

theorem parse_undecided (all : ∀ b ∈ text, isModifier b = true) :
    parse text = (.incomplete, text.length) := by
  have run : text.takeWhile isModifier = text := List.takeWhile_eq_self_iff.mpr all
  simp only [parse, run, List.drop_length]

theorem Draft.finish_ne_incomplete (draft : Draft) (visible : byte ≠ 0) :
    draft.finish byte ≠ .incomplete := by
  simp only [finish, visible, if_false]
  split
  · nofun
  · split <;> nofun

/-- Without a NUL, a directive is unfinished where the text ends too early. -/
theorem length_of_incomplete (clean : ∀ b ∈ text, b ≠ 0)
    (incomplete : (parse text).1 = .incomplete) :
    (parse text).2 = text.length := by
  rcases decided_or_not text with all | ⟨modifiers, byte, rest, rfl, all, decides⟩
  · rw [parse_undecided all]
  · rw [parse_decided all decides] at incomplete
    exact absurd incomplete (Draft.finish_ne_incomplete _ (clean byte (by simp)))

/-- A finished directive does not depend on what follows it. -/
theorem parse_append (second : Bytes) (complete : (parse text).1 ≠ .incomplete) :
    parse (text ++ second) = parse text := by
  rcases decided_or_not text with all | ⟨modifiers, byte, rest, rfl, all, decides⟩
  · rw [parse_undecided all] at complete
    contradiction
  · rw [List.append_assoc, List.cons_append, parse_decided all decides, parse_decided all decides]

end Directive

end BoundedPrintf
