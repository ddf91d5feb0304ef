import BoundedPrintf.Bytes

/-! How the program is built. Sizes are machine words, and a sum of two sizes may exceed the largest
one. A build that checks its sums stops the program there; another one wraps around. -/
namespace BoundedPrintf

class Build where
  checksSums : Bool

namespace Build

@[reducible] def checked : Build := ⟨true⟩

@[reducible] def wrapping : Build := ⟨false⟩

end Build

/-- The sum of two sizes, unless it stops the program. -/
def sum? [Build] (a b : Nat) : Option Nat :=
  if a + b ≤ maxSize then some (a + b)
  else if Build.checksSums then none
  else some ((a + b) % (maxSize + 1))

section Sums

variable [Build] {a b : Nat}

theorem sum?_of_le (fits : a + b ≤ maxSize) : sum? a b = some (a + b) := if_pos fits

theorem sum?_eq_none_iff : sum? a b = none ↔ Build.checksSums = true ∧ maxSize < a + b := by
  rw [sum?]
  by_cases fits : a + b ≤ maxSize
  · rw [if_pos fits]
    exact iff_of_false nofun fun ⟨_, more⟩ => absurd fits (Nat.not_le.mpr more)
  · rw [if_neg fits]
    cases Build.checksSums with
    | true => exact iff_of_true rfl ⟨rfl, Nat.not_le.mp fits⟩
    | false => exact iff_of_false nofun fun ⟨checks, _⟩ => Bool.false_ne_true checks

end Sums

end BoundedPrintf
