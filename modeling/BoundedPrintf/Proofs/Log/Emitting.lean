import Mathlib
import BoundedPrintf.Log.Emitter
import BoundedPrintf.Log.Validation

/-! Trace ids and what an emitter writes. An entry that was started by an emitter goes into the log
under the next number, whatever its other fields are filled with. -/
namespace BoundedPrintf.Log

section TraceIds

variable {text : List Char} {scope run : String}

theorem separators_append (plain : ':' ∉ text) (rest : List Char) :
    separators (text ++ rest) = separators rest := by
  induction text with
  | nil => rfl
  | cons c text ih =>
      simp only [List.mem_cons, not_or] at plain
      obtain ⟨other, others⟩ := plain
      have away : c ≠ ':' := fun same => other same.symm
      simp [separators, away, ih others]

theorem plain_toDigits (value : Nat) : ':' ∉ Nat.toDigits 10 value := by
  intro member
  have digit := Nat.isDigit_of_mem_toDigits (by decide) (by decide) member
  simp at digit

theorem plain_padded (width value : Nat) : ':' ∉ (padded width value).toList := by
  rw [padded, String.toList_ofList, List.mem_append, not_or]
  exact ⟨fun zero => by simpa using List.eq_of_mem_replicate zero, plain_toDigits value⟩

/-- A trace id has three parts if its scope and its run have no colons. -/
theorem separators_traceId (scopePlain : ':' ∉ scope.toList) (runPlain : ':' ∉ run.toList)
    (number : Nat) : separators (traceId scope run number).toList = 2 := by
  have last : separators (padded 3 number).toList = 0 := by
    have none := separators_append (plain_padded 3 number) []
    rwa [List.append_nil] at none
  have pair : "::".toList = [':', ':'] := rfl
  simp only [traceId, String.toList_append, List.append_assoc, pair]
  rw [separators_append scopePlain, List.cons_append, List.cons_append, separators,
    List.nil_append, separators_append runPlain, List.cons_append, List.cons_append, separators,
    List.nil_append, last]

theorem traceId_ne_empty (scope run : String) (number : Nat) :
    (traceId scope run number).isEmpty = false := by
  have colon : ':' ∈ (traceId scope run number).toList := by simp [traceId]
  by_contra empty
  rw [Bool.not_eq_false, String.isEmpty_iff] at empty
  rw [empty] at colon
  simp at colon

end TraceIds

namespace Emitter

def nextTraceId (emitter : Emitter) : String :=
  traceId emitter.scope emitter.run (emitter.count + 1)

/-- The emitter after an entry that it has started. -/
def append (emitter : Emitter) (entry : Entry) : Emitter :=
  { emitter with count := emitter.count + 1, lines := emitter.lines ++ [entry.line] }

theorem send_entry (emitter : Emitter) (now : Instant) (level : Level) (event : String)
    {fill : Entry → Entry} (keeps : ∀ entry, (fill entry).traceId = entry.traceId) :
    (emitter.entry now level event).2.send (fill (emitter.entry now level event).1) =
      emitter.append (fill (Entry.make now emitter.nextTraceId level event)) := by
  have named : (fill (Entry.make now emitter.nextTraceId level event)).traceId.isEmpty = false := by
    rw [keeps]
    exact traceId_ne_empty _ _ _
  have started : (emitter.entry now level event).1 =
      Entry.make now emitter.nextTraceId level event := rfl
  rw [send, started, named]
  rfl

end Emitter

end BoundedPrintf.Log
