import Mathlib
import BoundedPrintf.Proofs.Directive.Grammar

/-! A directive read in turns. A zero is a flag or opens a number, a number is read to its last digit
before anything else is looked at, and every other modifier is a turn of its own. However the turns are
cut, the first byte that is no modifier decides. -/
namespace BoundedPrintf.Directive

open Grammar (numbered numbered_numbered number_numbered widthOpen_numbered)

/-- Flags, point, star, digits and length letters. -/
def modifierBytes : Bytes := ascii "-+ #.*0123456789hlztjL"

/-- The place of the first byte that is no modifier, or the length of a text without one. -/
def firstOther (text : Bytes) : Nat := (text.takeWhile (· ∈ modifierBytes)).length

/-- What a byte that is no modifier makes of a directive. -/
inductive Decides : UInt8 → Directive → Prop
  | ended : Decides 0 .incomplete
  | percent : Decides (octet '%') .percent
  | conversion (spec : Spec) (known : spec.conversion ∈ Grammar.conversions) :
      Decides spec.conversion (.spec spec)
  | unknown {byte : UInt8} (visible : byte ≠ 0) (noPercent : byte ≠ octet '%')
      (unknown : byte ∉ Grammar.conversions) : Decides byte (.unsupported byte)

section Reader

/-- The number of a run of digits, as far as a size can tell. -/
def runNumber (start : Nat) (run : Bytes) : Nat :=
  run.foldl (fun number byte => min (10 * number + digitValue byte) maxSize) start

/-- A number stands for the precision behind a point and for the width otherwise. -/
def Draft.withNumber (draft : Draft) (number : Nat) : Draft :=
  if draft.point then { draft with precision := .fixed number }
  else { draft with width := .fixed number }

/-- The result of reading behind so many bytes. -/
def behind (size : Nat) (result : Directive × Nat) : Directive × Nat := (result.1, size + result.2)

theorem behind_behind (first second : Nat) (result : Directive × Nat) :
    behind first (behind second result) = behind (first + second) result := by
  simp [behind, Nat.add_assoc]

/-- Reads in turns until a byte is no modifier or the text is over. -/
def readInTurns (draft : Draft) : Bytes → Directive × Nat
  | [] => (.incomplete, 0)
  | byte :: rest =>
      if byte = octet '0' ∧ draft.widthOpen = true then
        behind 1 (readInTurns { draft with flags.zero := true } rest)
      else if isDigit byte then
        let run := byte :: rest.takeWhile isDigit
        behind run.length (readInTurns (draft.withNumber (runNumber 0 run)) (rest.dropWhile isDigit))
      else if isModifier byte then behind 1 (readInTurns (draft.mark (Char.ofUInt8 byte)) rest)
      else (draft.finish byte, 1)
termination_by text => text.length
decreasing_by
  · exact Nat.lt_succ_self _
  · exact Nat.lt_succ_of_le (List.dropWhile_sublist _).length_le
  · exact Nat.lt_succ_self _

end Reader

section Bytewise

variable {draft : Draft} {byte : UInt8} {rest run : Bytes}

/-- What is read from a draft on, byte by byte. -/
def readFrom (draft : Draft) (text : Bytes) : Directive × Nat :=
  let modifiers := text.takeWhile isModifier
  match text.drop modifiers.length with
  | [] => (.incomplete, modifiers.length)
  | byte :: _ => ((modifiers.foldl Draft.step draft).finish byte, modifiers.length + 1)

theorem parse_eq_readFrom (text : Bytes) : parse text = readFrom {} text := rfl

theorem readFrom_modifier (modifier : isModifier byte = true) :
    readFrom draft (byte :: rest) = behind 1 (readFrom (draft.step byte) rest) := by
  simp only [readFrom, behind, List.takeWhile_cons_of_pos modifier, List.length_cons,
    List.drop_succ_cons, List.foldl_cons]
  cases rest.drop (rest.takeWhile isModifier).length with
  | nil => simp [Nat.add_comm]
  | cons => simp [Nat.add_comm]

theorem readFrom_other (other : isModifier byte = false) :
    readFrom draft (byte :: rest) = (draft.finish byte, 1) := by
  simp [readFrom, other]

theorem isModifier_of_isDigit (digit : isDigit byte = true) : isModifier byte = true := by
  unfold isModifier
  split <;> first | rfl | exact digit

theorem readFrom_digits (digits : ∀ b ∈ run, isDigit b = true) :
    readFrom draft (run ++ rest) = behind run.length (readFrom (run.foldl Draft.step draft) rest) := by
  induction run generalizing draft with
  | nil => simp [behind]
  | cons first run ih =>
      obtain ⟨digit, later⟩ := List.forall_mem_cons.mp digits
      rw [List.cons_append, readFrom_modifier (isModifier_of_isDigit digit), ih later, behind_behind,
        List.length_cons, Nat.add_comm 1, List.foldl_cons]

/-- The number in progress matters for digits only. -/
theorem readFrom_number (number : Nat) (stops : ∀ b ∈ rest.head?, isDigit b = false) :
    readFrom { draft with number } rest = readFrom draft rest := by
  cases rest with
  | nil => rfl
  | cons byte rest =>
      have noDigit : isDigit byte = false := stops byte rfl
      cases modifier : isModifier byte with
      | true =>
          have same : Draft.step { draft with number } byte = draft.step byte := by
            simp [Draft.step, noDigit]
          rw [readFrom_modifier modifier, readFrom_modifier modifier, same]
      | false =>
          rw [readFrom_other modifier, readFrom_other modifier]
          rfl

end Bytewise

section Numbers

variable {draft : Draft} {byte : UInt8} {run : Bytes}

theorem numbered_eq (draft : Draft) (number : Nat) :
    numbered draft number = { draft.withNumber number with number } := by
  cases point : draft.point <;> simp [numbered, Draft.withNumber, point]

theorem number_withNumber (draft : Draft) (number : Nat) :
    (draft.withNumber number).number = draft.number := by
  cases point : draft.point <;> simp [Draft.withNumber, point]

theorem number_mark (draft : Draft) (c : Char) : (draft.mark c).number = draft.number := by
  unfold Draft.mark
  split
  case h_6 => split <;> rfl
  all_goals rfl

theorem step_of_digit (digit : isDigit byte = true)
    (noFlag : ¬ (byte = octet '0' ∧ draft.widthOpen = true)) :
    draft.step byte = numbered draft (runNumber draft.number [byte]) := by
  have counts : ¬ (draft.widthOpen && decide (byte = octet '0')) = true := by
    rwa [Bool.and_eq_true, decide_eq_true_eq, and_comm]
  rw [Draft.step, if_pos digit, if_neg counts]
  rfl

/-- A run of digits, read byte by byte, leaves its number. -/
theorem foldl_step_digits (number : Nat) (digits : ∀ b ∈ run, isDigit b = true) :
    run.foldl Draft.step (numbered draft number) = numbered draft (runNumber number run) := by
  induction run generalizing number with
  | nil => rfl
  | cons first run ih =>
      obtain ⟨digit, later⟩ := List.forall_mem_cons.mp digits
      have noFlag : ¬ (first = octet '0' ∧ (numbered draft number).widthOpen = true) := by
        simp [widthOpen_numbered]
      rw [List.foldl_cons, step_of_digit digit noFlag, numbered_numbered, number_numbered,
        ih _ later]
      rfl

end Numbers

/-- Reading in turns is reading byte by byte, as long as no number is in progress. -/
theorem readInTurns_eq (draft : Draft) (text : Bytes) (fresh : draft.number = 0) :
    readInTurns draft text = readFrom draft text := by
  induction draft, text using readInTurns.induct with
  | case1 draft =>
      rw [readInTurns]
      rfl
  | case2 draft byte rest flag ih =>
      obtain ⟨rfl, widthOpen⟩ := flag
      have step : draft.step (octet '0') = { draft with flags.zero := true } := by
        have digit : isDigit (octet '0') = true := rfl
        simp [Draft.step, digit, widthOpen]
      rw [readInTurns, if_pos ⟨rfl, widthOpen⟩, ih fresh, readFrom_modifier rfl, step]
  | case3 draft byte rest noFlag digit run ih =>
      have later : ∀ b ∈ rest.takeWhile isDigit, isDigit b = true := fun _ => List.mem_takeWhile_imp
      have stops : ∀ b ∈ (rest.dropWhile isDigit).head?, isDigit b = false := by
        intro b first
        have stopped := List.head?_dropWhile_not isDigit rest
        rwa [first] at stopped
      have parts : byte :: rest = run ++ rest.dropWhile isDigit := by simp [run]
      have folded : run.foldl Draft.step draft = numbered draft (runNumber 0 run) := by
        rw [List.foldl_cons, step_of_digit digit noFlag, fresh, foldl_step_digits _ later]
        rfl
      have forgotten : readFrom (numbered draft (runNumber 0 run)) (rest.dropWhile isDigit) =
          readFrom (draft.withNumber (runNumber 0 run)) (rest.dropWhile isDigit) := by
        rw [numbered_eq]
        exact readFrom_number _ stops
      calc readInTurns draft (byte :: rest)
        _ = behind run.length (readInTurns (draft.withNumber (runNumber 0 run)) (rest.dropWhile isDigit)) := by
          rw [readInTurns, if_neg noFlag, if_pos digit]
        _ = behind run.length (readFrom (draft.withNumber (runNumber 0 run)) (rest.dropWhile isDigit)) := by
          rw [ih ((number_withNumber ..).trans fresh)]
        _ = behind run.length (readFrom (numbered draft (runNumber 0 run)) (rest.dropWhile isDigit)) := by
          rw [forgotten]
        _ = readFrom draft (byte :: rest) := by
          rw [parts, readFrom_digits (List.forall_mem_cons.mpr ⟨digit, later⟩), folded]
  | case4 draft byte rest noFlag noDigit modifier ih =>
      have step : draft.step byte = draft.mark (Char.ofUInt8 byte) := by
        have same : { draft with number := 0 } = draft := by rw [← fresh]
        rw [Draft.step, if_neg noDigit, same]
      rw [readInTurns, if_neg noFlag, if_neg noDigit, if_pos modifier, readFrom_modifier modifier, step,
        ih ((number_mark ..).trans fresh)]
  | case5 draft byte rest noFlag noDigit other =>
      rw [readInTurns, if_neg noFlag, if_neg noDigit, if_neg other,
        readFrom_other (Bool.eq_false_of_not_eq_true other)]

section Classes

variable {byte : UInt8} {text modifiers rest : Bytes}

theorem isModifier_eq (byte : UInt8) : isModifier byte = decide (byte ∈ modifierBytes) := by
  have all : ∀ n : Fin 256,
      isModifier (UInt8.ofNat n) = decide (UInt8.ofNat n ∈ modifierBytes) := by
    decide +kernel
  simpa using all ⟨byte.toNat, byte.toNat_lt⟩

theorem isConversion_eq (byte : UInt8) : isConversion byte = decide (byte ∈ Grammar.conversions) := by
  have all : ∀ n : Fin 256,
      isConversion (UInt8.ofNat n) = decide (UInt8.ofNat n ∈ Grammar.conversions) := by
    decide +kernel
  simpa using all ⟨byte.toNat, byte.toNat_lt⟩

theorem firstOther_eq (text : Bytes) : firstOther text = (text.takeWhile isModifier).length := by
  rw [firstOther, ← funext isModifier_eq]

theorem decides_finish (draft : Draft) (byte : UInt8) : Decides byte (draft.finish byte) := by
  rw [Draft.finish]
  split
  case isTrue ends =>
    rw [ends]
    exact .ended
  case isFalse visible =>
    split
    case isTrue percent =>
      rw [percent]
      exact .percent
    case isFalse noPercent =>
      rw [isConversion_eq]
      split
      case isTrue known => exact .conversion (draft.toSpec byte) (of_decide_eq_true known)
      case isFalse unknown => exact .unknown visible noPercent fun known => unknown (decide_eq_true known)

theorem firstOther_of_all (all : ∀ b ∈ text, isModifier b = true) : firstOther text = text.length := by
  rw [firstOther_eq, List.takeWhile_eq_self_iff.mpr all]

theorem firstOther_of_decided (all : ∀ b ∈ modifiers, isModifier b = true)
    (decides : isModifier byte = false) : firstOther (modifiers ++ byte :: rest) = modifiers.length := by
  rw [firstOther_eq, List.takeWhile_append_of_pos all, List.takeWhile_cons_of_neg (by simp [decides]),
    List.append_nil]

/-- Nothing behind the byte that decides plays a part. -/
theorem parse_congr {other : Bytes}
    (same : other.take (firstOther text + 1) = text.take (firstOther text + 1)) :
    parse other = parse text := by
  rcases decided_or_not text with all | ⟨modifiers, byte, rest, rfl, all, decides⟩
  · rw [firstOther_of_all all, List.take_of_length_le (Nat.le_succ text.length)] at same
    have length := congrArg List.length same
    rw [List.length_take] at length
    rw [List.take_of_length_le (by omega)] at same
    rw [same]
  · have front : (modifiers ++ byte :: rest).take (modifiers.length + 1) = modifiers ++ [byte] := by
      rw [List.append_cons]
      exact List.take_left' List.length_append
    rw [firstOther_of_decided all decides, front] at same
    have parts := List.take_append_drop (modifiers.length + 1) other
    rw [same, List.append_assoc, List.singleton_append] at parts
    rw [← parts, parse_decided all decides, parse_decided all decides]

end Classes

/-- The first byte that is no modifier decides what a directive is and where it ends, however its
modifiers are read, and nothing behind it is looked at. -/
theorem first_other_byte_decides (text : Bytes) :
    parse text = readInTurns {} text ∧
      (firstOther text = text.length → parse text = (.incomplete, text.length)) ∧
      (∀ byte, text[firstOther text]? = some byte →
        (parse text).2 = firstOther text + 1 ∧ Decides byte (parse text).1) ∧
      ∀ other : Bytes, other.take (firstOther text + 1) = text.take (firstOther text + 1) →
        parse other = parse text := by
  refine ⟨?_, ?_, ?_, fun other same => parse_congr same⟩
  · rw [readInTurns_eq {} text rfl, parse_eq_readFrom]
  · intro whole
    rcases decided_or_not text with all | ⟨modifiers, byte, rest, rfl, all, decides⟩
    · exact parse_undecided all
    · rw [firstOther_of_decided all decides] at whole
      simp at whole
  · intro byte found
    rcases decided_or_not text with all | ⟨modifiers, decider, rest, rfl, all, decides⟩
    · rw [firstOther_of_all all] at found
      simp at found
    · rw [firstOther_of_decided all decides] at found ⊢
      obtain rfl : decider = byte := by simpa using found
      rw [parse_decided all decides]
      exact ⟨rfl, decides_finish _ _⟩

/-- A zero as a flag, one in a number and a number behind a letter, and then a byte that is unknown,
whatever comes after it. -/
theorem unknown_behind_runs :
    let text := ascii "-010.2*hhL012y9d"
    firstOther text = 13 ∧ text[firstOther text]? = some (octet 'y') ∧ (parse text).2 = 14 ∧
      Decides (octet 'y') (parse text).1 ∧
      (ascii "-010.2*hhL012y%").take (firstOther text + 1) = text.take (firstOther text + 1) ∧
      parse (ascii "-010.2*hhL012y%") = parse text := by
  intro text
  have place : firstOther text = 13 := by decide
  have found : text[firstOther text]? = some (octet 'y') := by decide
  have same : (ascii "-010.2*hhL012y%").take (firstOther text + 1) = text.take (firstOther text + 1) := by
    decide
  obtain ⟨-, -, decided, congr⟩ := first_other_byte_decides text
  obtain ⟨size, decides⟩ := decided _ found
  rw [place] at size
  exact ⟨place, found, size, decides, same, congr _ same⟩

end BoundedPrintf.Directive
