import Mathlib
import BoundedPrintf.Bytes
import BoundedPrintf.Text.Integer

/-! Integers in texts. What is read is exactly what is written in digits of the base behind an optional
sign, letters in either case, as long as the number fits its word. -/
namespace BoundedPrintf.Text

/-- One or more digits that stand for a number, the most significant digit first. -/
def Denotes (base : Nat) (text : List Char) (number : Nat) : Prop :=
  ∃ digits : List Nat, digits ≠ [] ∧ (∀ digit ∈ digits, digit < base) ∧
    text.map Char.toLower = digits.map Nat.digitChar ∧ number = Nat.ofDigits base digits.reverse

/-- A numeral that may have a plus in front. -/
inductive Unsigned (base : Nat) : List Char → Nat → Prop
  | plain {digits : List Char} {number : Nat} : Denotes base digits number →
      Unsigned base digits number
  | plus {digits : List Char} {number : Nat} : Denotes base digits number →
      Unsigned base ('+' :: digits) number

/-- A decimal numeral that may have a sign in front. -/
inductive Signed : List Char → Int → Prop
  | plain {digits : List Char} {number : Nat} : Denotes 10 digits number → Signed digits number
  | plus {digits : List Char} {number : Nat} : Denotes 10 digits number →
      Signed ('+' :: digits) number
  | minus {digits : List Char} {number : Nat} : Denotes 10 digits number →
      Signed ('-' :: digits) (-number)

variable {base digit number : Nat} {c : Char} {text : List Char}

section Digits

theorem toNat_toLower (c : Char) :
    c.toLower.toNat = if 65 ≤ c.toNat ∧ c.toNat ≤ 90 then c.toNat + 32 else c.toNat := by
  have capital : c.val ≥ 'A'.val ∧ c.val ≤ 'Z'.val ↔ 65 ≤ c.toNat ∧ c.toNat ≤ 90 := Iff.rfl
  unfold Char.toLower
  split
  · next inside =>
      have bounds := capital.mp inside
      have sum : (c.val + ('a'.val - 'A'.val)).toNat = (c.toNat + 32) % 2 ^ 32 :=
        UInt32.toNat_add _ _
      rw [if_pos bounds]
      exact sum.trans (Nat.mod_eq_of_lt (by omega))
  · next outside => rw [if_neg (mt capital.mpr outside)]

theorem toNat_digitChar (small : digit < 16) :
    (Nat.digitChar digit).toNat = if digit < 10 then 48 + digit else 87 + digit := by
  have all : ∀ digit : Fin 16, (Nat.digitChar digit).toNat =
      if digit.val < 10 then 48 + digit.val else 87 + digit.val := by decide
  exact all ⟨digit, small⟩

theorem digitValue?_eq_some_iff (small : base ≤ 16) :
    digitValue? base c = some digit ↔ digit < base ∧ c.toLower = Nat.digitChar digit := by
  have lower : 'a' ≤ c ∧ c ≤ 'f' ↔ 97 ≤ c.toNat ∧ c.toNat ≤ 102 := Iff.rfl
  have upper : 'A' ≤ c ∧ c ≤ 'F' ↔ 65 ≤ c.toNat ∧ c.toNat ≤ 70 := Iff.rfl
  have codes : '0'.toNat = 48 ∧ '9'.toNat = 57 ∧ 'A'.toNat = 65 ∧ 'a'.toNat = 97 :=
    ⟨rfl, rfl, rfl, rfl⟩
  simp only [digitValue?, Char.isDigit_iff_toNat, lower, upper, codes,
    Option.ite_none_right_eq_some, Option.some.injEq]
  by_cases fits : digit < base
  · rw [← Char.toNat_inj, toNat_toLower, toNat_digitChar (Nat.lt_of_lt_of_le fits small)]
    split_ifs <;> omega
  · refine iff_of_false ?_ (mt And.left fits)
    rintro ⟨inside, rfl⟩
    exact fits inside

theorem foldlM_digitValue? (small : base ≤ 16) (start : Nat) :
    text.foldlM (fun value c => (digitValue? base c).map (base * value + ·)) start = some number ↔
      ∃ digits : List Nat, (∀ digit ∈ digits, digit < base) ∧
        text.map Char.toLower = digits.map Nat.digitChar ∧
          number = digits.foldl (fun value digit => digit + base * value) start := by
  induction text generalizing start with
  | nil =>
      simp only [List.foldlM_nil, List.map_nil, List.nil_eq, List.map_eq_nil_iff]
      constructor
      · rintro ⟨⟩
        exact ⟨[], nofun, rfl, rfl⟩
      · rintro ⟨_, -, rfl, rfl⟩
        rfl
  | cons c text ih =>
      rw [List.foldlM_cons]
      constructor
      · intro read
        obtain ⟨value, first, rest⟩ := Option.bind_eq_some_iff.mp read
        obtain ⟨digit, here, rfl⟩ := Option.map_eq_some_iff.mp first
        obtain ⟨inside, spelled⟩ := (digitValue?_eq_some_iff small).mp here
        obtain ⟨digits, each, same, rfl⟩ := (ih _).mp rest
        refine ⟨digit :: digits, List.forall_mem_cons.mpr ⟨inside, each⟩, ?_, ?_⟩
        · rw [List.map_cons, List.map_cons, spelled, same]
        · rw [List.foldl_cons, Nat.add_comm digit]
      · rintro ⟨_ | ⟨digit, digits⟩, each, same, rfl⟩
        · cases same
        · obtain ⟨spelled, same⟩ := List.cons.inj same
          obtain ⟨inside, each⟩ := List.forall_mem_cons.mp each
          have here := (digitValue?_eq_some_iff small).mpr ⟨inside, spelled⟩
          refine Option.bind_eq_some_iff.mpr ⟨base * start + digit, by rw [here]; rfl, ?_⟩
          rw [Nat.add_comm]
          exact (ih _).mpr ⟨digits, each, same, rfl⟩

theorem readDigits?_eq_some_iff (small : base ≤ 16) :
    readDigits? base text = some number ↔ Denotes base text number := by
  have value (digits : List Nat) : Nat.ofDigits base digits.reverse =
      digits.foldl (fun value digit => digit + base * value) 0 := by
    rw [Nat.ofDigits_eq_foldr, List.foldr_reverse]
    rfl
  cases text with
  | nil =>
      refine iff_of_false nofun ?_
      rintro ⟨digits, some, -, none, -⟩
      exact some (List.map_eq_nil_iff.mp none.symm)
  | cons c text =>
      have nonempty : readDigits? base (c :: text) = (c :: text).foldlM
          (fun value c => (digitValue? base c).map (base * value + ·)) 0 := rfl
      rw [nonempty, foldlM_digitValue? small]
      constructor
      · rintro ⟨digits, each, same, rfl⟩
        refine ⟨digits, ?_, each, same, (value digits).symm⟩
        rintro rfl
        cases same
      · rintro ⟨digits, -, each, same, rfl⟩
        exact ⟨digits, each, same, value digits⟩

/-- Signs and other marks are no digits. -/
theorem not_mem_of_denotes (small : base ≤ 16) (denotes : Denotes base text number)
    (strange : ∀ digit < 16, c.toLower ≠ Nat.digitChar digit) : c ∉ text := by
  obtain ⟨digits, -, each, same, -⟩ := denotes
  intro member
  have lowered : c.toLower ∈ digits.map Nat.digitChar := same ▸ List.mem_map_of_mem member
  obtain ⟨digit, inside, spelled⟩ := List.mem_map.mp lowered
  exact strange digit (Nat.lt_of_lt_of_le (each digit inside) small) spelled.symm

end Digits

section Words

theorem plus_strange : ∀ digit < 16, '+'.toLower ≠ Nat.digitChar digit := by decide

theorem minus_strange : ∀ digit < 16, '-'.toLower ≠ Nat.digitChar digit := by decide

theorem readUnsigned?_eq_some_iff (small : base ≤ 16) {word : UInt64} :
    readUnsigned? base text = some word ↔ Unsigned base text word.toNat := by
  have fits : ∀ digits : List Char, ((readDigits? base digits).bind fun value =>
      if value < 2 ^ 64 then some (UInt64.ofNat value) else none) = some word ↔
        Denotes base digits word.toNat := by
    intro digits
    rw [Option.bind_eq_some_iff, ← readDigits?_eq_some_iff small]
    constructor
    · rintro ⟨value, read, kept⟩
      obtain ⟨inside, same⟩ := Option.ite_none_right_eq_some.mp kept
      rw [read, ← Option.some.inj same, UInt64.toNat_ofNat_of_lt' inside]
    · intro read
      refine ⟨word.toNat, read, ?_⟩
      rw [if_pos word.toNat_lt, UInt64.ofNat_toNat]
  unfold readUnsigned?
  split
  · next rest =>
      rw [fits]
      constructor
      · exact .plus
      · rintro (signed | plain)
        · exact absurd List.mem_cons_self (not_mem_of_denotes small signed plus_strange)
        · exact plain
  · next other =>
      rw [fits]
      constructor
      · exact .plain
      · rintro (plain | signed)
        · exact plain
        · exact absurd rfl (other _)

theorem not_mem_of_unsigned (small : base ≤ 16) (unsigned : Unsigned base text number)
    (strange : ∀ digit < 16, c.toLower ≠ Nat.digitChar digit) (noPlus : c ≠ '+') : c ∉ text := by
  cases unsigned with
  | plain denotes => exact not_mem_of_denotes small denotes strange
  | plus denotes =>
      rw [List.mem_cons, not_or]
      exact ⟨noPlus, not_mem_of_denotes small denotes strange⟩

/-- The number behind a sign, if it fits a signed word. -/
theorem signedWord_eq_some_iff {magnitude : Int} {word : Int64} :
    (if -2 ^ 63 ≤ magnitude ∧ magnitude < 2 ^ 63 then some (Int64.ofInt magnitude) else none) =
      some word ↔ word.toInt = magnitude := by
  rw [Option.ite_none_right_eq_some, Option.some.injEq]
  constructor
  · rintro ⟨⟨least, most⟩, rfl⟩
    exact Int64.toInt_ofInt_of_le least most
  · rintro rfl
    exact ⟨⟨word.le_toInt, word.toInt_lt⟩, word.ofInt_toInt⟩

theorem readSigned?_eq_some_iff {word : Int64} :
    readSigned? text = some word ↔ Signed text word.toInt := by
  have ten : 10 ≤ 16 := by decide
  unfold readSigned?
  split
  next negative digits marked =>
    simp only [Option.bind_eq_some_iff, signedWord_eq_some_iff, readDigits?_eq_some_iff ten]
    generalize word.toInt = value
    split at marked
    · next rest =>
        cases marked
        constructor
        · rintro ⟨magnitude, denotes, rfl⟩
          exact .minus denotes
        · rintro (signed | _ | denotes)
          · exact absurd List.mem_cons_self (not_mem_of_denotes ten signed minus_strange)
          · exact ⟨_, denotes, rfl⟩
    · next rest =>
        cases marked
        constructor
        · rintro ⟨magnitude, denotes, rfl⟩
          exact .plus denotes
        · rintro (signed | denotes | _)
          · exact absurd List.mem_cons_self (not_mem_of_denotes ten signed plus_strange)
          · exact ⟨_, denotes, rfl⟩
    · next noMinus noPlus =>
        cases marked
        constructor
        · rintro ⟨magnitude, denotes, rfl⟩
          exact .plain denotes
        · rintro (denotes | _ | _)
          · exact ⟨_, denotes, rfl⟩
          · exact absurd rfl (noPlus _)
          · exact absurd rfl (noMinus _)

end Words

end BoundedPrintf.Text
