import BoundedPrintf.Failure
import BoundedPrintf.Proofs.Text.Integer

/-! The short forms of arguments, as a grammar. A tag ends at the first colon and says how what follows
is read, up to the end of the text. Doubles are left to the reader of doubles. -/
namespace BoundedPrintf.FixtureArgument

open Text (Unsigned Signed)

/-- The short forms other than those of doubles. -/
inductive ShortForm : String → FixtureArgument → Prop
  | null : ShortForm "null" .nullText
  | int {text : String} {value : Int64} : Signed text.toList value.toInt →
      ShortForm ("i:" ++ text) (.int value)
  | uint {text : String} {value : UInt64} : Unsigned 10 text.toList value.toNat →
      ShortForm ("u:" ++ text) (.uint value)
  | address {text : String} {address : UInt64} : Unsigned 10 text.toList address.toNat →
      ShortForm ("p:" ++ text) (.pointer address)
  | hexadecimal {mark text : String} {address : UInt64} : mark = "0x" ∨ mark = "0X" →
      Unsigned 16 text.toList address.toNat → ShortForm ("p:" ++ mark ++ text) (.pointer address)
  | text {text : String} : ShortForm ("s:" ++ text) (.text text)
  | count {label : String} : label ≠ "" → ShortForm ("n:" ++ label) (.count label)

variable {spec : String} {tag value text : List Char} {arg : FixtureArgument}

theorem readShort_eq_ok_iff : readShort spec = .ok arg ↔ ofShort? spec = some arg := by
  unfold readShort
  cases ofShort? spec <;> simp

theorem readShort_eq_error_iff {failure : Failure} :
    readShort spec = .error failure ↔ ofShort? spec = none ∧ .argument spec = failure := by
  unfold readShort
  cases ofShort? spec <;> simp

/-- The argument that is read behind a tag. -/
def ofTagged? (tag value : List Char) : Option FixtureArgument :=
  match tag with
  | ['i'] => (Text.readSigned? value).map .int
  | ['u'] => (Text.readUnsigned? 10 value).map .uint
  | ['f'] => (Binary64.readBits? value).map .double
  | ['s'] => some (.text (String.ofList value))
  | ['p'] => (readAddress? value).map .pointer
  | ['n'] => if value.isEmpty then none else some (.count (String.ofList value))
  | _ => none

section Tags

theorem kept_of_clean (clean : ':' ∉ tag) : ∀ c ∈ tag, decide (c ≠ ':') = true :=
  fun _ member => decide_eq_true fun same => clean (same ▸ member)

theorem takeWhile_tag (clean : ':' ∉ tag) : (tag ++ ':' :: value).takeWhile (· ≠ ':') = tag := by
  rw [List.takeWhile_append_of_pos (kept_of_clean clean), List.takeWhile_cons_of_neg (by decide),
    List.append_nil]

theorem dropWhile_tag (clean : ':' ∉ tag) :
    (tag ++ ':' :: value).dropWhile (· ≠ ':') = ':' :: value := by
  rw [List.dropWhile_append_of_pos (kept_of_clean clean), List.dropWhile_cons_of_neg (by decide)]

theorem ofShort?_of_tag (split : spec.toList = tag ++ ':' :: value) (clean : ':' ∉ tag) :
    ofShort? spec = ofTagged? tag value := by
  have colon : ':' ∈ spec.toList := split ▸ List.mem_append_right _ List.mem_cons_self
  have named : spec ≠ "null" := by
    rintro rfl
    exact absurd colon (by decide)
  have tagged : ¬ (!(tag ++ ':' :: value).contains ':') = true := by simp
  unfold ofShort?
  simp only [split, if_neg named, if_neg tagged, takeWhile_tag clean, dropWhile_tag clean,
    List.drop_one, List.tail_cons]
  rfl

theorem ofShort?_of_no_colon (none : ':' ∉ spec.toList) :
    ofShort? spec = if spec = "null" then some .nullText else Option.none := by
  unfold ofShort?
  simp [none]

/-- The tag before the first colon. -/
theorem exists_tag (colon : ':' ∈ text) : ∃ tag value, text = tag ++ ':' :: value ∧ ':' ∉ tag := by
  obtain ⟨tag, value, rfl, clean⟩ := List.eq_append_cons_of_mem colon
  exact ⟨tag, value, rfl, clean⟩

end Tags

theorem readAddress?_eq_some_iff {address : UInt64} :
    readAddress? text = some address ↔ Unsigned 10 text address.toNat ∨
      ∃ mark digits, (mark = ['0', 'x'] ∨ mark = ['0', 'X']) ∧ text = mark ++ digits ∧
        Unsigned 16 digits address.toNat := by
  have sixteen : 16 ≤ 16 := le_rfl
  have ten : 10 ≤ 16 := by decide
  have noMark : ∀ digit < 16, 'x' ≠ Nat.digitChar digit := by decide
  unfold readAddress?
  split
  · next digits =>
      rw [Text.readUnsigned?_eq_some_iff sixteen]
      constructor
      · exact fun hexadecimal => .inr ⟨_, digits, .inl rfl, rfl, hexadecimal⟩
      · rintro (decimal | ⟨mark, rest, rfl | rfl, same, hexadecimal⟩)
        · have none := Text.not_mem_of_unsigned (c := 'x') ten decimal noMark (by decide)
          exact absurd (List.mem_cons_of_mem _ List.mem_cons_self) none
        · cases same
          exact hexadecimal
        · cases same
  · next digits =>
      rw [Text.readUnsigned?_eq_some_iff sixteen]
      constructor
      · exact fun hexadecimal => .inr ⟨_, digits, .inr rfl, rfl, hexadecimal⟩
      · rintro (decimal | ⟨mark, rest, rfl | rfl, same, hexadecimal⟩)
        · have none := Text.not_mem_of_unsigned (c := 'X') ten decimal noMark (by decide)
          exact absurd (List.mem_cons_of_mem _ List.mem_cons_self) none
        · cases same
        · cases same
          exact hexadecimal
  · next lower upper =>
      rw [Text.readUnsigned?_eq_some_iff ten]
      constructor
      · exact .inl
      · rintro (decimal | ⟨mark, rest, rfl | rfl, rfl, -⟩)
        · exact decimal
        · exact absurd rfl (lower _)
        · exact absurd rfl (upper _)

theorem shortForm_of_tagged (split : spec.toList = tag ++ ':' :: value) (other : tag ≠ ['f'])
    (read : ofTagged? tag value = some arg) : ShortForm spec arg := by
  have spelled (front : String) (same : spec.toList = front.toList ++ value) :
      spec = front ++ String.ofList value := by
    rw [← String.toList_inj, same, String.toList_append, String.toList_ofList]
  unfold ofTagged? at read
  split at read
  case h_1 =>
    obtain ⟨number, here, rfl⟩ := Option.map_eq_some_iff.mp read
    rw [spelled "i:" split]
    exact .int (by rwa [String.toList_ofList, ← Text.readSigned?_eq_some_iff])
  case h_2 =>
    obtain ⟨number, here, rfl⟩ := Option.map_eq_some_iff.mp read
    rw [spelled "u:" split]
    exact .uint (by rwa [String.toList_ofList, ← Text.readUnsigned?_eq_some_iff (by decide)])
  case h_3 => exact absurd rfl other
  case h_4 =>
    obtain rfl := Option.some.inj read
    rw [spelled "s:" split]
    exact .text
  case h_5 =>
    obtain ⟨address, here, rfl⟩ := Option.map_eq_some_iff.mp read
    rcases readAddress?_eq_some_iff.mp here with
      decimal | ⟨mark, digits, marked, rfl, hexadecimal⟩
    · rw [spelled "p:" split]
      exact .address (by rwa [String.toList_ofList])
    · rw [spelled "p:" split, String.ofList_append, ← String.append_assoc]
      exact .hexadecimal (marked.imp (congrArg String.ofList) (congrArg String.ofList))
        (by rwa [String.toList_ofList])
  case h_6 =>
    obtain ⟨nonempty, same⟩ := Option.ite_none_left_eq_some.mp read
    obtain rfl := Option.some.inj same
    rw [spelled "n:" split]
    refine .count fun empty => nonempty ?_
    rw [List.isEmpty_iff, ← String.toList_ofList (l := value), empty]
    rfl
  case h_7 => cases read

theorem ofShort?_of_shortForm (form : ShortForm spec arg) : ofShort? spec = some arg := by
  have tagged (tag : List Char) (text : String) {spec : String} (clean : ':' ∉ tag)
      (same : spec.toList = tag ++ ':' :: text.toList) :
      ofShort? spec = ofTagged? tag text.toList :=
    ofShort?_of_tag same clean
  cases form with
  | null => rfl
  | @int text value signed =>
      rw [tagged ['i'] text (by decide) String.toList_append, ofTagged?,
        Text.readSigned?_eq_some_iff.mpr signed, Option.map_some]
  | @uint text value unsigned =>
      rw [tagged ['u'] text (by decide) String.toList_append, ofTagged?,
        (Text.readUnsigned?_eq_some_iff (by decide)).mpr unsigned, Option.map_some]
  | @address text address unsigned =>
      rw [tagged ['p'] text (by decide) String.toList_append, ofTagged?,
        readAddress?_eq_some_iff.mpr (.inl unsigned), Option.map_some]
  | @hexadecimal mark text address marked unsigned =>
      have read : readAddress? (mark ++ text).toList = some address := by
        refine readAddress?_eq_some_iff.mpr (.inr ⟨mark.toList, text.toList, ?_,
          String.toList_append, unsigned⟩)
        exact marked.imp (congrArg String.toList) (congrArg String.toList)
      rw [String.append_assoc, tagged ['p'] (mark ++ text) (by decide) String.toList_append,
        ofTagged?, read, Option.map_some]
  | @text text =>
      rw [tagged ['s'] text (by decide) String.toList_append, ofTagged?, String.ofList_toList]
  | @count label some =>
      have nonempty : ¬ label.toList.isEmpty = true := by
        rw [List.isEmpty_iff, String.toList_eq_nil_iff]
        exact some
      rw [tagged ['n'] label (by decide) String.toList_append, ofTagged?, if_neg nonempty,
        String.ofList_toList]

theorem ofShort?_eq_some_iff (other : ¬ "f:".toList <+: spec.toList) :
    ofShort? spec = some arg ↔ ShortForm spec arg := by
  refine ⟨fun read => ?_, ofShort?_of_shortForm⟩
  by_cases colon : ':' ∈ spec.toList
  · obtain ⟨tag, value, split, clean⟩ := exists_tag colon
    rw [ofShort?_of_tag split clean] at read
    refine shortForm_of_tagged split ?_ read
    rintro rfl
    exact other (split ▸ ⟨value, rfl⟩)
  · rw [ofShort?_of_no_colon colon] at read
    obtain ⟨rfl, same⟩ := Option.ite_none_right_eq_some.mp read
    obtain rfl := Option.some.inj same
    exact .null

/-- Of a text that is no short form of a double, an argument is read exactly if the text is a short
form of it. All other texts are refused as they are. -/
theorem readShort_follows_grammar (spec : String) (other : ¬ "f:".toList <+: spec.toList) :
    (∀ arg, readShort spec = .ok arg ↔ ShortForm spec arg) ∧
      ∀ failure, readShort spec = .error failure ↔
        failure = .argument spec ∧ ∀ arg, ¬ ShortForm spec arg := by
  simp only [readShort_eq_ok_iff, readShort_eq_error_iff, ← ofShort?_eq_some_iff other,
    ← Option.eq_none_iff_forall_ne_some, true_and, implies_true]
  intro failure
  rw [and_comm, eq_comm]

/-- A plus may stand behind the mark of an address, but not a minus before zero. -/
theorem plus_behind_mark_read :
    readShort "p:0X+fF" = .ok (.pointer 255) ∧ readShort "u:-0" = .error (.argument "u:-0") := by
  constructor
  · have spelled : "p:0X+fF" = "p:" ++ "0X" ++ "+fF" := rfl
    refine ((readShort_follows_grammar "p:0X+fF" (by decide)).1 _).mpr ?_
    rw [spelled]
    exact .hexadecimal (.inr rfl) (.plus ⟨[15, 15], by decide, by decide, by decide, by decide⟩)
  · refine ((readShort_follows_grammar "u:-0" (by decide)).2 _).mpr ⟨rfl, fun arg form => ?_⟩
    have unread : ofShort? "u:-0" = none := by decide +kernel
    cases unread.symm.trans (ofShort?_of_shortForm form)

end BoundedPrintf.FixtureArgument
