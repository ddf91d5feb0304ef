import BoundedPrintf.Proofs.Json.Number
import BoundedPrintf.Proofs.Json.Text

/-! Reading what was written. A value without floats comes back from its text, on one line or over
several. One step of the fuel is enough for every character. -/
namespace BoundedPrintf.Json

/-- Values that a text tells exactly: there are no floats in them, and every integer has 64 bits. -/
inductive Exact : Json → Prop
  | null : Exact .null
  | bool (value : Bool) : Exact (.bool value)
  | integer {value : Int} : -2 ^ 63 ≤ value → value ≤ maxSize → Exact (.integer value)
  | string (text : String) : Exact (.string text)
  | array {items : List Json} : (∀ item ∈ items, Exact item) → Exact (.array items)
  | object {members : List (String × Json)} :
      (∀ member ∈ members, Exact member.2) → Exact (.object members)

/-- A style that adds nothing but white space. -/
structure Style.Blank (style : Style) : Prop where
  lead : ∀ level, ∀ c ∈ style.lead level, isSpace c
  colon : ∃ space, style.colon = ':' :: space ∧ ∀ c ∈ space, isSpace c

theorem Style.blank_compact : compact.Blank := ⟨by simp [compact], [], rfl, by simp⟩

theorem Style.blank_indented : indented.Blank := by
  refine ⟨fun level c member => ?_, [' '], rfl, by simp [isSpace]⟩
  rcases List.mem_cons.mp member with rfl | space
  · rfl
  · rw [List.eq_of_mem_replicate space]
    rfl

section Space

variable {space text : List Char} {c : Char}

theorem skipSpace_append (blank : ∀ c ∈ space, isSpace c) :
    skipSpace (space ++ text) = skipSpace text :=
  List.dropWhile_append_of_pos blank

theorem skipSpace_cons (visible : isSpace c = false) : skipSpace (c :: text) = c :: text := by
  simp [skipSpace, visible]

theorem readValue_append (blank : ∀ c ∈ space, isSpace c) (fuel : Nat) :
    readValue fuel (space ++ text) = readValue fuel text := by
  cases fuel with
  | zero => rfl
  | succ fuel => rw [readValue, readValue, skipSpace_append blank]

theorem ends_cons (noDigit : c.isDigit = false) (other : c ≠ '.' ∧ c ≠ 'e' ∧ c ≠ 'E') :
    Ends (c :: text) := by
  rintro _ ⟨⟩
  exact ⟨by simp [noDigit], other⟩

theorem ends_of_space (blank : ∀ c ∈ space, isSpace c) (ends : Ends text) : Ends (space ++ text) := by
  cases space with
  | nil => exact ends
  | cons c space =>
      have white := blank c List.mem_cons_self
      simp only [isSpace, Bool.or_eq_true, decide_eq_true_eq] at white
      rcases white with ((rfl | rfl) | rfl) | rfl <;> exact ends_cons (by decide) (by decide)

end Space

/-- What follows the first part between brackets. -/
def remainder (style : Style) (level : Nat) (closing : Char) (parts : List (List Char)) : List Char :=
  parts.flatMap (fun part => ',' :: style.lead (level + 1) ++ part) ++ style.lead level ++ [closing]

section Brackets

variable {style : Style} {level : Nat} {opening closing : Char} {first : List Char}
  {parts : List (List Char)}

theorem bracket_cons : bracket style level opening closing (first :: parts) =
    opening :: (style.lead (level + 1) ++ (first ++ remainder style level closing parts)) := by
  simp [bracket, remainder]

theorem remainder_nil : remainder style level closing [] = style.lead level ++ [closing] := rfl

theorem remainder_cons : remainder style level closing (first :: parts) =
    ',' :: (style.lead (level + 1) ++ (first ++ remainder style level closing parts)) := by
  simp [remainder]

end Brackets

/-- A value that is read back wherever it is written. -/
def Reads (style : Style) (json : Json) : Prop :=
  ∀ (level fuel : Nat) (rest : List Char), (json.chars style level).length ≤ fuel → Ends rest →
    readValue fuel (json.chars style level ++ rest) = some (json, rest)

variable {style : Style} {json : Json}

theorem isSpace_of_isDigit {c : Char} (digit : c.isDigit) : isSpace c = false := by
  by_contra white
  simp only [isSpace, Bool.not_eq_false, Bool.or_eq_true, decide_eq_true_eq] at white
  rcases white with ((rfl | rfl) | rfl) | rfl <;> simp at digit

theorem toDigits_opens (value : Nat) : ∃ c text, Nat.toDigits 10 value = c :: text ∧ c.isDigit := by
  obtain ⟨c, text, opens⟩ := List.exists_cons_of_ne_nil (Nat.toDigits_ne_nil (n := value) (b := 10))
  exact ⟨c, text, opens, isDigit_toDigits value c (opens ▸ List.mem_cons_self)⟩

theorem chars_opens (exact : Exact json) (style : Style) (level : Nat) : ∃ c text,
    json.chars style level = c :: text ∧ isSpace c = false ∧ c ≠ ']' := by
  cases exact with
  | null => exact ⟨_, _, rfl, by decide⟩
  | bool value => cases value <;> exact ⟨_, _, rfl, by decide⟩
  | string text => exact ⟨_, _, rfl, by decide⟩
  | @integer value least most =>
      rw [chars, integerChars]
      split
      · exact ⟨_, _, rfl, by decide⟩
      · obtain ⟨c, text, opens, digit⟩ := toDigits_opens value.natAbs
        refine ⟨c, text, opens, isSpace_of_isDigit digit, ?_⟩
        rintro rfl
        simp at digit
  | @array items all => cases items <;> exact ⟨_, _, rfl, by decide⟩
  | @object members all =>
      rcases members with _ | ⟨⟨name, value⟩, rest⟩ <;> exact ⟨_, _, rfl, by decide⟩

theorem length_chars_pos (exact : Exact json) (style : Style) (level : Nat) :
    0 < (json.chars style level).length := by
  obtain ⟨c, text, opens, -⟩ := chars_opens exact style level
  simp [opens]

theorem exists_fuel (exact : Exact json) {level fuel : Nat}
    (enough : (json.chars style level).length ≤ fuel) : ∃ rest, fuel = rest + 1 :=
  Nat.exists_eq_add_one_of_ne_zero ((length_chars_pos exact style level).trans_le enough).ne'

section Values

variable {c : Char} {fuel : Nat} {text rest : List Char}

theorem readValue_digit (digit : c.isDigit) :
    readValue (fuel + 1) (c :: text) = readNumber false (c :: text) := by
  rw [readValue, skipSpace_cons (isSpace_of_isDigit digit)]
  split
  case h_8 => rfl
  all_goals
    rename_i same
    obtain ⟨rfl, -⟩ := List.cons.inj same
    simp at digit

theorem readValue_text (text : String) (rest : List Char) :
    readValue (fuel + 1) (textChars text ++ rest) = some (.string text, rest) := by
  simp [textChars, readValue, skipSpace_cons, isSpace, readText_escaped]

end Values

theorem reads_integer {value : Int} (least : -2 ^ 63 ≤ value) (most : value ≤ maxSize)
    (style : Style) : Reads style (.integer value) := by
  intro level fuel rest enough ends
  have positive := length_chars_pos (.integer least most) style level
  obtain ⟨fuel, rfl⟩ := Nat.exists_eq_add_of_lt (positive.trans_le enough)
  rw [Nat.zero_add, chars, integerChars]
  split
  · next negative =>
      have size : value = -(value.natAbs : Int) := by omega
      have sign : readValue (fuel + 1) ('-' :: (Nat.toDigits 10 value.natAbs ++ rest)) =
          readNumber true (Nat.toDigits 10 value.natAbs ++ rest) := by
        rw [readValue, skipSpace_cons (by decide)]
        rfl
      rw [List.cons_append, sign, readNumber_toDigits true _ ends,
        ofWhole_negative_toDigits (by omega) (by omega), ← size]
  · next nonnegative =>
      have size : (value.natAbs : Int) = value := by omega
      obtain ⟨c, text, opens, digit⟩ := toDigits_opens value.natAbs
      have whole : readValue (fuel + 1) (Nat.toDigits 10 value.natAbs ++ rest) =
          readNumber false (Nat.toDigits 10 value.natAbs ++ rest) := by
        rw [opens, List.cons_append, readValue_digit digit]
      rw [whole, readNumber_toDigits false _ ends, ofWhole_toDigits (by omega), size]

theorem skipSpace_remainder_nil (blank : style.Blank) (level : Nat) {closing : Char}
    (visible : isSpace closing = false) (rest : List Char) :
    skipSpace (remainder style level closing [] ++ rest) = closing :: rest := by
  rw [remainder_nil, List.append_assoc, skipSpace_append (blank.lead level), List.singleton_append,
    skipSpace_cons visible]

theorem length_remainder_pos (style : Style) (level : Nat) (closing : Char)
    (parts : List (List Char)) : 0 < (remainder style level closing parts).length := by
  simp [remainder]

theorem ends_remainder (blank : style.Blank) {closing : Char}
    (bracket : closing = ']' ∨ closing = '\x7d') (level : Nat) (parts : List (List Char))
    (rest : List Char) : Ends (remainder style level closing parts ++ rest) := by
  cases parts with
  | nil =>
      rw [remainder_nil, List.append_assoc]
      refine ends_of_space (blank.lead level) ?_
      rcases bracket with rfl | rfl <;> exact ends_cons (by decide) (by decide)
  | cons first parts =>
      rw [remainder_cons]
      exact ends_cons (by decide) (by decide)

theorem readItems_chars (blank : style.Blank) {level : Nat} {rest : List Char} {items : List Json} :
    ∀ {item : Json} {fuel : Nat}, (∀ part ∈ item :: items, Reads style part) →
      (item.chars style (level + 1) ++
        remainder style level ']' (chars.itemChars style (level + 1) items)).length ≤ fuel →
      readItems fuel (style.lead (level + 1) ++ (item.chars style (level + 1) ++
        (remainder style level ']' (chars.itemChars style (level + 1) items) ++ rest))) =
          some (item :: items, rest) := by
  -- What follows an item has at least one character, so one step of fuel is left for it.
  induction items with
  | nil =>
      intro item fuel reads enough
      have closing := length_remainder_pos style level ']' []
      rw [chars.itemChars, List.length_append] at enough
      obtain ⟨fuel, rfl⟩ := Nat.exists_eq_add_one_of_ne_zero (n := fuel) (by omega)
      have first := reads item List.mem_cons_self (level + 1) fuel
        (remainder style level ']' [] ++ rest) (by omega)
        (ends_remainder blank (.inl rfl) level [] rest)
      rw [chars.itemChars, readItems, readValue_append (blank.lead _), first]
      simp only [Option.bind_eq_bind, Option.bind_some,
        skipSpace_remainder_nil blank level (show isSpace ']' = false by decide)]
  | cons next items ih =>
      intro item fuel reads enough
      obtain ⟨readsFirst, readsOthers⟩ := List.forall_mem_cons.mp reads
      rw [chars.itemChars, List.length_append, remainder_cons] at enough
      simp only [List.length_cons, List.length_append] at enough
      obtain ⟨fuel, rfl⟩ := Nat.exists_eq_add_one_of_ne_zero (n := fuel) (by omega)
      have first := readsFirst (level + 1) fuel
        (remainder style level ']' (chars.itemChars style (level + 1) (next :: items)) ++ rest)
        (by omega) (ends_remainder blank (.inl rfl) level _ rest)
      have others := @ih next fuel readsOthers (by rw [List.length_append]; omega)
      rw [readItems, readValue_append (blank.lead _), first]
      simp only [Option.bind_eq_bind, Option.bind_some, chars.itemChars, remainder_cons]
      rw [List.cons_append, skipSpace_cons (by decide)]
      simp only [List.append_assoc, others, Option.bind_some]

/-- Goes on after the value of a member: to the closing brace or to the next member. -/
def endMember (fuel : Nat) (name : String) (read : Json × List Char) :
    Option (List (Option String × Json) × List Char) :=
  match skipSpace read.2 with
  | '\x7d' :: rest => some ([(some name, read.1)], rest)
  | ',' :: rest => do
      let (members, rest) ← readMembers fuel rest
      some ((some name, read.1) :: members, rest)
  | _ => none

theorem readMembers_name (blank : style.Blank) (level fuel : Nat) (name : String)
    (text : List Char) :
    readMembers (fuel + 1) (style.lead level ++ (textChars name ++ (style.colon ++ text))) =
      (readValue fuel text).bind (endMember fuel name) := by
  obtain ⟨space, colon, white⟩ := blank.colon
  have quote : isSpace '"' = false := by decide
  have separator : isSpace ':' = false := by decide
  rw [readMembers, skipSpace_append (blank.lead level), textChars, List.append_assoc,
    List.cons_append, skipSpace_cons quote]
  simp only [List.cons_append, List.nil_append, readText_escaped, Option.bind_eq_bind,
    Option.bind_some, colon, skipSpace_cons separator, readValue_append white]
  exact Option.bind_congr fun _ _ => rfl

theorem readMembers_chars (blank : style.Blank) {level : Nat} {rest : List Char}
    {members : List (String × Json)} :
    ∀ {name : String} {value : Json} {fuel : Nat},
      (∀ member ∈ (name, value) :: members, Reads style member.2) →
      (textChars name ++ style.colon ++ value.chars style (level + 1) ++
        remainder style level '\x7d' (chars.memberChars style (level + 1) members)).length ≤ fuel →
      readMembers fuel (style.lead (level + 1) ++
        (textChars name ++ style.colon ++ value.chars style (level + 1) ++
        (remainder style level '\x7d' (chars.memberChars style (level + 1) members) ++ rest))) =
          some (((name, value) :: members).map fun member => (some member.1, member.2), rest) := by
  induction members with
  | nil =>
      intro name value fuel reads enough
      have readsValue : Reads style value := reads (name, value) List.mem_cons_self
      have closing := length_remainder_pos style level '\x7d' []
      simp only [chars.memberChars, List.length_append] at enough
      obtain ⟨fuel, rfl⟩ := Nat.exists_eq_add_one_of_ne_zero (n := fuel) (by omega)
      have first := readsValue (level + 1) fuel
        (remainder style level '\x7d' [] ++ rest) (by omega)
        (ends_remainder blank (.inr rfl) level [] rest)
      simp only [chars.memberChars, List.append_assoc]
      rw [readMembers_name blank, first, Option.bind_some, endMember,
        skipSpace_remainder_nil blank level (by decide)]
      rfl
  | cons next members ih =>
      intro name value fuel reads enough
      obtain ⟨readsValue, readsOthers⟩ := List.forall_mem_cons.mp reads
      simp only [chars.memberChars, remainder_cons, List.length_cons, List.length_append] at enough
      obtain ⟨fuel, rfl⟩ := Nat.exists_eq_add_one_of_ne_zero (n := fuel) (by omega)
      have first := readsValue (level + 1) fuel
        (remainder style level '\x7d' (chars.memberChars style (level + 1) (next :: members)) ++ rest)
        (by simp only; omega) (ends_remainder blank (.inr rfl) level _ rest)
      have others := @ih next.1 next.2 fuel readsOthers
        (by simp only [List.length_append]; omega)
      simp only [List.append_assoc] at others ⊢
      rw [readMembers_name blank, first, Option.bind_some, endMember]
      simp only [chars.memberChars, remainder_cons]
      rw [List.cons_append, skipSpace_cons (by decide)]
      simp only [List.append_assoc, others, Option.bind_eq_bind, Option.bind_some]
      rfl

theorem named?_map_some (members : List (String × Json)) :
    named? (members.map fun member => (some member.1, member.2)) = some members := by
  induction members with
  | nil => rfl
  | cons member members ih => simp [named?, ih]

theorem reads_array (blank : style.Blank) {items : List Json}
    (reads : ∀ item ∈ items, Reads style item) (exact : ∀ item ∈ items, Exact item) :
    Reads style (.array items) := by
  intro level fuel rest enough ends
  obtain ⟨fuel, rfl⟩ := exists_fuel (.array exact) enough
  cases items with
  | nil => rfl
  | cons item items =>
      obtain ⟨c, text, opens, visible, more⟩ :=
        chars_opens (exact item List.mem_cons_self) style (level + 1)
      simp only [chars, chars.itemChars, bracket_cons, List.length_cons] at enough ⊢
      have read := @readItems_chars style blank level rest items item fuel reads
        (by simp only [List.length_append] at enough ⊢; omega)
      rw [List.cons_append, readValue, skipSpace_cons (by decide)]
      simp only [List.append_assoc]
      rw [read, skipSpace_append (blank.lead _), opens, List.cons_append, skipSpace_cons visible]
      -- No value begins with the bracket that would close an empty array.
      split
      · next same => exact absurd (List.cons.inj same).1 more
      · rfl

theorem reads_object (blank : style.Blank) {members : List (String × Json)}
    (reads : ∀ member ∈ members, Reads style member.2) (exact : ∀ member ∈ members, Exact member.2) :
    Reads style (.object members) := by
  intro level fuel rest enough ends
  obtain ⟨fuel, rfl⟩ := exists_fuel (.object exact) enough
  rcases members with _ | ⟨⟨name, value⟩, members⟩
  · rfl
  · simp only [chars, chars.memberChars, bracket_cons, List.length_cons] at enough ⊢
    have read := @readMembers_chars style blank level rest members name value fuel reads
      (by simp only [List.length_append] at enough ⊢; omega)
    rw [List.cons_append, readValue, skipSpace_cons (by decide)]
    simp only [List.append_assoc] at read ⊢
    rw [read, skipSpace_append (blank.lead _), textChars, List.append_assoc, List.cons_append,
      skipSpace_cons (by decide)]
    simp only [Option.bind_eq_bind, Option.bind_some, named?_map_some, Option.elim_some]
    rfl

/-- Exact values are read back, whatever the white space around their parts. -/
theorem reads_exact (blank : style.Blank) (exact : Exact json) : Reads style json := by
  induction exact with
  | integer least most => exact reads_integer least most style
  | null =>
      intro level fuel rest enough ends
      obtain ⟨fuel, rfl⟩ := exists_fuel .null enough
      rfl
  | bool value =>
      intro level fuel rest enough ends
      obtain ⟨fuel, rfl⟩ := exists_fuel (.bool value) enough
      cases value <;> rfl
  | string text =>
      intro level fuel rest enough ends
      obtain ⟨fuel, rfl⟩ := exists_fuel (.string text) enough
      exact readValue_text text rest
  | array exact ih => exact reads_array blank ih exact
  | object exact ih => exact reads_object blank ih exact

theorem read?_chars (blank : style.Blank) (exact : Exact json) :
    read? (String.ofList (json.chars style 0)) = some json := by
  have ends : Ends [] := nofun
  have read := reads_exact blank exact 0 (2 * (json.chars style 0).length + 1) [] (by omega) ends
  rw [List.append_nil] at read
  rw [read?, String.toList_ofList, read]
  rfl

theorem read?_compact (exact : Exact json) : read? json.compact = some json :=
  read?_chars Style.blank_compact exact

theorem read?_pretty (exact : Exact json) : read? json.pretty = some json :=
  read?_chars Style.blank_indented exact

end BoundedPrintf.Json
