import BoundedPrintf.Proofs.Template.Pieces

/-! A template cut between two of its pieces. The part in front of the cut has the pieces before it
and no others, and the piece behind the cut can be read off the template there. -/
namespace BoundedPrintf

theorem Directive.toSegment_injective {first second : Directive}
    (same : first.toSegment = second.toSegment) : first = second := by
  cases first <;> cases second <;> simp_all [toSegment]

/-- A directive is read from the bytes that it takes. -/
theorem Directive.parse_take {text : Bytes} {count : Nat} (covered : (parse text).2 ≤ count) :
    parse (text.take count) = parse text := by
  rcases decided_or_not text with all | ⟨modifiers, byte, rest, rfl, all, decides⟩
  · rw [parse_undecided all] at covered
    rw [List.take_of_length_le covered]
  · rw [parse_decided all decides] at covered ⊢
    have front : (modifiers ++ byte :: rest).take count =
        modifiers ++ byte :: rest.take (count - (modifiers.length + 1)) := by
      rw [List.take_append, List.take_of_length_le (by omega)]
      obtain ⟨more, exceeds⟩ : ∃ more, count - modifiers.length = more + 1 :=
        ⟨count - modifiers.length - 1, by omega⟩
      rw [exceeds, List.take_succ_cons]
      congr 3
      omega
    rw [front, parse_decided all decides]

theorem exists_append_of_beforeNul (template : Bytes) :
    ∃ behind, template = beforeNul template ++ behind :=
  ⟨template.dropWhile (· != 0), List.takeWhile_append_dropWhile.symm⟩

namespace Template

variable {text template : Bytes} {front back : List Piece} {next : Piece} {byte : UInt8}
  {rest : Bytes}

theorem piece_take {count : Nat} (covered : (piece byte rest).size ≤ count + 1) :
    piece byte (rest.take count) = piece byte rest := by
  by_cases literal : byte = octet '%'
  · subst literal
    rw [piece_percent] at covered
    rw [piece_percent, piece_percent, Directive.parse_take (by simpa using covered)]
  · rw [piece_literal literal] at covered
    have run : (rest.take count).takeWhile isPlain = rest.takeWhile isPlain := by
      rw [← List.take_takeWhile, List.take_of_length_le (by simpa using covered)]
    rw [piece_literal literal, piece_literal literal, run]

/-- The part of a text that its first pieces cover has these pieces and no others. -/
theorem pieces_take (cut : pieces text = front ++ back) : pieces (text.take (extent front)) = front := by
  induction front generalizing text with
  | nil => rw [extent, List.take_zero, pieces]
  | cons head front ih =>
      cases text with
      | nil => simp [pieces] at cut
      | cons byte rest =>
          rw [pieces_cons, List.cons_append, List.cons.injEq] at cut
          obtain ⟨rfl, cut⟩ := cut
          have positive := piece_size_pos byte rest
          obtain ⟨size, counted⟩ : ∃ size, (piece byte rest).size = size + 1 :=
            ⟨(piece byte rest).size - 1, by omega⟩
          have covered : extent (piece byte rest :: front) = size + extent front + 1 := by
            rw [extent, counted]
            omega
          have behind : (rest.take (size + extent front)).drop size =
              (rest.drop size).take (extent front) := by
            rw [List.drop_take, Nat.add_sub_cancel_left]
          rw [counted, Nat.add_sub_cancel] at cut
          rw [covered, List.take_succ_cons, pieces_cons, piece_take (by omega), counted,
            Nat.add_sub_cancel, behind, ih cut]

/-- The piece behind a cut is the first piece of the rest of the text. -/
theorem piece_behind (cut : pieces text = front ++ next :: back) :
    ∃ byte rest, text.drop (extent front) = byte :: rest ∧ next = piece byte rest ∧
      back = pieces (rest.drop (next.size - 1)) := by
  induction front generalizing text with
  | nil =>
      cases text with
      | nil => simp [pieces] at cut
      | cons byte rest =>
          rw [pieces_cons, List.nil_append, List.cons.injEq] at cut
          obtain ⟨rfl, rfl⟩ := cut
          exact ⟨byte, rest, rfl, rfl, rfl⟩
  | cons head front ih =>
      cases text with
      | nil => simp [pieces] at cut
      | cons byte rest =>
          rw [pieces_cons, List.cons_append, List.cons.injEq] at cut
          obtain ⟨rfl, cut⟩ := cut
          obtain ⟨first, tail, there, same⟩ := ih cut
          have positive := piece_size_pos byte rest
          have covered : extent (piece byte rest :: front) =
              (piece byte rest).size - 1 + extent front + 1 := by
            rw [extent]
            omega
          refine ⟨first, tail, ?_, same⟩
          rw [covered, List.drop_succ_cons, ← List.drop_drop, there]

/-- Behind an unfinished directive there is no cut. -/
theorem complete_before (clean : ∀ b ∈ text, b ≠ 0) (cut : pieces text = front ++ next :: back) :
    ∀ earlier ∈ front, earlier.segment ≠ .incomplete := by
  intro earlier member unfinished
  obtain ⟨before, between, rfl⟩ := List.append_of_mem member
  rw [List.append_assoc, List.cons_append] at cut
  obtain ⟨byte, rest, there, rfl, behind⟩ := piece_behind cut
  have cleanRest : ∀ b ∈ rest, b ≠ 0 := by
    intro b inside
    exact clean b (List.mem_of_mem_drop (there ▸ List.mem_cons_of_mem byte inside))
  by_cases literal : byte = octet '%'
  · subst literal
    rw [piece_percent] at unfinished behind
    have all := Directive.length_of_incomplete cleanRest
      (Directive.toSegment_eq_incomplete.mp unfinished)
    rw [Nat.add_sub_cancel, all, List.drop_length, pieces] at behind
    simp at behind
  · rw [piece_literal literal] at unfinished
    cases unfinished

theorem extent_le (cut : pieces text = front ++ back) : extent front ≤ text.length := by
  rw [← extent_pieces text, cut, extent_append]
  exact Nat.le_add_right _ _

theorem segments_take (cut : segments template = front ++ back) :
    segments (template.take (extent front)) = front := by
  rw [segments, beforeNul, ← List.take_takeWhile]
  exact pieces_take cut

/-- A finished directive behind a cut can be read off the template, although the template may go on
behind its first NUL. -/
theorem directive_behind (cut : segments template = front ++ next :: back) {directive : Directive}
    (reads : next.segment = directive.toSegment) (complete : directive ≠ .incomplete) :
    template[extent front]? = some (octet '%') ∧
      (Directive.parse (template.drop (extent front + 1))).1 = directive := by
  obtain ⟨byte, rest, there, rfl, _⟩ := piece_behind cut
  obtain ⟨behind, whole⟩ := exists_append_of_beforeNul template
  have dropped : template.drop (extent front) = byte :: (rest ++ behind) := by
    rw [whole, List.drop_append_of_le_length (extent_le cut), there, List.cons_append]
  by_cases literal : byte = octet '%'
  · subst literal
    rw [piece_percent] at reads
    have same := Directive.toSegment_injective reads
    have parsed : Directive.parse (rest ++ behind) = Directive.parse rest :=
      Directive.parse_append behind (same ▸ complete)
    constructor
    · rw [← List.head?_drop, dropped, List.head?_cons]
    · rw [← List.drop_drop, dropped, List.drop_one, List.tail_cons, parsed, same]
  · rw [piece_literal literal] at reads
    cases directive <;> cases reads

end Template

end BoundedPrintf
