import BoundedPrintf.Proofs.Directive.Decision
import BoundedPrintf.Template

/-! How a template is cut. Pieces cover it without gaps, an unfinished directive can only stand at
its end, and what is put behind a template without one changes none of its pieces, but that a
literal run at the seam goes on. -/
namespace BoundedPrintf

theorem beforeNul_append {first second : Bytes} (clean : ∀ b ∈ first, b ≠ 0) :
    beforeNul (first ++ second) = first ++ beforeNul second :=
  List.takeWhile_append_of_pos (by simpa using clean)

theorem Directive.toSegment_eq_incomplete {directive : Directive} :
    directive.toSegment = .incomplete ↔ directive = .incomplete := by
  cases directive <;> simp [toSegment]

namespace Template

variable {first second text rest : Bytes} {byte : UInt8}

/-- What a literal run consists of. -/
abbrev isPlain (byte : UInt8) : Bool := byte != octet '%'

theorem piece_percent (rest : Bytes) :
    piece (octet '%') rest =
      ⟨(Directive.parse rest).1.toSegment, (Directive.parse rest).2 + 1⟩ := by
  simp only [piece, if_true]

theorem piece_literal (literal : byte ≠ octet '%') (rest : Bytes) : piece byte rest =
    ⟨.literal (byte :: rest.takeWhile isPlain), (rest.takeWhile isPlain).length + 1⟩ := by
  simp only [piece, literal, if_false, List.length_cons]

theorem pieces_cons (byte : UInt8) (rest : Bytes) :
    pieces (byte :: rest) = piece byte rest :: pieces (rest.drop ((piece byte rest).size - 1)) := by
  rw [pieces]

theorem pieces_literal (literal : byte ≠ octet '%') (rest : Bytes) : pieces (byte :: rest) =
    ⟨.literal (byte :: rest.takeWhile isPlain), (rest.takeWhile isPlain).length + 1⟩ ::
      pieces (rest.dropWhile isPlain) := by
  have behind : rest.drop (rest.takeWhile isPlain).length = rest.dropWhile isPlain := by
    have split : rest.takeWhile isPlain ++ rest.dropWhile isPlain = rest :=
      List.takeWhile_append_dropWhile
    calc rest.drop (rest.takeWhile isPlain).length
      _ = (rest.takeWhile isPlain ++ rest.dropWhile isPlain).drop (rest.takeWhile isPlain).length := by
        rw [split]
      _ = rest.dropWhile isPlain := List.drop_left
  rw [pieces_cons, piece_literal literal, Nat.add_sub_cancel, behind]

@[elab_as_elim]
theorem pieces_induction {motive : Bytes → Prop} (text : Bytes) (nil : motive [])
    (cons : ∀ byte rest, motive (rest.drop ((piece byte rest).size - 1)) → motive (byte :: rest)) :
      motive text :=
  pieces.induct motive nil cons text

/-- The number of bytes that pieces cover. -/
def extent : List Piece → Nat
  | [] => 0
  | piece :: rest => piece.size + extent rest

theorem extent_append (front back : List Piece) :
    extent (front ++ back) = extent front + extent back := by
  induction front with
  | nil => exact (Nat.zero_add _).symm
  | cons piece front ih => rw [List.cons_append, extent, extent, ih, Nat.add_assoc]

/-- Pieces cover the whole text. -/
theorem extent_pieces (text : Bytes) : extent (pieces text) = text.length := by
  induction text using pieces_induction with
  | nil => rw [pieces, extent, List.length_nil]
  | cons byte rest ih =>
      have positive := piece_size_pos byte rest
      have inside := piece_size_le byte rest
      rw [pieces_cons, extent, ih, List.length_drop, List.length_cons]
      omega

/-- Only the last piece can be an unfinished directive. -/
theorem getLast?_of_incomplete (clean : ∀ b ∈ text, b ≠ 0) {unfinished : Piece}
    (member : unfinished ∈ pieces text) (incomplete : unfinished.segment = .incomplete) :
    (pieces text).getLast? = some unfinished := by
  induction text using pieces_induction with
  | nil => simp [pieces] at member
  | cons byte rest ih =>
      rw [pieces_cons] at member ⊢
      have cleanRest : ∀ b ∈ rest, b ≠ 0 := fun b inside =>
        clean b (List.mem_cons_of_mem byte inside)
      rcases List.mem_cons.mp member with rfl | later
      · have last : pieces (rest.drop ((piece byte rest).size - 1)) = [] := by
          by_cases literal : byte = octet '%'
          · subst literal
            rw [piece_percent] at incomplete ⊢
            have all := Directive.length_of_incomplete cleanRest
              (Directive.toSegment_eq_incomplete.mp incomplete)
            rw [Nat.add_sub_cancel, all, List.drop_length, pieces]
          · rw [piece_literal literal] at incomplete
            cases incomplete
        rw [last, List.getLast?_singleton]
      · have found := ih (fun b inside => cleanRest b (List.mem_of_mem_drop inside)) later
        rw [List.getLast?_cons, found, Option.getD_some]

/-- What follows a piece changes it only if the piece is a literal run that goes on. -/
theorem piece_append (second : Bytes) (complete : (piece byte rest).segment ≠ .incomplete) :
    piece byte (rest ++ second) = piece byte rest ∨
      (byte ≠ octet '%' ∧ (∀ b ∈ rest, isPlain b) ∧
        ∃ next tail, second = next :: tail ∧ next ≠ octet '%') := by
  by_cases literal : byte = octet '%'
  · subst literal
    rw [piece_percent] at complete
    have finished := mt Directive.toSegment_eq_incomplete.mpr complete
    exact .inl (by rw [piece_percent, piece_percent, Directive.parse_append second finished])
  · rw [piece_literal literal, piece_literal literal, List.takeWhile_append]
    split
    · rename_i whole
      have same : rest.takeWhile isPlain = rest :=
        (List.takeWhile_prefix isPlain).eq_of_length whole
      have plain : ∀ b ∈ rest, isPlain b := by
        rw [← same]
        exact List.all_eq_true.mp List.all_takeWhile
      cases second with
      | nil => exact .inl (by rw [List.takeWhile_nil, List.append_nil, same])
      | cons next tail =>
          by_cases goesOn : next = octet '%'
          · exact .inl (by
              rw [List.takeWhile_cons_of_neg (by simp [goesOn]), List.append_nil, same])
          · exact .inr ⟨literal, plain, next, tail, rfl, goesOn⟩
    · exact .inl rfl

/-- A literal run takes up the literal run that follows it. -/
theorem pieces_literal_append (literal : byte ≠ octet '%') (plain : ∀ b ∈ rest, isPlain b)
    {next : UInt8} (goesOn : next ≠ octet '%') (tail : Bytes) :
    pieces (byte :: rest ++ next :: tail) =
      ⟨.literal (byte :: rest ++ next :: tail.takeWhile isPlain),
        rest.length + 1 + ((tail.takeWhile isPlain).length + 1)⟩ ::
          pieces (tail.dropWhile isPlain) := by
  rw [List.cons_append, pieces_literal literal, List.takeWhile_append_of_pos plain,
    List.dropWhile_append_of_pos plain, List.takeWhile_cons_of_pos (by simpa using goesOn),
    List.dropWhile_cons_of_pos (by simpa using goesOn), List.length_append, List.length_cons]
  congr 2
  omega

end Template

end BoundedPrintf
