import BoundedPrintf.Proofs.Template.Cuts
import BoundedPrintf.Scanner

/-! What a scanner finds. Its pieces are those that are rendered. They cover the template up to its
first NUL, each byte once and in order, and each piece can be told from the bytes that it covers. -/
namespace BoundedPrintf

theorem Directive.toSegment_ne_literal (directive : Directive) (bytes : Bytes) :
    directive.toSegment ≠ .literal bytes := by
  cases directive <;> nofun

namespace Template

variable {rest bytes : Bytes} {byte conversion : UInt8}

theorem plain_of_literal (literal : (piece byte rest).segment = .literal bytes) :
    byte ≠ octet '%' := by
  rintro rfl
  rw [piece_percent] at literal
  exact Directive.toSegment_ne_literal _ _ literal

/-- A literal run is the longest one at its place. -/
theorem literal_run (literal : (piece byte rest).segment = .literal bytes) :
    bytes = (byte :: rest).take (piece byte rest).size ∧
      bytes = (byte :: rest).takeWhile isPlain ∧ bytes ≠ [] := by
  have plain := plain_of_literal literal
  rw [piece_literal plain] at literal ⊢
  obtain rfl := Segment.literal.inj literal
  have run : (byte :: rest).takeWhile isPlain = byte :: rest.takeWhile isPlain :=
    List.takeWhile_cons_of_pos (by simpa using plain)
  have first := List.prefix_iff_eq_take.mp (List.takeWhile_prefix (l := byte :: rest) isPlain)
  rw [run, List.length_cons] at first
  exact ⟨first, run.symm, List.cons_ne_nil _ _⟩

/-- What is no literal run starts with a percent sign. -/
theorem percent_of_directive (directive : ∀ bytes, (piece byte rest).segment ≠ .literal bytes) :
    byte = octet '%' := by
  by_contra literal
  exact directive _ (congrArg Piece.segment (piece_literal literal rest))

/-- An unknown conversion is the last byte of its directive. -/
theorem getLast?_of_unsupported (unknown : (piece byte rest).segment = .unsupported conversion) :
    ((byte :: rest).take (piece byte rest).size).getLast? = some conversion := by
  obtain rfl := percent_of_directive fun bytes literal => nomatch literal.symm.trans unknown
  rw [piece_percent] at unknown ⊢
  rcases Directive.decided_or_not rest with all | ⟨modifiers, last, behind, rfl, all, decides⟩
  · rw [Directive.parse_undecided all] at unknown
    cases unknown
  · rw [Directive.parse_decided all decides] at unknown ⊢
    have same : last = conversion := by
      simp only [Directive.Draft.finish] at unknown
      split at unknown
      · cases unknown
      · split at unknown
        · cases unknown
        · split at unknown <;> cases unknown
          rfl
    have front : (modifiers ++ last :: behind).take (modifiers.length + 1) = modifiers ++ [last] := by
      rw [List.append_cons]
      exact List.take_left' List.length_append
    rw [List.take_succ_cons, front, same, ← List.cons_append, List.getLast?_concat]

/-- What follows a literal run is none. -/
theorem literal_apart {next : Piece} {back : List Piece}
    (literal : (piece byte rest).segment = .literal bytes)
    (behind : pieces (rest.drop ((piece byte rest).size - 1)) = next :: back) (other : Bytes) :
    next.segment ≠ .literal other := by
  intro again
  have same := (pieces_cons byte rest).symm.trans (pieces_literal (plain_of_literal literal) rest)
  rw [(List.cons.inj same).2] at behind
  cases run : rest.dropWhile isPlain with
  | nil =>
      rw [run, pieces] at behind
      cases behind
  | cons first tail =>
      have stops := List.head?_dropWhile_not isPlain rest
      simp only [run, List.head?_cons, bne_eq_false_iff_eq] at stops
      subst stops
      rw [run, pieces_cons, piece_percent] at behind
      obtain ⟨rfl, _⟩ := List.cons.inj behind
      exact Directive.toSegment_ne_literal _ _ again

end Template

namespace Placed

/-- Pieces in a row, the first of which stands at the given offset. -/
def row (offset : Nat) : List Piece → List Placed
  | [] => []
  | piece :: rest => { piece with offset } :: row (offset + piece.size) rest

theorem map_toPiece_row (offset : Nat) (pieces : List Piece) :
    (row offset pieces).map toPiece = pieces := by
  induction pieces generalizing offset with
  | nil => rfl
  | cons piece rest ih => rw [row, List.map_cons, ih]

theorem getElem?_row (offset : Nat) (pieces : List Piece) (index : Nat) :
    (row offset pieces)[index]? = pieces[index]?.map fun piece =>
      { piece with offset := offset + Template.extent (pieces.take index) } := by
  induction pieces generalizing offset index with
  | nil => rfl
  | cons piece rest ih =>
      cases index with
      | zero => rfl
      | succ index =>
          rw [row, List.getElem?_cons_succ, ih, List.getElem?_cons_succ, List.take_succ_cons,
            Template.extent, Nat.add_assoc]

theorem offset_of_row {offset : Nat} {pieces : List Piece} {front back : List Placed}
    {placed : Placed} (split : row offset pieces = front ++ placed :: back) :
    placed.offset = offset + Template.extent (front.map toPiece) := by
  induction front generalizing offset pieces with
  | nil =>
      cases pieces with
      | nil => cases split
      | cons piece rest =>
          obtain ⟨rfl, _⟩ := List.cons.inj split
          rfl
  | cons first front ih =>
      cases pieces with
      | nil => cases split
      | cons piece rest =>
          obtain ⟨rfl, later⟩ := List.cons.inj split
          rw [ih later, List.map_cons, Template.extent, Nat.add_assoc]

theorem take_row (offset : Nat) (pieces : List Piece) (count : Nat) :
    (row offset pieces).take count = row offset (pieces.take count) := by
  induction pieces generalizing offset count with
  | nil => rw [List.take_nil, row, List.take_nil]
  | cons piece rest ih =>
      cases count with
      | zero => rfl
      | succ count => rw [row, List.take_succ_cons, ih, List.take_succ_cons, row]

/-- What pieces in a row were read from is one part of the text. -/
theorem flatMap_source_row (text : Bytes) (offset : Nat) (pieces : List Piece) :
    (row offset pieces).flatMap (source · text) =
      (text.drop offset).take (Template.extent pieces) := by
  induction pieces generalizing offset with
  | nil => rw [row, List.flatMap_nil, Template.extent, List.take_zero]
  | cons piece rest ih =>
      rw [row, List.flatMap_cons, ih, source, Template.extent, List.take_add, List.drop_drop]

end Placed

namespace Scanner

variable {text template : Bytes}

/-- The scanner after so many calls. -/
def after (scanner : Scanner) : Nat → Scanner
  | 0 => scanner
  | calls + 1 => (scanner.after calls).next.2

theorem next_of_some_left {position : Nat} {first : UInt8} {rest : Bytes}
    (left : text.drop position = first :: rest) : next ⟨text, position⟩ =
      (some { Template.piece first rest with offset := position },
        ⟨text, position + (Template.piece first rest).size⟩) := by
  simp only [next, remaining, left]

theorem next_of_none_left {position : Nat} (left : text.drop position = []) :
    next ⟨text, position⟩ = (none, ⟨text, position⟩) := by
  simp only [next, remaining, left]

/-- A scanner behind so many pieces hands out the next one, if there is one, and moves to its end. -/
theorem next_of_count (text : Bytes) (count : Nat) :
    next ⟨text, Template.extent ((Template.pieces text).take count)⟩ =
      ((Placed.row 0 (Template.pieces text))[count]?,
        ⟨text, Template.extent ((Template.pieces text).take (count + 1))⟩) := by
  rw [Placed.getElem?_row, Nat.zero_add]
  rcases Nat.lt_or_ge count (Template.pieces text).length with inside | behind
  · have cut : Template.pieces text = (Template.pieces text).take count ++
        (Template.pieces text)[count] :: (Template.pieces text).drop (count + 1) := by
      rw [← List.drop_eq_getElem_cons inside, List.take_append_drop]
    obtain ⟨byte, rest, there, same, _⟩ := Template.piece_behind cut
    rw [next_of_some_left there, ← same, List.getElem?_eq_getElem inside, Option.map_some,
      List.take_succ_eq_append_getElem inside, Template.extent_append, Template.extent,
      Template.extent, Nat.add_zero]
  · have past : (Template.pieces text).length ≤ count + 1 := Nat.le_succ_of_le behind
    rw [List.take_of_length_le behind, List.take_of_length_le past, Template.extent_pieces,
      next_of_none_left List.drop_length, List.getElem?_eq_none behind, Option.map_none]

/-- Whenever a piece is found, less is left. -/
theorem remaining_next_lt {scanner : Scanner} {placed : Placed}
    (found : scanner.next.1 = some placed) :
    scanner.next.2.remaining.length < scanner.remaining.length := by
  obtain ⟨text, position⟩ := scanner
  cases left : text.drop position with
  | nil =>
      rw [next_of_none_left left] at found
      cases found
  | cons first rest =>
      have positive := Template.piece_size_pos first rest
      have length := congrArg List.length left
      rw [next_of_some_left left]
      simp only [remaining, List.length_drop, List.length_cons] at length ⊢
      omega

/-- After so many calls a scanner stands behind so many pieces. -/
theorem after_ofTemplate (template : Bytes) (calls : Nat) : (ofTemplate template).after calls =
    ⟨beforeNul template, Template.extent ((Template.segments template).take calls)⟩ := by
  induction calls with
  | zero => rfl
  | succ calls ih => rw [after, ih, Template.segments, next_of_count]

/-- What the calls of a scanner find in a template. -/
structure Finds (template : Bytes) (found : List Placed) : Prop where
  /-- Call after call answers a piece, and every call behind the last one answers that there is
  none. -/
  answers : ∀ calls, ((ofTemplate template).after calls).next.1 = found[calls]?
  rendered : found.map Placed.toPiece = Template.segments template
  consecutive : ∀ front placed back, found = front ++ placed :: back →
    placed.offset = Template.extent (front.map Placed.toPiece) ∧ 0 < placed.size
  covers : found.flatMap (Placed.source · (beforeNul template)) = beforeNul template ∧
    Template.extent (found.map Placed.toPiece) = (beforeNul template).length
  remaining : ∀ calls, (found.take calls).flatMap (Placed.source · (beforeNul template)) ++
    ((ofTemplate template).after calls).remaining = beforeNul template
  shrinks : ∀ calls, calls < found.length →
    ((ofTemplate template).after (calls + 1)).remaining.length <
      ((ofTemplate template).after calls).remaining.length
  /-- A literal run is as long as it can be. -/
  literal : ∀ placed ∈ found, ∀ bytes, placed.segment = .literal bytes →
    bytes ≠ [] ∧ bytes = placed.source (beforeNul template) ∧
      bytes = ((beforeNul template).drop placed.offset).takeWhile (· != octet '%')
  apart : ∀ front first second back, found = front ++ first :: second :: back →
    ∀ bytes other, first.segment = .literal bytes → second.segment ≠ .literal other
  /-- Every other piece stands where a percent sign stands, which is its offset. -/
  percent : ∀ placed ∈ found, (∀ bytes, placed.segment ≠ .literal bytes) →
    template[placed.offset]? = some (octet '%')
  unsupported : ∀ placed ∈ found, ∀ conversion, placed.segment = .unsupported conversion →
    (placed.source (beforeNul template)).getLast? = some conversion
  incomplete : ∀ front placed back, found = front ++ placed :: back →
    placed.segment = .incomplete → back = [] ∧ ∀ earlier ∈ front, earlier.segment ≠ .incomplete

/-- A piece found in a template stands behind those found before it, and it can be read off the
template there. -/
theorem piece_of_row {front back : List Placed} {placed : Placed}
    (split : Placed.row 0 (Template.segments template) = front ++ placed :: back) :
    Template.segments template =
        front.map Placed.toPiece ++ placed.toPiece :: back.map Placed.toPiece ∧
      placed.offset = Template.extent (front.map Placed.toPiece) ∧
      ∃ byte rest, (beforeNul template).drop placed.offset = byte :: rest ∧
        placed.toPiece = Template.piece byte rest := by
  have cut : Template.segments template =
      front.map Placed.toPiece ++ placed.toPiece :: back.map Placed.toPiece := by
    rw [← Placed.map_toPiece_row 0 (Template.segments template), split, List.map_append,
      List.map_cons]
  have offset := (Placed.offset_of_row split).trans (Nat.zero_add _)
  obtain ⟨byte, rest, there, same, _⟩ := Template.piece_behind cut
  exact ⟨cut, offset, byte, rest, offset ▸ there, same⟩

theorem piece_of_member {placed : Placed}
    (member : placed ∈ Placed.row 0 (Template.segments template)) :
    ∃ byte rest, (beforeNul template).drop placed.offset = byte :: rest ∧
      placed.toPiece = Template.piece byte rest := by
  obtain ⟨front, back, split⟩ := List.append_of_mem member
  exact (piece_of_row split).2.2

/-- A piece starts in the template with the byte that it starts with in front of the first NUL. -/
theorem getElem?_of_drop {offset : Nat} {byte : UInt8} {rest : Bytes}
    (there : (beforeNul template).drop offset = byte :: rest) :
    template[offset]? = some byte := by
  have here : (beforeNul template)[offset]? = some byte := by
    rw [← List.head?_drop, there, List.head?_cons]
  obtain ⟨behind, whole⟩ := exists_append_of_beforeNul template
  rw [whole, List.getElem?_append_left (List.getElem?_eq_some_iff.mp here).1, here]

/-- The pieces of a template are found one by one. They are consecutive, cover the template up to
its first NUL, and are all that is ever found. -/
theorem scans_whole_template (template : Bytes) : ∃ found, Finds template found := by
  have answers : ∀ calls, ((ofTemplate template).after calls).next.1 =
      (Placed.row 0 (Template.segments template))[calls]? := by
    intro calls
    rw [after_ofTemplate, Template.segments, next_of_count]
  refine ⟨Placed.row 0 (Template.segments template), ?_⟩
  constructor
  case answers => exact answers
  case rendered => exact Placed.map_toPiece_row 0 (Template.segments template)
  case consecutive =>
    intro front placed back split
    obtain ⟨_, offset, byte, rest, _, same⟩ := piece_of_row split
    refine ⟨offset, ?_⟩
    rw [same]
    exact Template.piece_size_pos byte rest
  case covers =>
    rw [Placed.flatMap_source_row, Placed.map_toPiece_row, Template.segments,
      Template.extent_pieces, List.drop_zero, List.take_length]
    exact ⟨rfl, rfl⟩
  case remaining =>
    intro calls
    rw [Placed.take_row, Placed.flatMap_source_row, after_ofTemplate, Scanner.remaining,
      List.drop_zero, List.take_append_drop]
  case shrinks =>
    intro calls inside
    exact remaining_next_lt ((answers calls).trans (List.getElem?_eq_getElem inside))
  case literal =>
    intro placed member bytes literal
    obtain ⟨byte, rest, there, same⟩ := piece_of_member member
    rw [same] at literal
    obtain ⟨source, run, some⟩ := Template.literal_run literal
    rw [Placed.source, same, there]
    exact ⟨some, source, run⟩
  case apart =>
    intro front first second back split bytes other literal
    obtain ⟨cut, _⟩ := piece_of_row split
    obtain ⟨byte, rest, _, same, behind⟩ := Template.piece_behind cut
    rw [same] at literal behind
    exact Template.literal_apart literal behind.symm other
  case percent =>
    intro placed member directive
    obtain ⟨byte, rest, there, same⟩ := piece_of_member member
    rw [same] at directive
    obtain rfl := Template.percent_of_directive directive
    exact getElem?_of_drop there
  case unsupported =>
    intro placed member conversion unknown
    obtain ⟨byte, rest, there, same⟩ := piece_of_member member
    rw [same] at unknown
    rw [Placed.source, same, there]
    exact Template.getLast?_of_unsupported unknown
  case incomplete =>
    intro front placed back split unfinished
    have clean : ∀ b ∈ beforeNul template, b ≠ 0 := beforeNul_no_nul
    constructor
    · cases back with
      | nil => rfl
      | cons next back =>
          rw [List.append_cons] at split
          have earlier := Template.complete_before clean (piece_of_row split).1 placed.toPiece
          exact absurd unfinished (earlier (List.mem_map_of_mem (by simp)))
    · intro earlier member
      exact Template.complete_before clean (piece_of_row split).1 earlier.toPiece
        (List.mem_map_of_mem member)

example : ((ofTemplate (ascii "a%-5q%")).after 1).next =
    (some { segment := .unsupported (octet 'q'), size := 4, offset := 1 },
      { text := ascii "a%-5q%", position := 5 }) := by
  cbv

end Scanner

end BoundedPrintf
