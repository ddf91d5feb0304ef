import Mathlib.Algebra.Order.BigOperators.Group.List
import Mathlib.Algebra.Order.Ring.Nat
import Mathlib.Data.List.Forall2
import BoundedPrintf.Conformance.Report

/-! The case table of a report, read back line by line. Bars in a text do not end its cell, since a
backslash is put before each of them and a reader takes it off again. Line breaks in a text are written
as they are and end the row, so the table keeps one line for each result if no name and no section has
one. -/
namespace BoundedPrintf.Conformance.Report

/-- The lines of a text. Behind a line break at the end there is an empty one. -/
def lines (text : String) : List (List Char) := text.toList.splitOn '\n'

/-- What stands between the bars of a line, from some place on. A bar right behind a backslash belongs to
the text. -/
def partsBehind (previous : Char) : List Char → List (List Char)
  | [] => [[]]
  | c :: rest =>
      if c = '|' ∧ previous ≠ '\\' then [] :: partsBehind c rest
      else (partsBehind c rest).modifyHead (c :: ·)

def parts (line : List Char) : List (List Char) := partsBehind '\n' line

/-- Takes off the backslash before each bar. -/
def uncell : List Char → List Char
  | '\\' :: '|' :: rest => '|' :: uncell rest
  | c :: rest => c :: uncell rest
  | [] => []

/-- A text between single spaces. -/
def padded (text : List Char) : List Char := ' ' :: text ++ [' ']

/-- A line with three cells between its outer bars, from which a result is read back. -/
def ReadsBack (result : VerificationResult) (line : List Char) : Prop :=
  ∃ name clause, parts line = [[], padded name, padded clause,
      padded (if result.passed then "PASS" else "FAIL").toList, []] ∧
    uncell name = result.caseName.toList ∧ uncell clause = result.clause.toList

def headLine : List Char := "| Case | Section | Status |".toList

def ruleLine : List Char := "|------|---------|--------|".toList

/-- These are the lines of the report below the head of its case table, up to the next empty line. -/
def Rows (report : Report) (rows : List (List Char)) : Prop :=
  ∃ above below, lines (report.header ++ sourceTable report.sources) = above ++ [[]] ∧
    lines (failureList report.summary.failures) = [] :: below ∧
    lines report.markdown = above ++ headLine :: ruleLine :: rows ++ [] :: below

/-- The case table has one line for each result, in order, from which it is read back. -/
def Tabulated (report : Report) : Prop :=
  ∃ rows, Rows report rows ∧ List.Forall₂ ReadsBack report.summary.results rows

/-- The number of line breaks in the name and the section of a result. -/
def breaks (result : VerificationResult) : Nat :=
  result.caseName.toList.count '\n' + result.clause.toList.count '\n'

variable {report : Report} {result : VerificationResult} {c : Char} {text rest : List Char}

section Cells

/-- The characters of a cell. -/
def escaped (text : List Char) : List Char := text.flatMap fun c => if c = '|' then ['\\', '|'] else [c]

theorem toList_cell (text : String) : (cell text).toList = escaped text.toList := by
  rw [cell, String.toList_ofList, escaped]

theorem escaped_bar (text : List Char) : escaped ('|' :: text) = '\\' :: '|' :: escaped text := rfl

theorem escaped_cons (other : c ≠ '|') (text : List Char) :
    escaped (c :: text) = c :: escaped text := by
  rw [escaped, List.flatMap_cons, if_neg other]
  rfl

theorem head?_escaped (text : List Char) : (escaped text).head? ≠ some '|' := by
  cases text with
  | nil => nofun
  | cons c text =>
      by_cases bar : c = '|'
      · rw [bar, escaped_bar, List.head?_cons]
        exact fun same => absurd (Option.some.inj same) (by decide)
      · rw [escaped_cons bar]
        simpa using bar

theorem uncell_cons (unmarked : text.head? ≠ some '|') :
    uncell (c :: text) = c :: uncell text := by
  rw [uncell]
  rintro rest rfl rfl
  exact unmarked rfl

theorem uncell_escaped (text : List Char) : uncell (escaped text) = text := by
  induction text with
  | nil => rfl
  | cons c text ih =>
      by_cases bar : c = '|'
      · rw [bar, escaped_bar, uncell, ih]
      · rw [escaped_cons bar, uncell_cons (head?_escaped text), ih]

theorem partsBehind_cons {previous : Char} (other : c ≠ '|') (rest : List Char) :
    partsBehind previous (c :: rest) = (partsBehind c rest).modifyHead (c :: ·) :=
  if_neg (mt And.left other)

/-- A cell is not ended before the space behind it. -/
theorem partsBehind_escaped (previous : Char) (text rest : List Char) :
    partsBehind previous (escaped text ++ ' ' :: rest) =
      (partsBehind ' ' rest).modifyHead (escaped text ++ [' '] ++ ·) := by
  induction text generalizing previous with
  | nil => exact partsBehind_cons (by decide) rest
  | cons c text ih =>
      by_cases bar : c = '|'
      · have marked (rest : List Char) : partsBehind '\\' ('|' :: rest) =
            (partsBehind '|' rest).modifyHead ('|' :: ·) := if_neg fun cut => cut.2 rfl
        rw [bar, escaped_bar, List.cons_append, List.cons_append, partsBehind_cons (by decide),
          marked, ih]
        simp [List.modifyHead_modifyHead, Function.comp_def]
      · rw [escaped_cons bar, List.cons_append, partsBehind_cons bar, ih]
        simp [List.modifyHead_modifyHead, Function.comp_def]

theorem partsBehind_cell (previous : Char) (text rest : List Char) :
    partsBehind previous (padded (escaped text) ++ '|' :: rest) =
      padded (escaped text) :: partsBehind '|' rest := by
  have ended : partsBehind ' ' ('|' :: rest) = [] :: partsBehind '|' rest :=
    if_pos ⟨rfl, by decide⟩
  have shape : padded (escaped text) ++ '|' :: rest =
      ' ' :: (escaped text ++ ' ' :: '|' :: rest) := by simp [padded]
  rw [shape, partsBehind_cons (by decide), partsBehind_escaped, ended]
  simp [padded]

theorem count_escaped (text : List Char) : (escaped text).count '\n' = text.count '\n' := by
  induction text with
  | nil => rfl
  | cons c text ih =>
      by_cases bar : c = '|'
      · rw [bar, escaped_bar]
        simpa using ih
      · rw [escaped_cons bar, List.count_cons, List.count_cons, ih]

theorem escaped_status (result : VerificationResult) :
    escaped (status result).toList = (status result).toList := by
  unfold status
  split <;> rfl

theorem count_status (result : VerificationResult) : (status result).toList.count '\n' = 0 := by
  unfold status
  split <;> rfl

end Cells

section Rows

/-- The text of a row, without the line break behind it. -/
def rowText (result : VerificationResult) : List Char :=
  '|' :: (padded (escaped result.caseName.toList) ++ '|' ::
    (padded (escaped result.clause.toList) ++ '|' :: (padded (status result).toList ++ ['|'])))

/-- The lines that a row takes up. -/
def rowLines (result : VerificationResult) : List (List Char) := (rowText result).splitOn '\n'

theorem toList_caseRow (result : VerificationResult) :
    (caseRow result).toList = rowText result ++ ['\n'] := by
  have joined (first second third : String) :
      " | ".intercalate [first, second, third] = first ++ " | " ++ second ++ " | " ++ third := rfl
  simp [caseRow, row, joined, rowText, padded, toList_cell]

theorem parts_rowText (result : VerificationResult) :
    parts (rowText result) = [[], padded (escaped result.caseName.toList),
      padded (escaped result.clause.toList), padded (status result).toList, []] := by
  have opened (rest : List Char) : partsBehind '\n' ('|' :: rest) = [] :: partsBehind '|' rest :=
    if_pos ⟨rfl, by decide⟩
  have last := partsBehind_cell '|' (status result).toList []
  rw [escaped_status] at last
  rw [parts, rowText, opened, partsBehind_cell, partsBehind_cell, last]
  rfl

theorem readsBack_rowText (result : VerificationResult) : ReadsBack result (rowText result) :=
  ⟨_, _, parts_rowText result, uncell_escaped _, uncell_escaped _⟩

theorem length_splitOn (text : List Char) :
    (text.splitOn '\n').length = text.count '\n' + 1 := by
  induction text with
  | nil => rfl
  | cons c text ih =>
      rw [List.splitOn_cons_eq_if_modifyHead, List.count_cons]
      split <;> simp_all

theorem length_rowLines (result : VerificationResult) :
    (rowLines result).length = breaks result + 1 := by
  rw [rowLines, length_splitOn]
  simp [rowText, padded, breaks, count_escaped, count_status]

theorem intercalate_rowLines (result : VerificationResult) :
    ['\n'].intercalate (rowLines result) = rowText result := List.intercalate_splitOn '\n'

theorem rowLines_of_unbroken (unbroken : breaks result = 0) :
    rowLines result = [rowText result] := by
  have single : (rowLines result).length = 1 := by rw [length_rowLines, unbroken]
  obtain ⟨line, only⟩ := List.length_eq_one_iff.mp single
  have joined := intercalate_rowLines result
  rw [only, List.intercalate_singleton] at joined
  rw [only, joined]

theorem splitOn_caseRows (results : List VerificationResult) (rest : List Char) :
    ((String.join (results.map caseRow)).toList ++ rest).splitOn '\n' =
      results.flatMap rowLines ++ rest.splitOn '\n' := by
  induction results with
  | nil => rfl
  | cons result results ih =>
      rw [List.map_cons, String.join_cons, String.toList_append, toList_caseRow, List.append_assoc,
        List.append_assoc, List.singleton_append, List.splitOn_append_cons_self, ih,
        List.flatMap_cons, List.append_assoc, rowLines]

end Rows

section Table

theorem exists_front (report : Report) :
    ∃ front, (report.header ++ sourceTable report.sources).toList = front ++ ['\n'] := by
  by_cases empty : report.sources.isEmpty
  · obtain ⟨front, shape⟩ : ∃ front, report.header = front ++ "\n\n" := ⟨_, rfl⟩
    rw [sourceTable, if_pos empty, String.append_empty, shape]
    exact ⟨front.toList ++ ['\n'], by simp⟩
  · obtain ⟨front, shape⟩ : ∃ front, sourceTable report.sources = front ++ "\n" :=
      ⟨_, if_neg empty⟩
    rw [shape]
    exact ⟨report.header.toList ++ front.toList, by simp⟩

/-- An empty line ends the table, also at the end of the report. -/
theorem exists_below (failures : List VerificationResult) :
    ∃ below, lines (failureList failures) = [] :: below := by
  unfold failureList
  split
  · exact ⟨[], rfl⟩
  · generalize String.join (failures.map _) = behind
    have broken : "\n## Failures\n".toList = [] ++ '\n' :: "## Failures\n".toList := by decide
    rw [lines, String.toList_append, broken, List.append_assoc, List.cons_append,
      List.splitOn_append_cons_self]
    exact ⟨_, rfl⟩

theorem lines_caseTable (results : List VerificationResult) (rest : List Char) :
    ((caseTable results).toList ++ rest).splitOn '\n' =
      headLine :: ruleLine :: results.flatMap rowLines ++ rest.splitOn '\n' := by
  have shape : (caseTable results).toList = headLine ++ '\n' ::
      (ruleLine ++ '\n' :: (String.join (results.map caseRow)).toList) := by
    have head : (row ["Case", "Section", "Status"]).toList = headLine ++ ['\n'] := by decide
    have rule : "|------|---------|--------|\n".toList = ruleLine ++ ['\n'] := by decide
    rw [caseTable, String.toList_append, String.toList_append, head, rule]
    simp
  have head : headLine.splitOn '\n' = [headLine] := by decide
  have rule : ruleLine.splitOn '\n' = [ruleLine] := by decide
  rw [shape, List.append_assoc, List.cons_append, List.append_assoc, List.cons_append,
    List.splitOn_append_cons_self, List.splitOn_append_cons_self, splitOn_caseRows, head, rule]
  rfl

theorem rows_flatMap (report : Report) : Rows report (report.summary.results.flatMap rowLines) := by
  obtain ⟨front, ended⟩ := exists_front report
  obtain ⟨below, opened⟩ := exists_below report.summary.failures
  refine ⟨front.splitOn '\n', below, ?_, opened, ?_⟩
  · rw [lines, ended, List.splitOn_append_cons_self]
    rfl
  · rw [lines, markdown, String.toList_append, String.toList_append, ended, List.append_assoc,
      List.append_assoc, List.singleton_append, List.splitOn_append_cons_self, lines_caseTable,
      ← lines, opened, List.append_assoc]

theorem Rows.unique {rows others : List (List Char)} (these : Rows report rows)
    (those : Rows report others) : rows = others := by
  obtain ⟨above, below, ended, opened, whole⟩ := these
  obtain ⟨front, back, ended', opened', whole'⟩ := those
  obtain rfl : above = front := List.append_cancel_right (ended.symm.trans ended')
  obtain rfl : below = back := (List.cons.inj (opened.symm.trans opened')).2
  rw [whole, List.append_assoc, List.append_assoc] at whole'
  simpa using List.append_cancel_left whole'

theorem tabulated_of_unbroken
    (unbroken : ∀ result ∈ report.summary.results, breaks result = 0) : Tabulated report := by
  have single : report.summary.results.flatMap rowLines = report.summary.results.map rowText := by
    rw [List.flatMap_congr fun result known => rowLines_of_unbroken (unbroken result known),
      ← List.map_eq_flatMap]
  refine ⟨_, rows_flatMap report, ?_⟩
  rw [single, List.forall₂_map_right_iff]
  exact List.forall₂_same.mpr fun result _ => readsBack_rowText result

theorem unbroken_of_tabulated (tabulated : Tabulated report)
    (known : result ∈ report.summary.results) : breaks result = 0 := by
  obtain ⟨rows, these, each⟩ := tabulated
  obtain rfl := these.unique (rows_flatMap report)
  have many : (report.summary.results.map fun result => breaks result + 1).sum =
      report.summary.results.length := by
    rw [each.length_eq, List.length_flatMap]
    simp only [length_rowLines]
  have none : (report.summary.results.map breaks).sum = 0 := by
    have split : (report.summary.results.map fun result => breaks result + 1).sum =
        (report.summary.results.map breaks).sum + report.summary.results.length := by
      rw [List.sum_map_add]
      simp
    omega
  exact List.sum_eq_zero_iff.mp none _ (List.mem_map_of_mem known)

end Table

/-- The rows stand for the results in order. Each of them takes up one line and one more for each line
break in its name and its section, and with these line breaks put back its result is read from it. -/
theorem rows_read_back (report : Report) :
    (∃ blocks, Rows report blocks.flatten ∧
      List.Forall₂ (fun result block => block.length = breaks result + 1 ∧
        ReadsBack result (['\n'].intercalate block)) report.summary.results blocks) ∧
    (Tabulated report ↔ ∀ result ∈ report.summary.results,
      '\n' ∉ result.caseName.toList ∧ '\n' ∉ result.clause.toList) := by
  constructor
  · refine ⟨report.summary.results.map rowLines, rows_flatMap report, ?_⟩
    refine List.forall₂_map_right_iff.mpr (List.forall₂_same.mpr fun result _ => ?_)
    exact ⟨length_rowLines result, intercalate_rowLines result ▸ readsBack_rowText result⟩
  · have plain (result : VerificationResult) : breaks result = 0 ↔
        '\n' ∉ result.caseName.toList ∧ '\n' ∉ result.clause.toList := by
      rw [breaks, Nat.add_eq_zero_iff, List.count_eq_zero, List.count_eq_zero]
    simp only [← plain]
    exact ⟨fun tabulated result => unbroken_of_tabulated tabulated, tabulated_of_unbroken⟩

/-- One case that passed, with a line break in its name. -/
def brokenName : Report :=
  let result : VerificationResult :=
    { caseName := "a\nb", clause := "C11", mode := "strict", passed := true, expected := "",
      actual := "", expectedReturn := 0, actualReturn := 0, diff := none }
  { title := "t", mode := "strict", timestamp := "now", summary := .ofResults [result] }

/-- The line break ends the row behind the first letter of the name. -/
theorem row_torn_at_line_break :
    Rows brokenName ["| a".toList, "b | C11 | PASS |".toList] ∧ ¬ Tabulated brokenName := by
  have torn : brokenName.summary.results.flatMap rowLines =
      ["| a".toList, "b | C11 | PASS |".toList] := by decide
  refine ⟨torn ▸ rows_flatMap brokenName, fun tabulated => ?_⟩
  have unbroken := unbroken_of_tabulated tabulated List.mem_cons_self
  exact absurd unbroken (by decide)

end BoundedPrintf.Conformance.Report
