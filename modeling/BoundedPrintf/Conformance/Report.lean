import BoundedPrintf.Conformance.Verification

/-! The report on a verification run, as Markdown for a reader and as JSON. -/
namespace BoundedPrintf.Conformance

/-- A fixture file that a report rests on. -/
structure ReportSource where
  path : String
  family : String
  sha256 : String
  cases : Nat

structure Report where
  title : String
  /-- The modes that were run, joined by plus signs. -/
  mode : String
  timestamp : String
  sources : List ReportSource := []
  summary : Summary

namespace ReportSource

def ofJson? (json : Json) : Option ReportSource := do
  let record ← json.record? ["path", "family", "sha256", "cases"]
  some
    { path := ← record.required? "path" Json.text?
      family := ← record.required? "family" Json.text?
      sha256 := ← record.required? "sha256" Json.text?
      cases := (← record.required? "cases" Json.uint64?).toNat }

def toJson (source : ReportSource) : Json :=
  .object [("path", .string source.path), ("family", .string source.family), ("sha256", .string source.sha256),
    ("cases", .integer source.cases)]

end ReportSource

namespace Report

def ofJson? (json : Json) : Option Report := do
  let record ← json.record? ["title", "mode", "timestamp", "sources", "summary"]
  some
    { title := ← record.required? "title" Json.text?
      mode := ← record.required? "mode" Json.text?
      timestamp := ← record.required? "timestamp" Json.text?
      sources := ← record.withDefault? "sources" [] (Json.list? ReportSource.ofJson?)
      summary := ← record.required? "summary" Summary.ofJson? }

def toJson (report : Report) : Json :=
  .object [("title", .string report.title), ("mode", .string report.mode), ("timestamp", .string report.timestamp),
    ("sources", .array (report.sources.map ReportSource.toJson)), ("summary", report.summary.toJson)]

/-- The report in JSON. -/
def write (report : Report) : String := report.toJson.pretty

/-- The text of a table cell. A bar inside it gets a backslash. -/
def cell (text : String) : String :=
  String.ofList (text.toList.flatMap fun c => if c = '|' then ['\\', '|'] else [c])

/-- A line of a table. -/
def row (cells : List String) : String := "| " ++ " | ".intercalate cells ++ " |\n"

def header (report : Report) : String :=
  "# " ++ report.title ++ "\n\n" ++
  "- Mode: " ++ report.mode ++ "\n" ++
  "- Timestamp: " ++ report.timestamp ++ "\n" ++
  "- Total: " ++ toString report.summary.total ++ "\n" ++
  "- Passed: " ++ toString report.summary.passed ++ "\n" ++
  "- Failed: " ++ toString report.summary.failed ++ "\n\n"

/-- The table of fixture files, left out when there are none. -/
def sourceTable (sources : List ReportSource) : String :=
  if sources.isEmpty then ""
  else
    row ["Fixture", "Family", "Cases", "SHA-256"] ++ "|---------|--------|-------|---------|\n" ++
    String.join (sources.map fun source =>
      row [source.path, source.family, toString source.cases, "`" ++ source.sha256 ++ "`"]) ++ "\n"

def status (result : VerificationResult) : String := if result.passed then "PASS" else "FAIL"

def caseRow (result : VerificationResult) : String := row [cell result.caseName, cell result.clause, status result]

def caseTable (results : List VerificationResult) : String :=
  row ["Case", "Section", "Status"] ++ "|------|---------|--------|\n" ++ String.join (results.map caseRow)

/-- What was wrong with each case that failed. -/
def failureList (failures : List VerificationResult) : String :=
  if failures.isEmpty then ""
  else
    "\n## Failures\n" ++
    String.join (failures.map fun result =>
      "\n### " ++ result.caseName ++ "\n\n```\n" ++ result.diff.getD "" ++ "\n```\n")

/-- The report in Markdown. -/
def markdown (report : Report) : String :=
  report.header ++ sourceTable report.sources ++ caseTable report.summary.results ++
    failureList report.summary.failures

end Report

end BoundedPrintf.Conformance
