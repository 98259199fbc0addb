import Assay.Usage.Analysis

/-!
# Reports

The report of an analysis is a text with one line for each fact. A section begins with
its name on a line of its own, and its lines are indented; a section that has nothing to
tell says so. All sections are there, in a fixed order: the name of the text, the modules
that it imports, and its usages by direction.

## Main definitions

* `Report` — the contents of a report
* `Report.lines`, `Report.text` — the report as text
* `GivenAnalysis.report`, `Analysis.report` — the report of an analysis
-/

namespace Assay

/-- A usage in a report. -/
structure ReportEntry where
  path : String
  format : String
  method : String
  deriving DecidableEq, Repr

/-- The contents of a report. -/
structure Report where
  /-- The name under which the text is shown. -/
  name : String
  imports : List String
  entries : Direction → List ReportEntry

namespace Report

/-- The lines above all sections. -/
def header : List String :=
  ["# I/O specification (auto-generated)", "# Generated by scope-inspect"]

/-- The lines of a section that has nothing to tell. -/
def emptySection : List String := ["  []"]

/-- The lines of a section, or what stands for them when there are none. -/
def sectionLines (lines : List String) : List String :=
  if lines.isEmpty then emptySection else lines

/-- The name of the section for a direction. -/
def sectionName : Direction → String
  | .input => "inputs"
  | .output => "outputs"
  | .bidirectional => "bidirectional"
  | .argument => "arguments"
  | .environment => "environment"

/-- The lines of a usage. -/
def entryLines (e : ReportEntry) : List String :=
  ["  - file: " ++ e.path, "    format: " ++ e.format, "    method: " ++ e.method]

/-- The lines of the section for a direction. -/
def directionLines (r : Report) (d : Direction) : List String :=
  (sectionName d ++ ":") :: sectionLines ((r.entries d).flatMap entryLines)

/-- The lines of a report. -/
def lines (r : Report) : List String :=
  header ++ ["name:", "  " ++ r.name] ++
    "imports:" :: sectionLines (r.imports.map fun m => "  - " ++ m) ++
    Direction.all.flatMap r.directionLines

/-- The text of a report: each of its lines with a line feed behind it. -/
def text (r : Report) : String := String.join (r.lines.map (· ++ "\n"))

end Report

namespace GivenAnalysis

/-- The name under which the text of an analysis is shown: the one that is asked for, its
own, or a fixed one. A name that does not count as present, as an empty one, is none. -/
def shownName (a : GivenAnalysis) (asked : Setting) : Setting :=
  if asked.isTruthy then asked
  else if a.source.isTruthy then a.source
  else .text "untitled.py"

/-- A usage as it stands in a report. -/
def entry (u : GivenUsage) : Except Fault ReportEntry :=
  return ⟨← u.path.plain, ← u.format.plain, ← u.method.plain⟩

/-- The report of an analysis, under a name if one is asked for. -/
def report (a : GivenAnalysis) (asked : Setting) : Except Fault Report := do
  let name ← (a.shownName asked).plain
  let imports ← a.imports.mapM Value.plain
  let input ← (a.ofDirection .input).mapM entry
  let output ← (a.ofDirection .output).mapM entry
  let bidirectional ← (a.ofDirection .bidirectional).mapM entry
  let argument ← (a.ofDirection .argument).mapM entry
  let environment ← (a.ofDirection .environment).mapM entry
  return ⟨name, imports, fun
    | .input => input
    | .output => output
    | .bidirectional => bidirectional
    | .argument => argument
    | .environment => environment⟩

end GivenAnalysis

/-- The report of an analysis, under a name if one is asked for. -/
def Analysis.report (a : Analysis) (asked : Option String) : Except Fault Report :=
  a.given.report (.ofOptionalText asked)

end Assay
