import Assay.Command.Profile
import Assay.Json.Writer
import Assay.Usage.Report

/-!
# Analysing a program text

The command lists the usages of a program text, and can show its report or write it to a
file, as text or as JSON.

## Main definitions

* `Command.AnalyzeOptions.run` — the command
-/

namespace Assay.Command

/-- The row of a usage. -/
def usageRow (u : Usage) : Except Fault (List String) := do
  return [toString u.line, u.direction.title, clip 40 u.path, ← u.format.plain, u.method]

/-- Show an analysis of a named text. -/
def printAnalysis (name : String) (a : Analysis) : Action Unit := do
  printAll (Terminal.header (.text ("I/O Analysis: " ++ name)) .null)
  if !a.imports.isEmpty then
    print (Terminal.keyValue "Imports" (", ".intercalate a.imports) 0 none)
  if a.isEmpty then print (Terminal.note .warning "No I/O operations detected" 0)
  else
    print (Terminal.subsection "Operations")
    let rows ← a.usages.mapM fun u => (usageRow u : Action (List String))
    printAll (Terminal.textTable ["Line", "Direction", "Path", "Format", "Method"] rows)
  print (Terminal.analysisSummary (a.counts.map fun (d, n) => (d.name, toString n))
    (toString a.imports.length))

namespace AnalyzeOptions

/-- The rules that are asked for. -/
def readRules (o : AnalyzeOptions) : Action Rules := do
  let config ← configOf o.config
  match ← logged (Rules.configured config.rules) with
  | .ok rules => return rules
  | .error (.declared e) => refuseConfig e.message
  | .error (.fault f) => breakOff f

/-- The analysis that is asked for. -/
def readAnalysis (o : AnalyzeOptions) (rules : Rules) : Action Analysis := do
  let text ← textOf o.file
  match ← logged (rules.analyze text.toList (FileName.last o.file)) with
  | .ok a => return a
  | .error f => breakOff f

/-- Write the files that are asked for. -/
def writeFiles (o : AnalyzeOptions) (a : Analysis) (report : String) : Action Unit := do
  if o.specOutput.isSome || o.jsonOutput.isSome then printFilesHeading
  if let some path := o.specOutput then writeOutput "Spec" path (.ofText report)
  if let some path := o.jsonOutput then
    writeOutput "JSON" path (Json.emit Json.indented a.toSetting)

/-- Analyse a program text. -/
def run (o : AnalyzeOptions) : Action Unit := do
  startLog o.log
  let rules ← o.readRules
  let a ← o.readAnalysis rules
  let report := (← a.report o.name).text
  printAnalysis (FileName.last o.file) a
  o.writeFiles a report
  if o.showSpec then
    print Terminal.blankLine
    print report

end AnalyzeOptions

end Assay.Command
