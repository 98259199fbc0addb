import Assay.Command.Address
import Assay.Command.Archive
import Assay.Command.Session
import Assay.Config.File
import Assay.Table.Detect
import Assay.Table.Export

/-!
# Profiling a file

The command profiles the table of a file and shows it: the structure of nested objects,
the fields with their decisions, and the first records. It can write the profile as JSON
and its summary for spreadsheets, and end with an error when a field fails the gate.

## Main definitions

* `Command.configOf` — the configuration of a command
* `Command.ProfileOptions.run` — the command
-/

namespace Assay.Command

/-- Say why a configuration is refused, and end. -/
def refuseConfig {α : Type} (message : String) : Action α := do
  print (Terminal.note .error ("Configuration error: " ++ message) 0)
  throw (.exit 1)

/-- A configuration or the end. -/
def orRefuse {α : Type} (x : Except (Failure ConfigError) α) : Action α :=
  match x with
  | .ok a => pure a
  | .error (.declared e) => refuseConfig e.message
  | .error (.fault f) => breakOff f

/-- The configuration of a file, if one is given. -/
def configOf (path : Option String) : Action Config :=
  match path with
  | none => pure Config.default
  | some path => do orRefuse (Config.ofFile path ((← view).file? path))

/-- The text of a file. -/
def textOf (path : String) : Action String := do
  return Text.decode (((← view).file? path).getD .empty)

/-- A text of limited width; three points stand for what is cut off. -/
def clip (width : Nat) (s : String) : String :=
  if s.length ≤ width then s else String.ofList (s.toList.take (width - 3)) ++ "..."

/-- A value of limited width; null is shown as nothing. -/
def display (width : Nat) (v : Document) : Except Fault String :=
  match v with
  | .null => .ok ""
  | v => do return clip width (← v.plain)

/-- The heading of the part about files that were written. -/
def printFilesHeading : Action Unit := do
  print Terminal.blankLine
  print (Terminal.subsection "Output Files")

/-- Say that a file was written. -/
def printFile (label path : String) : Action Unit := print (Terminal.outputFile label path 2)

/-- Write a file and say so. -/
def writeOutput (label path : String) (out : Output) : Action Unit := do
  writeFile path out
  printFile label path

/-- A file of this name is compressed by a package that is not there. -/
def needsPackage (path : String) : Bool :=
  ".zst".toList.isSuffixOf (Text.lowered path.toList)

/-- Save a summary in a directory, on its own or in an archive, or look for its address. -/
def saveSummary (path text : String) : Action Unit := do
  let folder ← view
  match Address.ofPath? path with
  | some a => (a.find folder : Action Unit)
  | none =>
    let path := FileName.expanded folder.home path
    if !folder.hasDirectory (FileName.parent path) then
      breakOff (.noFolderFor (FileName.parent path))
    if needsPackage path then breakOff (.lacksPackage "zstandard")
    writeFile path (.ofText (match Archive.nameOf? path with
      | some name => Archive.ofFile name text
      | none => text))

/-- The row of an entry of a structure. -/
def entryRow (e : Entry) : Except Fault (List String) := do
  return [e.path, e.kind.name, ← display 24 e.sample]

/-- The row of a field. -/
def columnRow (gate : Gate) (c : Column) : List String :=
  let number (f : NumberSummary → String) : String := (c.numbers.map f).getD ""
  [clip 24 c.name, c.dominant.name, Number.fixedText 1 c.missingRate ++ "%", toString c.unique,
   number fun n => clip 12 (Number.floatText n.least),
   number fun n => clip 12 (Number.floatText n.greatest),
   number fun n => Number.fixedText 2 n.mean,
   Terminal.gateBadge (gate.passes c)]

/-- The row of a record. -/
def recordRow (r : List (String × Document)) : Except Fault (List String) :=
  r.mapM fun (_, v) => display 16 v

/-- Show the structure of nested objects. -/
def printStructure (t : Table) : Action Unit := do
  if t.format = .nested && !t.entries.isEmpty then
    print (Terminal.subsection "Structure")
    let rows ← t.entries.mapM fun e => (entryRow e : Action (List String))
    printAll (Terminal.textTable ["Path", "Type", "Sample"] rows)

/-- Show the fields. -/
def printFields (p : Profile) : Action Unit := do
  print (Terminal.subsection "Fields")
  printAll (Terminal.textTable
    ["Field", "Type", "Empty", "Unique", "Min", "Max", "Mean", "Gate"]
    (p.columns.map (columnRow p.gate)))

/-- Show the first records. -/
def printPreview (p : Profile) (limit : Nat) : Action Unit := do
  if !p.table.records.isEmpty then
    print (Terminal.subsection
      ("Preview (first " ++ toString (min limit p.table.records.length) ++ " records)"))
    let rows ← (p.preview limit).mapM fun r => (recordRow r : Action (List String))
    printAll (Terminal.textTable (p.table.fields.map (clip 16)) rows)

/-- Show a profile. -/
def printProfile (p : Profile) (preview : Option Nat) : Action Unit := do
  printAll (Terminal.header (.text ("Profile: " ++ p.source)) .null)
  print (Terminal.keyValue "Format" p.table.format.name 0 none)
  print (Terminal.keyValue "Records" (Number.groupedText p.table.records.length) 0 none)
  print (Terminal.keyValue "Fields" (toString p.table.fields.length) 0 none)
  print (Terminal.keyValue "Quality threshold"
    (Number.generalText p.gate.threshold.value ++ "% empty") 0 none)
  printStructure p.table
  printFields p
  match preview with
  | none => pure ()
  | some limit => printPreview p limit
  printAll (Terminal.profileSummary (.int p.table.records.length) (.int p.table.fields.length)
    (.int p.failedFields.length) (.float 0.0))

namespace ProfileOptions

/-- The configuration, with the threshold that is asked for. -/
def readConfig (o : ProfileOptions) : Action Config := do
  let config ← configOf o.config
  match o.threshold with
  | none => return config
  | some x => orRefuse (config.withThreshold x)

/-- The delimiter that is asked for, where a backslash and a `t` stand for a tab, or the
one that the name of the file suggests. -/
def chosenDelimiter (o : ProfileOptions) : Option String :=
  match o.delimiter.filter (· ≠ "") with
  | some d => some (d.replace "\\t" "\t")
  | none => (Format.detect o.file).2

/-- The format that is asked for, or the one that the name of the file suggests. -/
def chosenFormat (o : ProfileOptions) : Format := o.format.getD (Format.detect o.file).1

/-- Say why a file gives no table, and end. -/
def refuseTable {α : Type} (o : ProfileOptions) (e : TableError) : Action α := do
  print (Terminal.note .error ("Could not parse " ++ o.file ++ ":") 0)
  complain ("   " ++ e.message ++ "\n")
  if e.declared ≠ Format.nested.name && (o.chosenDelimiter.getD "").isEmpty then
    print (Terminal.note .info "Tip: Try specifying the delimiter with -d option" 0)
  throw (.exit 1)

/-- The profile that is asked for. -/
def readProfile (o : ProfileOptions) (config : Config) : Action Profile := do
  let profiler ← orRefuse (Profiler.ofConfig config)
  let text ← textOf o.file
  match ← logged (profiler.run text o.chosenFormat.name (FileName.last o.file)
      o.chosenDelimiter) with
  | .ok p => return p
  | .error (.declared e) => o.refuseTable e
  | .error (.fault f) => breakOff f

/-- Write the files that are asked for. -/
def writeFiles (o : ProfileOptions) (p : Profile) : Action Unit := do
  if o.jsonOutput.isSome || o.csvOutput.isSome then printFilesHeading
  if let some path := o.jsonOutput then
    writeOutput "JSON" path (Json.emit Json.indented p.toDocument)
  if let some path := o.csvOutput then
    saveSummary path p.summaryText
    printFile "CSV" path

/-- Profile a file. -/
def run (o : ProfileOptions) : Action Unit := do
  startLog o.log
  let config ← o.readConfig
  let p ← o.readProfile config
  printProfile p (if o.preview then some config.previewRows else none)
  o.writeFiles p
  print Terminal.blankLine
  if o.failOnGate && !p.passedAll then
    print (Terminal.note .error
      ("Quality gate failed for: " ++ ", ".intercalate p.failedFields) 0)
    throw (.exit 1)

end ProfileOptions

end Assay.Command
