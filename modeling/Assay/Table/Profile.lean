import Assay.Config.Basic
import Assay.Table.Delimited
import Assay.Table.Gate
import Assay.Table.Nested

/-!
# Profiles of tables

A profiler reads a text in its declared format, sums up every field and applies the
quality gate to each column. It either gives a complete profile or none, and reports
what it does in the log.

## Main definitions

* `Profiler`, `Profiler.ofConfig` — the settings for profiling
* `Table.read` — the table of a text
* `Profile`, `Profiler.run` — the profile of a text
* `Profile.preview`, `Profile.failedFields`, `Profile.passedAll` — views of a profile
-/

namespace Assay

/-- The settings for profiling. -/
structure Profiler where
  delimiter : String
  sampleSize : Int
  gate : Gate

/-- The profiler of a configuration. Its threshold has to be a percentage. -/
def Profiler.ofConfig (c : Config) : Except (Failure ConfigError) Profiler :=
  (Gate.ofThreshold (.real c.threshold)).map fun gate => ⟨c.delimiter, c.sampleSize, gate⟩

namespace Table

/-- The table of a text in a format. -/
def ofText (format : Format) (separator : Separator) (cs : List Char) :
    Except (Failure TableError) Table :=
  match format with
  | .delimited => Delimited.readSeparated separator cs
  | .nested => Nested.read cs

/-- The table of a text in a declared format. A blank text gives none. -/
def ofDeclared (separator : Separator) (text : Option String) (declared : String) :
    Except (Failure TableError) Table :=
  match Format.ofName? declared with
  | none => declare (.unsupportedFormat declared)
  | some format =>
    let cs := (text.getD "").toList
    if Text.isAllBlank cs then declare (.blank format) else ofText format separator cs

/-- The name of a source for a log record. -/
def sourceName (source : Option String) : String :=
  match source with
  | none => "input"
  | some s => if s = "" then "input" else s

/-- The table of a text in a declared format, with a warning about short rows. -/
def read (separator : Separator) (text : Option String) (declared : String)
    (source : Option String) : Logged (Failure TableError) Table :=
  match ofDeclared separator text declared with
  | .error e => ⟨[], .error e⟩
  | .ok t => ⟨t.warnings (sourceName source) ++ [t.progress], .ok t⟩

end Table

/-- The profile of a text. -/
structure Profile where
  source : String
  table : Table
  /-- One column for each field, in their order. -/
  columns : List Column
  gate : Gate

namespace Profile

/-- The fields with the decisions of the gate. -/
def decisions (p : Profile) : List (String × Bool) :=
  p.columns.map fun c => (c.name, p.gate.passes c)

/-- The fields that do not pass the gate. -/
def failedFields (p : Profile) : List String :=
  (p.decisions.filter fun d => !d.2).map Prod.fst

/-- Every field passes the gate. -/
def passedAll (p : Profile) : Bool := p.decisions.all Prod.snd

/-- The first records, each with all fields. A negative limit leaves out records at the
end. -/
def preview (p : Profile) (limit : Int) : List (List (String × Document)) :=
  (Table.takeSlice limit p.table.records).map fun r =>
    p.table.fields.map fun field => (field, (Fields.get? field r).getD .null)

/-- The report of a finished profile. The library keeps no clock: durations are zero. -/
def progress (p : Profile) : Log.Record :=
  ⟨.info, .profiler, "Profiled " ++ p.source ++ ": " ++ toString p.table.records.length ++
    " records, " ++ toString p.table.fields.length ++ " fields, " ++
    toString p.failedFields.length ++ " below quality gate (0.000s)"⟩

end Profile

/-- The report of a finished column. -/
def Column.progress (c : Column) : Log.Record :=
  ⟨.debug, .statistics, "Column '" ++ c.name ++ "': " ++ toString c.total ++ " values, " ++
    toString c.missing ++ " empty, dominant type " ++ c.dominant.name⟩

namespace Profiler

/-- The columns of the given fields of a table, one after the other. -/
def columns (sampleSize : Int) (t : Table) :
    List String → Logged (Failure TableError) (List Column)
  | [] => pure []
  | field :: fields =>
    match Column.ofValues field sampleSize (t.values field) with
    | .error f => ⟨[], .error (.fault f)⟩
    | .ok c =>
      let rest := columns sampleSize t fields
      ⟨c.progress :: rest.log, rest.result.map (c :: ·)⟩

/-- The profile of a text in a declared format, with cells between separators. -/
def runSeparated (p : Profiler) (text : Option String) (declared : String) (source : String)
    (separator : Separator) : Logged (Failure TableError) Profile := do
  let t ← Table.read separator text declared (some source)
  let columns ← columns p.sampleSize t t.fields
  let profile : Profile := ⟨source, t, columns, p.gate⟩
  Logged.write profile.progress.level profile.progress.part profile.progress.message
  return profile

/-- The profile of a text in a declared format. A delimiter that is given and not empty
goes before the configured one. -/
def run (p : Profiler) (text : Option String) (declared : String) (source : String)
    (delimiter : Option String) : Logged (Failure TableError) Profile :=
  p.runSeparated text declared source <| .delimiter <|
    match delimiter with
    | none => p.delimiter
    | some d => if d = "" then p.delimiter else d

end Profiler

end Assay
