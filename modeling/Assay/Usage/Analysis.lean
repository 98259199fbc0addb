import Assay.Usage.Given
import Assay.Usage.Scan

/-!
# Analyses

An analysis of a program text lists its usages: what a scan finds, each with a direction
and a format, without repeats and in the order of the lines. Two usages are the same when
path, mode and line are; the first one found is kept.

## Main definitions

* `Finding.usage` — the usage of a finding
* `Usage.distinct`, `Usage.inLineOrder` — usages without repeats, by their lines
* `Analysis`, `Analysis.ofDirection`, `Analysis.counts` — an analysis and its views
* `Rules.analyze` — the analysis of a text
-/

namespace Assay

/-- The usage that a finding is. A format that the rule does not tell is guessed from the
path. -/
def Finding.usage (f : Finding) : Usage :=
  { path := f.extraction.path, mode := f.extraction.mode, line := f.line,
    method := f.extraction.method,
    format :=
      if f.extraction.format.isTruthy then f.extraction.format
      else .text (Usage.guessFormat f.extraction.path),
    raw := f.raw, direction := Direction.ofMode f.extraction.mode, category := f.category,
    encoding := f.extraction.encoding, isSymbolic := f.extraction.isSymbolic }

namespace Usage

/-- Usages without those that are the same as an earlier one or as one of `seen`. -/
def distinctFrom (seen : List (String × String × Int)) : List Usage → List Usage
  | [] => []
  | u :: us =>
    if seen.contains u.identity then distinctFrom seen us
    else u :: distinctFrom (u.identity :: seen) us

/-- Usages without those that are the same as an earlier one. -/
def distinct (us : List Usage) : List Usage := distinctFrom [] us

/-- Usages by their lines; those on one line keep their order. -/
def inLineOrder (us : List Usage) : List Usage := us.mergeSort fun u v => u.line ≤ v.line

/-- Usages without repeats and by their lines. -/
def tidy (us : List Usage) : List Usage := inLineOrder (distinct us)

end Usage

/-- What is known about a program text. -/
structure Analysis where
  usages : List Usage
  imports : List String
  /-- The name of the text, if it has one. -/
  source : Option String

namespace Analysis

/-- The usages of a direction. -/
def ofDirection (a : Analysis) (d : Direction) : List Usage :=
  a.usages.filter fun u => u.direction = d

/-- No usage was found. -/
def isEmpty (a : Analysis) : Bool := a.usages.isEmpty

/-- The number of usages of each direction. -/
def counts (a : Analysis) : List (Direction × Nat) :=
  Direction.all.map fun d => (d, (a.ofDirection d).length)

/-- An analysis as one that is handed in. -/
def given (a : Analysis) : GivenAnalysis :=
  ⟨a.usages.map Usage.given, a.imports.map .text, .ofOptionalText a.source⟩

/-- An analysis as a value. -/
def toSetting (a : Analysis) : Setting := a.given.toSetting

end Analysis

namespace Rules

/-- The analysis of a text, which may have a name. -/
def analyze (rules : Rules) (source : List Char) (name : Option String) :
    Logged Fault Analysis := do
  let found ← rules.orBuiltin.scan source
  let usages := Usage.tidy (found.map Finding.usage)
  let shown := match name with
    | none => "source"
    | some s => if s = "" then "source" else s
  Logged.write .info .analyzer ("Analyzed " ++ shown ++ ": " ++ toString found.length ++
    " matches, " ++ toString usages.length ++ " unique usages (0.000s)")
  return ⟨usages, Usage.imports source, name⟩

/-- The built-in rules and those of definitions. -/
def configured (definitions : List (Fields Key Setting)) : Logged (Failure RuleError) Rules := do
  let rules ← Logged.ofExcept (builtin.withDefinitions definitions)
  if !definitions.isEmpty then
    Logged.write .debug .library
      ("Added " ++ toString definitions.length ++ " configured I/O pattern(s)")
  return rules

end Rules

end Assay
