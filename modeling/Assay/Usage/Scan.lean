import Assay.Log
import Assay.Usage.Builtin

/-!
# Scans

A scan tries every rule on the whole of a program text and reports the matches of the
first rule, then those of the second, and so on. The modules that a program imports are
found in the same text.

## Main definitions

* `Finding` — a match of a rule with its extraction
* `Rules.scan` — the findings in a text
* `Usage.imports` — the modules that a text imports
-/

namespace Assay

/-- A match of a rule, with what has been extracted from it. -/
structure Finding where
  rule : Setting
  category : Category
  /-- The line on which it begins, counted from one. -/
  line : Nat
  /-- The text that was matched. -/
  raw : String
  extraction : Extraction

/-- A finding as a value. -/
def Finding.toSetting (f : Finding) : Setting :=
  .record
    [(.text "pattern", f.rule),
     (.text "category", .text f.category.name),
     (.text "line", .int f.line),
     (.text "raw", .text f.raw),
     (.text "extraction", f.extraction.toSetting)]

namespace Rule

/-- What a rule reports for one of its matches. -/
def finding (r : Rule) (m : Match) : Except Fault Finding := do
  return ⟨r.name, r.category, m.line, String.ofList m.text, ← r.extractor.extract m⟩

/-- What a rule finds in a text. A pattern of bytes cannot be looked for in one. -/
def findings (r : Rule) (source : List Char) : Except Fault (List Finding) :=
  if r.pattern.ofOctets then .error .patternOfOctets
  else (r.pattern.body.findAll source).mapM r.finding

end Rule

namespace Rules

/-- What rules find in a text, rule by rule. -/
def findings (source : List Char) : Rules → Except Fault (List Finding)
  | [] => return []
  | r :: rs => do return (← r.findings source) ++ (← findings source rs)

/-- The rules that a scan applies: without any, the built-in ones. -/
def orBuiltin (rules : Rules) : Rules := if rules.isEmpty then builtin else rules

/-- A scan of a text. -/
def scan (rules : Rules) (source : List Char) : Logged Fault (List Finding) := do
  let used := rules.orBuiltin
  let found ← Logged.ofExcept (used.findings source)
  Logged.write .debug .scanner ("Scanned " ++ toString source.length ++ " characters with " ++
    toString used.length ++ " rules: " ++ toString found.length ++ " raw matches")
  return found

end Rules

namespace Usage

open Regex in
/-- An import at the beginning of a line, up to the end of the name of a module. -/
def importStatement : Regex :=
  sequence [.anchor .lineStart, firstOf [literal "import", literal "from"], Builtin.someBlanks,
    Builtin.capture .symbol Builtin.word]

/-- The modules that a text imports, each one once, in the order of their first import. -/
def imports (source : List Char) : List String :=
  ((importStatement.findAll source).map fun m =>
    Extractor.orElse m Slot.symbol.group "").eraseDups

end Usage

end Assay
