import Assay.Config.Basic
import Assay.Regex.Reader
import Assay.Usage.Extractor

/-!
# Rules

A rule recognises one way in which programs read or write data: a pattern, and an
extractor for its matches. Rules are built in, or defined in a configuration by a record
with a name, a regular expression and optional settings.

## Main definitions

* `Rule` — a rule
* `RuleError` — why a definition of a rule is refused
* `Rule.ofDefinition` — the rule of a definition
* `Rules`, `Rules.add`, `Rules.withDefinitions` — rules in the order in which they are
  tried
-/

namespace Assay

/-- A rule. Its name is a text, unless a configuration gives it another value. -/
structure Rule where
  name : Setting
  pattern : Pattern
  category : Category
  extractor : Extractor

/-- Why a definition of a rule is refused. -/
inductive RuleError where
  | withoutName
  | withoutRegex (name : Setting) (shown : String)
  | badRegex (name : Setting) (shown : String) (cause : String)
  | unknownCategory (name : Setting) (shown : String) (category : String)
  | noGroup (name : Setting) (shown : String) (group : String)
  | noGroupNamed (name : Setting) (shown : String) (group : String)
  | nameTaken (name : Setting) (shown : String)

namespace RuleError

/-- The name of the rule. -/
def name : RuleError → Setting
  | withoutName => .null
  | withoutRegex name _ | badRegex name _ _ | unknownCategory name _ _ | noGroup name _ _
  | noGroupNamed name _ _ | nameTaken name _ => name

/-- The wording of a refusal. -/
def message : RuleError → String
  | withoutName => "Pattern definition requires a 'name'"
  | withoutRegex _ shown => "Pattern '" ++ shown ++ "' requires a 'regex'"
  | badRegex _ shown cause => "Pattern '" ++ shown ++ "' has an invalid regex: " ++ cause
  | unknownCategory _ shown category =>
    "Pattern '" ++ shown ++ "' has unknown category '" ++ category ++ "' (valid: " ++
      ", ".intercalate (Category.all.map Category.name) ++ ")"
  | noGroup _ shown group => "Pattern '" ++ shown ++ "' has no group " ++ group
  | noGroupNamed _ shown group => "Pattern '" ++ shown ++ "' has no group named '" ++ group ++ "'"
  | nameTaken _ shown => "Duplicate pattern name '" ++ shown ++ "'"

/-- The wording of the error behind a refusal. -/
def cause : RuleError → Option String
  | badRegex _ _ cause => some cause
  | _ => none

/-- The report of a refusal. -/
def diagnostic (e : RuleError) : Diagnostic :=
  { errorClass := .ruleDefinition, message := e.message,
    details := Diagnostic.ruleDetails e.name, cause := e.cause }

end RuleError

namespace Rule

/-- Refuse a definition. Its name is shown only then. -/
def refuse {α : Type} (name : Setting) (e : Setting → String → RuleError) :
    Except (Failure RuleError) α := do
  declare (e name (← name.plain))

/-- Refuse a value that a definition gives, which is shown behind the name. -/
def refuseValue {α : Type} (name v : Setting) (e : Setting → String → String → RuleError) :
    Except (Failure RuleError) α := do
  declare (e name (← name.plain) (← v.plain))

/-- The pattern of a text, or of the bytes that characters stand for. What is wrong with it has
its wording. -/
def readPattern (a : Regex.Alphabet) (cs : List Char) : Except (Failure String) Pattern :=
  (Pattern.read a cs).mapError (Failure.map fun e => e.message a cs)

/-- The pattern that a value writes. -/
def expressionOf (v : Setting) : Except (Failure String) Pattern :=
  match v with
  | .text s => readPattern .characters s.toList
  | .foreign (.datum (.octets bytes)) => readPattern .octets (bytes.map Char.ofNat)
  | .list _ | .record _ | .foreign (.set _) => .error (.fault (.notHashable v.kindName))
  | _ => .error (.fault .notARegex)

/-- The pattern that a definition gives. -/
def patternOf (name v : Setting) : Except (Failure RuleError) Pattern :=
  match expressionOf v with
  | .ok p => .ok p
  | .error (.declared cause) => refuse name fun name shown => .badRegex name shown cause
  | .error (.fault f) => .error (.fault f)

/-- The kind of operation that a value names. -/
def category? (v : Setting) : Option Category :=
  match v with
  | .text s => Category.ofName? s
  | _ => none

/-- The kind of operation that a definition gives. -/
def categoryOf (name v : Setting) : Except (Failure RuleError) Category :=
  match category? v with
  | some c => .ok c
  | none => refuseValue name v .unknownCategory

/-- The group that holds the path: by its number, or by its name. -/
def groupOf (name : Setting) (p : Pattern) (v : Setting) : Except (Failure RuleError) Nat :=
  let numbered (n : Int) : Except (Failure RuleError) Nat :=
    if 0 ≤ n ∧ n ≤ p.groupCount then .ok n.toNat else refuseValue name v .noGroup
  match v with
  | .int n => numbered n
  | .bool b => numbered b.toNat
  | .text s =>
    match p.groupNames.lookup s with
    | some n => .ok n
    | none => refuseValue name v .noGroupNamed
  | .list _ | .record _ | .foreign (.set _) => .error (.fault (.notHashable v.kindName))
  | v => refuseValue name v .noGroupNamed

/-- The rule of a definition. -/
def ofDefinition (fs : Fields Key Setting) : Except (Failure RuleError) Rule := do
  let name := (Config.lookup "name" fs).getD .null
  if !name.isTruthy then declare .withoutName
  let regex := (Config.lookup "regex" fs).getD .null
  if !regex.isTruthy then refuse name .withoutRegex
  let pattern ← patternOf name regex
  let category ← categoryOf name ((Config.lookup "category" fs).getD (.text Category.file.name))
  let group ← groupOf name pattern ((Config.lookup "path_group" fs).getD (.int 1))
  let mode ← ((Config.lookup "mode" fs).getD (.text "r")).plain
  let method ← ((Config.lookup "method" fs).getD name).plain
  let format := ((Config.lookup "format" fs).getD .null).detached
  let isSymbolic := ((Config.lookup "symbolic" fs).getD (.bool false)).isTruthy
  return ⟨name, pattern, category, .captured group mode method format isSymbolic⟩

end Rule

/-- Rules in the order in which they are tried; no two have the same name. -/
abbrev Rules := List Rule

namespace Rules

/-- The names of the rules. -/
def names (rules : Rules) : List Setting := rules.map Rule.name

/-- Put a rule behind the others, unless its name is taken. -/
def add (rules : Rules) (r : Rule) : Except (Failure RuleError) Rules :=
  if rules.names.any r.name.equal then Rule.refuse r.name .nameTaken else .ok (rules ++ [r])

/-- Add the rules of definitions, one after the other. -/
def withDefinitions (rules : Rules) : List (Fields Key Setting) → Except (Failure RuleError) Rules
  | [] => return rules
  | d :: ds => do withDefinitions (← rules.add (← Rule.ofDefinition d)) ds

end Rules

end Assay
