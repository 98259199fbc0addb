import Assay.Value.Shown

/-!
# Diagnostics

The report of an error: its class, its wording, how severe it is, details as named
values, and the wording of the error behind it, if there is one. The classes form a
small hierarchy with configuration errors and table errors as its two branches.

## Main definitions

* `Severity`, `ErrorClass` — how severe an error is, and its class
* `Diagnostic` — the report of an error
* `Diagnostic.ofParts` — the report of an error of a class
-/

namespace Assay

/-- How severe an error is. -/
inductive Severity where
  | fatal | critical | recoverable | warning
  deriving DecidableEq, Repr

namespace Severity

/-- The name of a severity. -/
def name : Severity → String
  | fatal => "fatal"
  | critical => "critical"
  | recoverable => "recoverable"
  | warning => "warning"

/-- All severities. -/
def all : List Severity := [fatal, critical, recoverable, warning]

/-- The severity of a name. -/
def ofName? (s : String) : Option Severity := all.find? fun v => v.name == s

end Severity

/-- The classes of errors. -/
inductive ErrorClass where
  | general
  | config | configSize | configValue | ruleDefinition
  | table | emptyInput | malformedInput | unsupportedFormat
  deriving DecidableEq, Repr

namespace ErrorClass

/-- The name under which a class is reported. -/
def name : ErrorClass → String
  | general => "InspectionException"
  | config => "ConfigError"
  | configSize => "YAMLSizeError"
  | configValue => "ConfigValidationError"
  | ruleDefinition => "PatternDefinitionError"
  | table => "ParseError"
  | emptyInput => "EmptyInputError"
  | malformedInput => "MalformedInputError"
  | unsupportedFormat => "UnsupportedFormatError"

/-- All classes. -/
def all : List ErrorClass :=
  [general, config, configSize, configValue, ruleDefinition, table, emptyInput, malformedInput,
    unsupportedFormat]

/-- The class of a name. -/
def ofName? (s : String) : Option ErrorClass := all.find? fun c => c.name == s

/-- The error comes from a configuration. -/
def isConfig : ErrorClass → Bool
  | config | configSize | configValue | ruleDefinition => true
  | _ => false

/-- The error comes from the text of a table. -/
def isTable : ErrorClass → Bool
  | table | emptyInput | malformedInput | unsupportedFormat => true
  | _ => false

/-- Configuration errors are fatal, table errors critical. -/
def severity : ErrorClass → Severity
  | general => .recoverable
  | config | configSize | configValue | ruleDefinition => .fatal
  | table | emptyInput | malformedInput | unsupportedFormat => .critical

end ErrorClass

/-- Named values that go with an error. -/
abbrev Details := List (String × Setting)

/-- The report of an error. -/
structure Diagnostic where
  errorClass : ErrorClass
  message : String
  severity : Severity := errorClass.severity
  details : Details := []
  /-- The wording of the error behind this one. -/
  cause : Option String := none

namespace Diagnostic

/-- A detail that is left out when its value does not count as present. -/
def givenDetail (name : String) (v : Setting) : Details := if v.isTruthy then [(name, v)] else []

/-- The details of a configuration error. -/
def configDetails (field : Setting) : Details := givenDetail "field" field

/-- The details of a bad value in a configuration. -/
def valueDetails (field expected actual : Setting) : Details :=
  configDetails field ++ [("expected", expected), ("actual", actual)]

/-- The details of a configuration file that is too large. -/
def sizeDetails (size limit : Setting) : Details := [("file_size", size), ("max_size", limit)]

/-- The details of a rule definition that cannot be used. -/
def ruleDetails (rule : Setting) : Details :=
  valueDetails (.text "io_scanner.extra_patterns") .null .null ++ [("pattern_name", rule)]

/-- The details of a table error. -/
def tableDetails (source declared : Setting) : Details :=
  givenDetail "source_name" source ++ givenDetail "declared_format" declared

/-- The line on which an error was found, if it is known. -/
def lineDetails : Setting → Details
  | .null => []
  | line => [("line", line)]

/-- What the report of an error can be made from. A value that is not given is null. -/
structure Parts where
  message : String := ""
  severity : Option Severity := none
  details : Details := []
  cause : Option String := none
  /-- The setting that is wrong, what was expected of it, and what it is. -/
  field : Setting := .null
  expected : Setting := .null
  actual : Setting := .null
  /-- The name of a rule. -/
  rule : Setting := .null
  size : Setting := .null
  limit : Setting := .null
  source : Setting := .null
  declared : Setting := .null
  line : Setting := .null
  supported : List String := []

/-- The report of an error of a class; each class uses the parts that concern it. -/
def ofParts (c : ErrorClass) (p : Parts) : Except Fault Diagnostic := do
  match c with
  | .general =>
    return { errorClass := c, message := p.message, severity := p.severity.getD c.severity,
             details := p.details, cause := p.cause }
  | .config => return { errorClass := c, message := p.message, details := configDetails p.field }
  | .configSize =>
    return { errorClass := c, message := p.message, details := sizeDetails p.size p.limit }
  | .configValue =>
    return { errorClass := c, message := p.message,
             details := valueDetails p.field p.expected p.actual }
  | .ruleDefinition =>
    return { errorClass := c, message := p.message, details := ruleDetails p.rule,
             cause := p.cause }
  | .table | .emptyInput =>
    return { errorClass := c, message := p.message, details := tableDetails p.source p.declared,
             cause := p.cause }
  | .malformedInput =>
    return { errorClass := c, message := p.message, cause := p.cause
             details := tableDetails p.source p.declared ++ lineDetails p.line }
  | .unsupportedFormat =>
    return { errorClass := c
             message := "Unsupported format '" ++ (← p.declared.plain) ++
               "'. Supported formats: " ++ ", ".intercalate p.supported
             details := tableDetails .null p.declared ++
               [("supported_formats", .list (p.supported.map .text))] }

end Diagnostic

end Assay
