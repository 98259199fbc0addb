import Assay.Diagnostic
import Assay.Failure
import Assay.Number.Layout

/-!
# Configuration limits, defaults and errors

Limits keep a configuration file small enough to be inspected; defaults stand where a
configuration says nothing; and every refusal has a cause with a wording and details.

## Main definitions

* `Config.maxFileSize`, `Config.maxDepth`, `Config.maxKeys`, `Config.maxKeyLength`,
  `Config.maxTextLength` — the limits
* `ConfigError` — why a configuration is refused
* `ConfigError.diagnostic` — the report of such an error
-/

namespace Assay

namespace Config

/-- Bytes of a configuration file. -/
def maxFileSize : Nat := 1048576

/-- Records and lists around a value. -/
def maxDepth : Nat := 20

/-- Fields and items, in all records and lists together. -/
def maxKeys : Nat := 10000

/-- Characters of a key. -/
def maxKeyLength : Nat := 1000

/-- Characters of a text. -/
def maxTextLength : Nat := 1048576

end Config

/-- The allowed values of a numeric setting: from zero, or from zero to a maximum. -/
structure Bounds where
  maximum : Option Nat
  deriving DecidableEq, Repr

namespace Bounds

/-- The bounds as text. -/
def text (b : Bounds) : String :=
  "0.." ++ match b.maximum with
    | none => "inf"
    | some n => toString n

end Bounds

/-- Why a configuration is refused. The texts are the offending values as shown. -/
inductive ConfigError where
  | fileNotFound (path : String)
  | fileTooLarge (size : Nat)
  /-- The text is no YAML document. -/
  | notYaml
  /-- The bytes are no UTF-8 text. -/
  | notUtf8
  | rootNotARecord
  | tooDeep
  | tooManyKeys
  | keyTooLong (key : String)
  | textTooLong (text : String)
  | sectionNotARecord (name : String) (kind : String)
  | notANumber (setting : String) (whole : Bool) (shown : String)
  | notWhole (setting : String) (shown : String)
  | outOfRange (setting : String) (bounds : Bounds) (shown : String)
  | badDelimiter (shown : String)
  | badRules (kind : String)
  /-- A threshold outside of 0 to 100. -/
  | badThreshold (shown : String)
  deriving DecidableEq, Repr

namespace ConfigError

/-- The first characters of a text. -/
def beginning (s : String) : String := String.ofList (s.toList.take 50)

/-- The wording of a configuration error. -/
def message : ConfigError → String
  | fileNotFound path => "Configuration file not found: " ++ path
  | fileTooLarge size =>
    "Configuration file too large: " ++ Number.groupedText size ++
      " bytes. Maximum allowed: " ++ Number.groupedText Config.maxFileSize ++ " bytes"
  | notYaml => "Failed to parse YAML file"
  | notUtf8 => "Invalid file encoding (expected UTF-8)"
  | rootNotARecord => "Configuration root must be a mapping"
  | tooDeep =>
    "YAML nesting depth exceeds maximum of " ++ toString Config.maxDepth ++ " levels."
  | tooManyKeys =>
    "YAML structure contains more than " ++ Number.groupedText Config.maxKeys ++ " keys/items."
  | keyTooLong key =>
    "YAML key exceeds maximum length of " ++ toString Config.maxKeyLength ++ " characters: '" ++
      beginning key ++ "...'"
  | textTooLong text =>
    "YAML contains string exceeding maximum length (" ++
      Number.groupedText Config.maxTextLength ++ " bytes): '" ++ beginning text ++ "...'"
  | sectionNotARecord name _ => "Configuration section '" ++ name ++ "' must be a mapping"
  | notANumber setting _ _ => "'" ++ setting ++ "' must be a number"
  | notWhole setting _ => "'" ++ setting ++ "' must be a whole number"
  | outOfRange setting bounds shown =>
    "'" ++ setting ++ "' out of range: " ++ shown ++ " (allowed " ++ bounds.text ++ ")"
  | badDelimiter _ => "Delimiter must be a non-empty string"
  | badRules _ => "extra_patterns must be a list of mappings"
  | badThreshold shown =>
    "Quality threshold must be a percentage between 0 and 100, got " ++ shown

/-- The class of a configuration error. -/
def errorClass : ConfigError → ErrorClass
  | fileNotFound _ | notYaml | notUtf8 | rootNotARecord => .config
  | fileTooLarge _ => .configSize
  | _ => .configValue

/-- The details of a configuration error. -/
def details : ConfigError → Details
  | fileTooLarge size => Diagnostic.sizeDetails (.int size) (.int Config.maxFileSize)
  | tooDeep | tooManyKeys | keyTooLong _ | textTooLong _ =>
    Diagnostic.valueDetails .null .null .null
  | sectionNotARecord name kind =>
    Diagnostic.valueDetails (.text name) (.text "mapping") (.text kind)
  | notANumber setting whole shown =>
    Diagnostic.valueDetails (.text setting) (.text (if whole then "integer" else "number"))
      (.text shown)
  | notWhole setting shown =>
    Diagnostic.valueDetails (.text setting) (.text "integer") (.text shown)
  | outOfRange setting bounds shown =>
    Diagnostic.valueDetails (.text setting) (.text bounds.text) (.text shown)
  | badDelimiter shown =>
    Diagnostic.valueDetails (.text "profiler.delimiter") (.text "non-empty string") (.text shown)
  | badRules kind =>
    Diagnostic.valueDetails (.text "io_scanner.extra_patterns") (.text "list of mappings")
      (.text kind)
  | badThreshold shown =>
    Diagnostic.valueDetails (.text "profiler.quality_threshold") (.text "0-100") (.text shown)
  | fileNotFound _ | notYaml | notUtf8 | rootNotARecord => []

/-- The report of a configuration error. -/
def diagnostic (e : ConfigError) : Diagnostic :=
  { errorClass := e.errorClass, message := e.message, details := e.details }

end ConfigError

end Assay
