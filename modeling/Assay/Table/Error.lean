import Assay.Diagnostic
import Assay.Failure
import Assay.Json.Reader

/-!
# Table formats and errors

A table is declared to be delimited text or nested objects. A text that gives no table
is refused with its cause; no part of a table is returned with it.

## Main definitions

* `Format` — the two declared formats
* `TableError` — why a text gives no table
* `TableError.diagnostic` — the report of such an error
-/

namespace Assay

/-- The declared format of a table. -/
inductive Format where
  | delimited | nested
  deriving DecidableEq, Repr

namespace Format

/-- The name by which a format is declared. -/
def name : Format → String
  | delimited => "delimited-text"
  | nested => "nested-object"

/-- All formats. -/
def all : List Format := [delimited, nested]

/-- The format of a name. -/
def ofName? (s : String) : Option Format := all.find? fun f => f.name == s

end Format

/-- Why a text gives no table. -/
inductive TableError where
  /-- The declared format is none of the two. -/
  | unsupportedFormat (declared : String)
  /-- There is no text, or it is blank. -/
  | blank (format : Format)
  /-- The document holds an empty list of records. -/
  | noRecords
  /-- A name stands twice in the first line. -/
  | repeatedField (name : String)
  /-- The text is no JSON document. -/
  | malformed (e : Json.ReadError)
  /-- The document is neither a record nor a list. -/
  | badRoot (kind : String)
  /-- An item of the document is no record. -/
  | badRecord (index : Nat) (kind : String)
  deriving DecidableEq, Repr

namespace TableError

/-- The wording of a table error. -/
def message : TableError → String
  | unsupportedFormat declared =>
    "Unsupported format '" ++ declared ++ "'. Supported formats: " ++
      ", ".intercalate (Format.all.map Format.name)
  | blank _ => "Input is empty"
  | noRecords => "Document contains no records"
  | repeatedField name => "Duplicate field name in header: '" ++ name ++ "'"
  | malformed e =>
    "Invalid nested-object notation: " ++ e.problem.message ++ " (line " ++ toString e.line ++
      ", column " ++ toString e.column ++ ")"
  | badRoot kind => "Root value must be an object or an array of objects, got " ++ kind
  | badRecord index kind =>
    "Record " ++ toString index ++ " is " ++ kind ++ ", expected an object"

/-- The class of a table error. -/
def errorClass : TableError → ErrorClass
  | unsupportedFormat _ => .unsupportedFormat
  | blank _ | noRecords => .emptyInput
  | repeatedField _ | malformed _ | badRoot _ | badRecord .. => .malformedInput

/-- The format that was declared. -/
def declared : TableError → String
  | unsupportedFormat declared => declared
  | blank format => format.name
  | repeatedField _ => Format.delimited.name
  | noRecords | malformed _ | badRoot _ | badRecord .. => Format.nested.name

/-- The line of the text on which the error stands, if it is known. -/
def line : TableError → Setting
  | repeatedField _ => .int 1
  | malformed e => .int e.line
  | _ => .null

/-- The report of an error in the text of a named source. -/
def diagnostic (source : Setting) (e : TableError) : Diagnostic :=
  { errorClass := e.errorClass
    message := e.message
    details :=
      match e with
      | unsupportedFormat declared =>
        Diagnostic.tableDetails .null (.text declared) ++
          [("supported_formats", .list (Format.all.map fun f => .text f.name))]
      | _ =>
        Diagnostic.tableDetails source (.text e.declared) ++
          Diagnostic.lineDetails e.line
    cause :=
      match e with
      | malformed e => some e.message
      | _ => none }

end TableError

end Assay
