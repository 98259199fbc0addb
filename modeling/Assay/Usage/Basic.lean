import Assay.Text.Case
import Assay.Value.Shown

/-!
# Usages

A usage is a place in a program text at which data is read or written: a file that is
opened, a command-line argument, an environment variable. It has a path, or the name of a
program symbol in braces where the text does not tell the path, and a mode, which decides
its direction.

## Main definitions

* `Category`, `Direction` — the kinds of operations, and the directions of data
* `Direction.ofMode` — the direction that a mode has
* `Usage.placeholder`, `Usage.guessFormat` — the path of a symbol, the format of a path
* `Extraction`, `Usage` — what a rule takes from the text, and a usage
* `GivenUsage` — a usage that is handed in
-/

namespace Assay

/-- The kinds of operations. -/
inductive Category where
  | file | csv | json | excel | pickle | yaml | database | argument | environment
  deriving DecidableEq, Repr

namespace Category

/-- The name of a kind of operation. -/
def name : Category → String
  | file => "file"
  | csv => "csv"
  | json => "json"
  | excel => "excel"
  | pickle => "pickle"
  | yaml => "yaml"
  | database => "database"
  | argument => "argument"
  | environment => "environment"

/-- All kinds of operations. -/
def all : List Category :=
  [file, csv, json, excel, pickle, yaml, database, argument, environment]

/-- The kind of operation of a name. -/
def ofName? (s : String) : Option Category := all.find? fun c => c.name == s

end Category

/-- Where data goes. -/
inductive Direction where
  | input | output | bidirectional | argument | environment
  deriving DecidableEq, Repr

namespace Direction

/-- The name of a direction. -/
def name : Direction → String
  | input => "input"
  | output => "output"
  | bidirectional => "bidirectional"
  | argument => "argument"
  | environment => "environment"

/-- The name of a direction as it is shown to a reader. -/
def title : Direction → String
  | input => "Input"
  | output => "Output"
  | bidirectional => "Read/Write"
  | argument => "Argument"
  | environment => "Environment"

/-- All directions. -/
def all : List Direction := [input, output, bidirectional, argument, environment]

/-- The direction of a name. -/
def ofName? (s : String) : Option Direction := all.find? fun d => d.name == s

/-- The direction of a mode. Two modes stand for arguments and for environment variables;
otherwise `r` with `w` is both ways, `w`, `a` or `+` is output, and all else is input. -/
def ofMode (mode : String) : Direction :=
  let marks := mode.toList
  if mode = "arg" then argument
  else if mode = "env" then environment
  else if marks.contains 'r' && marks.contains 'w' then bidirectional
  else if marks.any fun c => c == 'w' || c == 'a' || c == '+' then output
  else input

theorem mem_all (d : Direction) : d ∈ all := by cases d <;> decide

end Direction

/-- What a rule takes from the text that it matches. -/
structure Extraction where
  path : String
  mode : String
  method : String
  /-- The format, where the rule tells it; null otherwise. -/
  format : Setting
  encoding : String
  /-- The path is the name of a program symbol. -/
  isSymbolic : Bool

/-- What has been extracted, as a value. -/
def Extraction.toSetting (e : Extraction) : Setting :=
  .record
    [(.text "path", .text e.path),
     (.text "mode", .text e.mode),
     (.text "method", .text e.method),
     (.text "format", e.format),
     (.text "encoding", .text e.encoding),
     (.text "is_symbolic", .bool e.isSymbolic)]

/-- A usage that is handed in, most of whose parts may be values of any kind. -/
structure GivenUsage where
  path : Setting
  mode : Setting
  line : Setting
  method : Setting
  format : Setting
  raw : Setting
  direction : Direction
  category : Category
  encoding : Setting
  isSymbolic : Setting

/-- A usage as a value. -/
def GivenUsage.toSetting (u : GivenUsage) : Setting :=
  .record
    [(.text "path", u.path),
     (.text "mode", u.mode),
     (.text "line", u.line),
     (.text "method", u.method),
     (.text "format", u.format),
     (.text "raw", u.raw),
     (.text "direction", .text u.direction.name),
     (.text "category", .text u.category.name),
     (.text "encoding", u.encoding),
     (.text "is_symbolic", u.isSymbolic)]

/-- A place at which a program reads or writes data. -/
structure Usage where
  path : String
  mode : String
  /-- The line on which it begins, counted from one. -/
  line : Int
  method : String
  format : Setting
  /-- The text that was matched. -/
  raw : String
  direction : Direction
  category : Category
  encoding : String
  isSymbolic : Bool

namespace Usage

/-- The path of a program symbol: its name in braces, behind a marker if there is one. -/
def placeholder (symbol : String) (marker : Option String) : String :=
  let name := Text.trimmed symbol
  match marker with
  | none => "\x7b" ++ name ++ "\x7d"
  | some m => if m = "" then "\x7b" ++ name ++ "\x7d" else "\x7b" ++ m ++ " " ++ name ++ "\x7d"

/-- A text occurs in another one. -/
def occursIn (part : List Char) : List Char → Bool
  | [] => part.isEmpty
  | c :: cs => part.isPrefixOf (c :: cs) || occursIn part cs

/-- Parts of a path that tell its format. -/
def formatHints : List (List String × String) :=
  [([".csv"], "CSV"), ([".json"], "JSON"), ([".xlsx", ".xls"], "Excel"),
   ([".yaml", ".yml"], "YAML"), ([".txt"], "Text"), ([".pkl", ".pickle"], "Pickle"),
   ([".db", ".sqlite"], "SQLite"), ([".xml"], "XML"), ([".html"], "HTML"), ([".log"], "Log")]

/-- The format of a path, by the first hint that occurs in it regardless of case. -/
def guessFormat (path : String) : String :=
  if path = "" then "Unknown"
  else
    let lower := Text.lowered path.toList
    match formatHints.find? fun (parts, _) => parts.any fun p => occursIn p.toList lower with
    | some (_, label) => label
    | none => "File"

/-- What makes two usages the same. -/
def identity (u : Usage) : String × String × Int := (u.path, u.mode, u.line)

/-- A usage as one that is handed in. -/
def given (u : Usage) : GivenUsage :=
  { path := .text u.path, mode := .text u.mode, line := .int u.line, method := .text u.method,
    format := u.format, raw := .text u.raw, direction := u.direction, category := u.category,
    encoding := .text u.encoding, isSymbolic := .bool u.isSymbolic }

/-- A usage as a value. -/
def toSetting (u : Usage) : Setting := u.given.toSetting

end Usage

end Assay
