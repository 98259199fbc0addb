import Assay.Usage.Rule

/-!
# Built-in rules

The rules for calls that open files, for data libraries, and for command-line arguments
and environment variables. A part of an expression that a rule captures stands in the
group of its slot; a quoted part ends with the quote that it begins with.

## Main definitions

* `Builtin.openLiteral`, `Builtin.withOpen`, `Builtin.openVariable` — calls of `open`
* `Builtin.firstArgument` — the first argument of a call, a path or a symbol
* `Rules.builtin` — all built-in rules
-/

namespace Assay

namespace Builtin

open Regex

/-- Any number of blanks. -/
def blanks : Regex := .oneRepeated .blank 0 none .greedy

/-- At least one blank. -/
def someBlanks : Regex := .oneRepeated .blank 1 none .greedy

/-- The place between a word and something else. -/
def wordEdge : Regex := .anchor (.wordEdge .unicode false)

/-- One or more characters of a set. -/
def some1 (set : CharSet) : Regex := .oneRepeated set 1 none .greedy

/-- Any number of characters of a set. -/
def any (set : CharSet) : Regex := .oneRepeated set 0 none .greedy

/-- A part that is captured. -/
def capture (s : Slot) (r : Regex) : Regex := .group s.group r

/-- The text of a captured part again. -/
def again (s : Slot) : Regex := .backref s.group none

/-- Either quote. -/
def quoteMarks : CharSet := .oneOf ['\'', '"']

/-- What can stand in a quoted path. -/
def unquoted : CharSet := .noneOf ['\'', '"', '\n']

/-- A word. -/
def word : Regex := some1 .word

/-- An expression in either quote. -/
def quoted (mark : Slot) (r : Regex) : Regex :=
  sequence [capture mark (.one quoteMarks), r, again mark]

/-- A keyword and the sign behind it. -/
def keyword (name : String) : Regex := sequence [literal name, blanks, char '=', blanks]

/-- A mode as the next argument. -/
def modeArgument : Regex :=
  optional (sequence [char ',', blanks, optional (keyword "mode"),
    quoted .modeQuote (capture .mode
      (some1 ⟨false, [.ofClass .unicode .word false, .range '+'.toNat '+'.toNat]⟩))])

/-- An encoding as the next argument. -/
def encodingArgument : Regex :=
  optional (sequence [char ',', blanks, keyword "encoding",
    quoted .encodingQuote (capture .encoding
      (some1 ⟨false, [.ofClass .unicode .word false, .range '-'.toNat '-'.toNat]⟩))])

/-- The letters that can stand directly before a quoted text. -/
def textPrefix : Regex :=
  optional (sequence
    [.oneRepeated (.oneOf ['r', 'R', 'b', 'B', 'f', 'F', 'u', 'U']) 1 (some 2) .greedy,
     .lookahead false (.one quoteMarks)])

/-- The opening parenthesis of a call, up to its first argument. -/
def callOpening : Regex := sequence [blanks, char '(', blanks]

/-- The closing parenthesis of a call of `open`, behind its arguments. -/
def openEnding : Regex := sequence [blanks, encodingArgument, blanks, char ')']

/-- A call of `open` with a quoted path. -/
def openLiteral : Regex :=
  sequence [wordEdge, literal "open", callOpening, textPrefix,
    quoted .quote (capture .path (any unquoted)), blanks, modeArgument, openEnding]

/-- A call of `open` in a `with` statement, with a quoted path or an expression. -/
def withOpen : Regex :=
  sequence [wordEdge, literal "with", someBlanks, literal "open", callOpening,
    capture .quote (optional (.one quoteMarks)),
    capture .path (some1 (.noneOf ['\'', '"', '\n', ','])), again .quote, blanks,
    modeArgument, openEnding]

/-- A call of `open` whose path is a symbol. -/
def openVariable : Regex :=
  sequence [wordEdge, literal "open", callOpening, capture .symbol word, blanks,
    modeArgument, openEnding]

/-- The first argument of a call: a quoted path or an expression. -/
def firstArgument : Regex :=
  sequence [textPrefix, capture .quote (optional (.one quoteMarks)),
    capture .path (some1 (.noneOf ['\'', '"', '\n', ',', ')'])), again .quote]

/-- A call with a path as its first argument. -/
def firstPath (call : String) : Regex := sequence [literal call, callOpening, firstArgument]

/-- A call with a handle as its first argument. -/
def firstHandle (call : Regex) : Regex := sequence [call, callOpening, capture .symbol word]

/-- A call with a handle as its only argument. -/
def onlyHandle (call : String) : Regex :=
  sequence [literal call, callOpening, capture .symbol word, blanks, char ')']

/-- A call with a handle as its second argument. -/
def secondHandle (call : Regex) : Regex :=
  sequence [call, callOpening, word, blanks, char ',', blanks, capture .symbol word]

/-- A function of a module that has a safe form. -/
def safeCall (owner name : String) : Regex :=
  sequence [literal owner, optional (literal "safe_"), literal name]

/-- A quoted path that is not empty. -/
def quotedPath : Regex := quoted .quote (capture .path (some1 unquoted))

/-- A method of a path that is built from a quoted text. -/
def pathMethod (name : String) : Regex :=
  sequence [literal "Path", callOpening, quotedPath, blanks, literal ")", literal name, blanks,
    char '(']

/-- An option of a command line that takes a value. -/
def optionArgument : Regex :=
  sequence [literal "add_argument", callOpening,
    quoted .quote (capture .flag (sequence
      [.oneRepeated (.single '-') 1 (some 2) .greedy, some1 (.noneOf ['\'', '"'])])),
    any (.noneOf [')']), literal "type", blanks, char '=', blanks,
    firstOf [literal "str", literal "open", literal "argparse.FileType"]]

/-- A position on the command line. -/
def argumentPosition : Regex :=
  sequence [literal "sys.argv[", capture .index (some1 .digit), char ']']

/-- An environment variable. -/
def environmentVariable : Regex :=
  sequence [literal "os.",
    firstOf
      [sequence [literal "environ", blanks,
        firstOf [char '[', sequence [literal ".get", blanks, char '(']]],
       sequence [literal "getenv", blanks, char '(']],
    blanks, quoted .quote (capture .symbol (some1 unquoted))]

/-- A built-in rule. -/
def rule (name : String) (r : Regex) (category : Category) (e : Extractor) : Rule :=
  ⟨.text name, ⟨r, 9, [], false⟩, category, e⟩

end Builtin

open Builtin Regex in
/-- The built-in rules. -/
def Rules.builtin : Rules :=
  [rule "open_literal" openLiteral .file (.openCall "open()"),
   rule "with_open" withOpen .file (.openCall "with open()"),
   rule "open_variable" Builtin.openVariable .file .openVariable,
   rule "pandas_read_csv" (firstPath "pd.read_csv") .csv (.pathCall "r" "pd.read_csv()" "CSV"),
   rule "pandas_to_csv" (firstPath ".to_csv") .csv (.pathCall "w" "df.to_csv()" "CSV"),
   rule "pandas_read_json" (firstPath "pd.read_json") .json
     (.pathCall "r" "pd.read_json()" "JSON"),
   rule "pandas_to_json" (firstPath ".to_json") .json (.pathCall "w" "df.to_json()" "JSON"),
   rule "pandas_read_excel" (firstPath "pd.read_excel") .excel
     (.pathCall "r" "pd.read_excel()" "Excel"),
   rule "pandas_to_excel" (firstPath ".to_excel") .excel (.pathCall "w" "df.to_excel()" "Excel"),
   rule "pandas_read_pickle" (firstPath "pd.read_pickle") .pickle
     (.pathCall "rb" "pd.read_pickle()" "Pickle"),
   rule "pandas_to_pickle" (firstPath ".to_pickle") .pickle
     (.pathCall "wb" "df.to_pickle()" "Pickle"),
   rule "json_load" (onlyHandle "json.load") .json (.handleCall "from" "r" "json.load()" "JSON"),
   rule "json_dump" (secondHandle (literal "json.dump")) .json
     (.handleCall "to" "w" "json.dump()" "JSON"),
   rule "csv_reader" (firstHandle (literal "csv.reader")) .csv
     (.handleCall "from" "r" "csv.reader()" "CSV"),
   rule "csv_writer" (firstHandle (literal "csv.writer")) .csv
     (.handleCall "to" "w" "csv.writer()" "CSV"),
   rule "csv_dict_reader" (firstHandle (literal "csv.DictReader")) .csv
     (.handleCall "from" "r" "csv.DictReader()" "CSV (Dict)"),
   rule "csv_dict_writer" (firstHandle (literal "csv.DictWriter")) .csv
     (.handleCall "to" "w" "csv.DictWriter()" "CSV (Dict)"),
   rule "pickle_load" (onlyHandle "pickle.load") .pickle
     (.handleCall "from" "rb" "pickle.load()" "Pickle"),
   rule "pickle_dump" (secondHandle (literal "pickle.dump")) .pickle
     (.handleCall "to" "wb" "pickle.dump()" "Pickle"),
   rule "yaml_load" (firstHandle (safeCall "yaml." "load")) .yaml
     (.handleCall "from" "r" "yaml.load()" "YAML"),
   rule "yaml_dump" (secondHandle (safeCall "yaml." "dump")) .yaml
     (.handleCall "to" "w" "yaml.dump()" "YAML"),
   rule "sqlite_connect" (sequence [literal "sqlite3.connect", callOpening, quotedPath]) .database
     (.literalCall "rw" "sqlite3.connect()" "SQLite"),
   rule "path_read_text" (pathMethod ".read_text") .file
     (.literalCall "r" "Path.read_text()" "Text"),
   rule "path_write_text" (pathMethod ".write_text") .file
     (.literalCall "w" "Path.write_text()" "Text"),
   rule "argparse_argument" optionArgument .argument .option,
   rule "sys_argv" argumentPosition .argument .position,
   rule "environment_variable" environmentVariable .environment .environment]

end Assay
