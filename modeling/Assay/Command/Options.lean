import Assay.Command.Folder
import Assay.Log
import Assay.Number.Text
import Assay.Table.Error

/-!
# Command lines

A command line names a command, then its options and one file. Options and file can
stand in any order. An option with a value takes it from the word behind it, or from the
same word: behind an equals sign after a long name, and directly behind a short one. Of
an option that is given twice the last one counts. A command line is refused when it asks
for nothing, or when a file that it reads is not there.

## Main definitions

* `Command.ProfileOptions`, `Command.AnalyzeOptions`, `Command.Invocation` — what is
  asked for
* `Command.UsageError` — why a command line is refused
* `Command.scanOptions` — the options and the other words of a command line
* `Command.Invocation.ofWords` — what a command line asks for
-/

namespace Assay.Command

/-- Where log records go, and from which level on. -/
structure LogOptions where
  level : Log.Level
  file : Option String

/-- What a profile is asked to be. -/
structure ProfileOptions where
  file : String
  format : Option Format
  delimiter : Option String
  config : Option String
  threshold : Option Float
  jsonOutput : Option String
  csvOutput : Option String
  preview : Bool
  failOnGate : Bool
  log : LogOptions

/-- What an analysis is asked to be. -/
structure AnalyzeOptions where
  file : String
  config : Option String
  name : Option String
  specOutput : Option String
  jsonOutput : Option String
  showSpec : Bool
  log : LogOptions

/-- What a command line asks for. -/
inductive Invocation where
  | profile (o : ProfileOptions)
  | analyze (o : AnalyzeOptions)
  /-- The version and what the program is. -/
  | version
  /-- The version alone. -/
  | versionNumber
  /-- How a command is used. -/
  | help

/-- Why a command line is refused. -/
inductive UsageError where
  | missingCommand
  | unknownCommand (name : String)
  | unknownOption (name : String)
  | missingValue (option : String)
  | unexpectedValue (option : String)
  | missingFile
  | unexpectedWord (word : String)
  | badValue (option value : String)
  | noSuchFile (path : String)
  deriving DecidableEq, Repr

/-- The wording of a refusal. -/
def UsageError.message : UsageError → String
  | missingCommand => "Missing command"
  | unknownCommand name => "No such command: " ++ name
  | unknownOption name => "No such option: " ++ name
  | missingValue option => "Option requires a value: " ++ option
  | unexpectedValue option => "Option takes no value: " ++ option
  | missingFile => "Missing file"
  | unexpectedWord word => "Unexpected word: " ++ word
  | badValue option value => "Not a value of " ++ option ++ ": " ++ value
  | noSuchFile path => "No such file: " ++ path

/-! ## Words -/

/-- The names of an option, and whether it takes a value. -/
structure OptionName where
  long : String
  short : Option Char
  takesValue : Bool

/-- An option as it was given, by its long name. -/
abbrev Given := String × Option String

/-- The options of a list with a value for one that takes it: in the same word, or the
next word. Gives the option and the words that follow it. -/
def giveOption (name : String) (takesValue : Bool) (attached : Option String)
    (words : List String) : Except UsageError (Given × List String) :=
  if takesValue then
    match attached, words with
    | some v, _ => .ok ((name, some v), words)
    | none, v :: words => .ok ((name, some v), words)
    | none, [] => .error (.missingValue name)
  else
    match attached with
    | some _ => .error (.unexpectedValue name)
    | none => .ok ((name, none), words)

/-- A word with an equals sign: what is before it, and what is behind it. -/
def splitAtEquals (word : List Char) : String × Option String :=
  let name := String.ofList (word.takeWhile (· != '='))
  match word.dropWhile (· != '=') with
  | [] => (name, none)
  | _ :: value => (name, some (String.ofList value))

/-- The option that a word gives, which begins with a hyphen and is longer than that. -/
def optionOf (known : List OptionName) (word : List Char) (words : List String) :
    Except UsageError (Given × List String) :=
  let (name, attached) := splitAtEquals word
  match known.find? (·.long = name), word with
  | some o, _ => giveOption o.long o.takesValue attached words
  | none, _ :: c :: rest =>
    if c = '-' then .error (.unknownOption name)
    else
      match known.find? (·.short = some c) with
      | none => .error (.unknownOption name)
      | some o =>
        giveOption o.long o.takesValue
          (if rest.isEmpty then none else some (String.ofList rest)) words
  | none, _ => .error (.unknownOption name)

/-- The word gives an option. -/
def isOption (word : String) : Bool := word.toList.head? = some '-' && word.length > 1

/-- The options of a command line in order, and its other words. With `first`, the first
word that is no option ends the options. -/
def scanOptions (known : List OptionName) (first : Bool) :
    Nat → List String → Except UsageError (List Given × List String)
  | 0, words => .ok ([], words)
  | _ + 1, [] => .ok ([], [])
  | fuel + 1, word :: words =>
    if word = "--" then .ok ([], words)
    else if isOption word then do
      let (given, words) ← optionOf known word.toList words
      let (options, others) ← scanOptions known first fuel words
      return (given :: options, others)
    else if first then .ok ([], word :: words)
    else do
      let (options, others) ← scanOptions known first fuel words
      return (options, word :: others)

/-- The options and the other words of a command line. -/
def scan (known : List OptionName) (first : Bool) (words : List String) :
    Except UsageError (List Given × List String) :=
  scanOptions known first (words.length + 1) words

/-! ## Values -/

/-- The value of an option, the last one that was given. -/
def valueOf (name : String) (given : List Given) : Option String :=
  (given.reverse.lookup name).join

/-- The option was given. -/
def isGiven (name : String) (given : List Given) : Bool := given.any fun g => g.1 = name

/-- The level of a name, in any case. -/
def levelOf? (name : String) : Option Log.Level :=
  Log.Level.all.find? fun l => l.name = name.toUpper

/-- The number that a text writes. -/
def numberOf? (text : String) : Option Float := Number.floatOfText? text.toList

/-- The path is one of a file that is there. -/
def checkInput (folder : Folder) (path : String) : Except (Failure UsageError) Unit :=
  match folder.place path with
  | .error .zeroCharacter => throw (.fault (.badPath .zeroCharacter path))
  | _ => if (folder.file? path).isNone then declare (.noSuchFile path) else .ok ()

/-- The path is one that a file can have. -/
def checkOutput (folder : Folder) (path : String) : Except (Failure UsageError) Unit :=
  match folder.place path with
  | .error .zeroCharacter => throw (.fault (.badPath .zeroCharacter path))
  | _ => .ok ()

/-- The value of an option is one that it can have. -/
def checkValue (folder : Folder) (name value : String) : Except (Failure UsageError) Unit :=
  let orRefuse (isGood : Bool) : Except (Failure UsageError) Unit :=
    if isGood then .ok () else declare (.badValue name value)
  if name = "--config" then checkInput folder value
  else if name = "--log-file" then checkOutput folder value
  else if name = "--format" then orRefuse (Format.ofName? value).isSome
  else if name = "--threshold" then orRefuse (numberOf? value).isSome
  else if name = "--log-level" then orRefuse (levelOf? value).isSome
  else .ok ()

/-- The file that a command is given, and nothing besides. Before it the values of the
options are looked at, in the order in which the options were first given. -/
def checkedFile (folder : Folder) (given : List Given) (words : List String) :
    Except (Failure UsageError) String := do
  (given.map Prod.fst).eraseDups.forM fun name =>
    match valueOf name given with
    | none => .ok ()
    | some value => checkValue folder name value
  match words with
  | [] => declare .missingFile
  | file :: more =>
    checkInput folder file
    match more with
    | [] => return file
    | word :: _ => declare (.unexpectedWord word)

/-- The options for log records, which all commands know. -/
def logNames : List OptionName :=
  [⟨"--log-level", none, true⟩, ⟨"--log-file", none, true⟩, ⟨"--help", none, false⟩]

/-- What is asked for about log records. -/
def logOptions (given : List Given) : LogOptions :=
  { level := ((valueOf "--log-level" given).bind levelOf?).getD .warning
    file := (valueOf "--log-file" given).filter (· ≠ "") }

/-! ## Commands -/

/-- The options of a profile. -/
def profileNames : List OptionName :=
  [⟨"--format", some 'f', true⟩, ⟨"--delimiter", some 'd', true⟩, ⟨"--config", some 'c', true⟩,
   ⟨"--threshold", some 't', true⟩, ⟨"--json-output", some 'j', true⟩,
   ⟨"--csv-output", none, true⟩, ⟨"--preview", none, false⟩, ⟨"--no-preview", none, false⟩,
   ⟨"--fail-on-gate", none, false⟩] ++ logNames

/-- The last one given of the two options about the preview decides. -/
def wantsPreview (given : List Given) : Bool :=
  match given.reverse.find? fun g => g.1 = "--preview" || g.1 = "--no-preview" with
  | some g => g.1 = "--preview"
  | none => true

/-- What is asked for by the options of a profile of a file. -/
def profileOptions (given : List Given) (file : String) : ProfileOptions :=
  { file := file
    format := (valueOf "--format" given).bind Format.ofName?
    delimiter := valueOf "--delimiter" given
    config := valueOf "--config" given
    threshold := (valueOf "--threshold" given).bind numberOf?
    jsonOutput := (valueOf "--json-output" given).filter (· ≠ "")
    csvOutput := (valueOf "--csv-output" given).filter (· ≠ "")
    preview := wantsPreview given
    failOnGate := isGiven "--fail-on-gate" given
    log := logOptions given }

/-- The options of an analysis. -/
def analyzeNames : List OptionName :=
  [⟨"--config", some 'c', true⟩, ⟨"--name", some 'n', true⟩, ⟨"--spec-output", some 's', true⟩,
   ⟨"--json-output", some 'j', true⟩, ⟨"--show-spec", none, false⟩] ++ logNames

/-- What is asked for by the options of an analysis of a file. -/
def analyzeOptions (given : List Given) (file : String) : AnalyzeOptions :=
  { file := file
    config := valueOf "--config" given
    name := valueOf "--name" given
    specOutput := (valueOf "--spec-output" given).filter (· ≠ "")
    jsonOutput := (valueOf "--json-output" given).filter (· ≠ "")
    showSpec := isGiven "--show-spec" given
    log := logOptions given }

namespace Invocation

/-- What the words behind the name of a command ask for, in a folder. -/
def ofCommand (folder : Folder) (name : String) (words : List String) :
    Except (Failure UsageError) Invocation := do
  let scanned (known : List OptionName) :
      Except (Failure UsageError) (List Given × List String) :=
    (scan known false words).mapError .declared
  if name = "profile" then
    let (given, others) ← scanned profileNames
    if isGiven "--help" given then return help
    return profile (profileOptions given (← checkedFile folder given others))
  else if name = "analyze" then
    let (given, others) ← scanned analyzeNames
    if isGiven "--help" given then return help
    return analyze (analyzeOptions given (← checkedFile folder given others))
  else if name = "version" then
    let (given, others) ← scanned [⟨"--help", none, false⟩]
    if isGiven "--help" given then return help
    match others with
    | [] => return version
    | word :: _ => declare (.unexpectedWord word)
  else declare (.unknownCommand name)

/-- What the options in front of a command ask for, and the words from its name on. -/
def ofOptions (words : List String) :
    Except (Failure UsageError) (Option Invocation × List String) := do
  let (given, rest) ←
    (scan [⟨"--version", none, false⟩, ⟨"--help", none, false⟩] true words).mapError .declared
  let asked := given.head?.map fun (name, _) => if name = "--version" then versionNumber else help
  return (asked, rest)

/-- What a command line asks for, in a folder. A word in the place of the name of a command
that could be an option is looked at as one. -/
def ofWords (folder : Folder) (words : List String) :
    Except (Failure UsageError) Invocation := do
  match ← ofOptions words with
  | (some asked, _) => return asked
  | (none, []) => declare .missingCommand
  | (none, name :: words) =>
    match ← if isOption name then ofOptions (name :: words) else pure (none, []) with
    | (some asked, _) => return asked
    | (none, _) => ofCommand folder name words

end Invocation

end Assay.Command
