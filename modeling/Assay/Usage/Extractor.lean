import Assay.Failure
import Assay.Regex.Match
import Assay.Usage.Basic

/-!
# Extractors

How a rule turns a match into an extraction. The parts of a match that matter to the
built-in rules have fixed groups; a rule of a configuration names the one group that
holds the path.

## Main definitions

* `Slot` — the parts of a match that built-in rules capture
* `Extractor` — the ways to read a match
* `Extractor.extract` — the extraction of a match
-/

namespace Assay

/-- The parts of a match that built-in rules capture. -/
inductive Slot where
  /-- The quote before a path; empty before a symbol. -/
  | quote
  | path
  | modeQuote
  | mode
  | encodingQuote
  | encoding
  /-- A program symbol, or the name of an environment variable. -/
  | symbol
  /-- A command-line option. -/
  | flag
  /-- The position of a command-line argument. -/
  | index
  deriving DecidableEq, Repr

/-- The group that holds a part. -/
def Slot.group : Slot → Nat
  | quote => 1
  | path => 2
  | modeQuote => 3
  | mode => 4
  | encodingQuote => 5
  | encoding => 6
  | symbol => 7
  | flag => 8
  | index => 9

/-- The ways to read a match. -/
inductive Extractor where
  /-- Path, mode and encoding of a call that opens a file. -/
  | openCall (method : String)
  /-- The same when the path is a symbol. -/
  | openVariable
  /-- A call whose first argument is a path or a symbol. -/
  | pathCall (mode method format : String)
  /-- A call that reads from or writes to a handle. -/
  | handleCall (marker mode method format : String)
  /-- A call whose first argument is a path. -/
  | literalCall (mode method format : String)
  /-- An option of a command line. -/
  | option
  /-- A position on a command line. -/
  | position
  /-- An environment variable. -/
  | environment
  /-- A group as path, with all else fixed. -/
  | captured (group : Nat) (mode method : String) (format : Setting) (isSymbolic : Bool)

namespace Extractor

/-- The text of a part that has to be there. -/
def required (m : Match) (s : Slot) : Except Fault String :=
  match m.group? s.group with
  | some cs => .ok (String.ofList cs)
  | none => .error .missingGroup

/-- The text of a part that is there and is not empty, or a text in its place. -/
def orElse (m : Match) (group : Nat) (default : String) : String :=
  match m.group? group with
  | some cs => if cs.isEmpty then default else String.ofList cs
  | none => default

/-- The path of a call, and whether it is a symbol: a quoted part is a path, and any other
one a symbol. -/
def pathOf (m : Match) : Except Fault (String × Bool) := do
  let token := Text.trimmed (← required m .path)
  if orElse m Slot.quote.group "" = "" then return (Usage.placeholder token none, true)
  else return (token, false)

/-- The extraction of a match. -/
def extract (e : Extractor) (m : Match) : Except Fault Extraction :=
  match e with
  | openCall method => do
    let (path, isSymbolic) ← pathOf m
    return ⟨path, orElse m Slot.mode.group "r", method, .null,
      orElse m Slot.encoding.group "default", isSymbolic⟩
  | openVariable => do
    return ⟨Usage.placeholder (← required m .symbol) none, orElse m Slot.mode.group "r",
      "open()", .null, orElse m Slot.encoding.group "default", true⟩
  | pathCall mode method format => do
    let (path, isSymbolic) ← pathOf m
    return ⟨path, mode, method, .text format, "default", isSymbolic⟩
  | handleCall marker mode method format => do
    return ⟨Usage.placeholder (← required m .symbol) (some marker), mode, method, .text format,
      "default", true⟩
  | literalCall mode method format => do
    return ⟨← required m .path, mode, method, .text format, "default", false⟩
  | option => do
    return ⟨← required m .flag, "arg", "argparse", .text "CLI argument", "default", false⟩
  | position => do
    return ⟨"sys.argv[" ++ (← required m .index) ++ "]", "arg", "sys.argv", .text "CLI argument",
      "default", false⟩
  | environment => do
    return ⟨"$" ++ (← required m .symbol), "env", "os.environ", .text "Environment variable",
      "default", false⟩
  | captured group mode method format isSymbolic =>
    let token := Text.trimmed (orElse m group "")
    .ok ⟨if isSymbolic then Usage.placeholder token none else token, mode, method, format,
      "default", isSymbolic⟩

end Extractor

end Assay
