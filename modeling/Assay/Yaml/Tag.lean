import Assay.Yaml.Number

/-!
# Tags

A tag says what kind of value a node has. A plain scalar without one has the kind that
its text has the form of; any other node without one is a text, a sequence or a mapping.

## Main definitions

* `Yaml.Tag` — the tags
* `Tag.ofUri`, `Tag.ofPlain` — the tag of an address, and of a plain scalar
-/

namespace Assay.Yaml

/-- What all tags of the format begin with. -/
def tagBase : String := "tag:yaml.org,2002:"

/-- The kind of a node. -/
inductive Tag where
  | null | bool | integer | float | timestamp | binary | text
  | sequence | pairs | orderedMapping | mapping | set
  /-- The key under which other mappings are merged into one. -/
  | merge
  /-- The key of the value that stands for a whole mapping. -/
  | default
  | other (uri : String)
  deriving DecidableEq, Repr, Inhabited

namespace Tag

/-- What follows `tagBase` in the tags of the format. -/
def names : List (String × Tag) :=
  [("null", null), ("bool", bool), ("int", integer), ("float", float),
   ("timestamp", timestamp), ("binary", binary), ("str", text), ("seq", sequence),
   ("pairs", pairs), ("omap", orderedMapping), ("map", mapping), ("set", set),
   ("merge", merge), ("value", default)]

/-- The tag of an address. -/
def ofUri (uri : String) : Tag :=
  ((names.map fun (name, tag) => (tagBase ++ name, tag)).lookup uri).getD (other uri)

/-- A word in lower case, capitalised, and in upper case. -/
def casings (word : String) : List String := [word, word.capitalize, word.toUpper]

/-- The words for the truth values. -/
def boolWords : List (String × Bool) :=
  [("yes", true), ("no", false), ("true", true), ("false", false), ("on", true), ("off", false)]

/-- The texts of null. -/
def nullWords : List String := ["", "~"] ++ casings "null"

/-- The text has the form of a timestamp. A date alone has two digits for month and
day. -/
def isTimestamp (cs : List Char) : Bool :=
  match Timestamp.ofText? cs with
  | none => false
  | some t => t.time.isSome || cs.length == 10

/-- A text without the line feed at its end, if there is one. -/
def withoutEnd (s : String) : String :=
  if s.toList.getLast? = some '\n' then String.ofList s.toList.dropLast else s

/-- The tag that the text of a plain scalar has the form of. A line feed at its end does
not count, unless it is all. -/
def ofPlain (s : String) : Tag :=
  let t := if s = "\n" then s else withoutEnd s
  let cs := t.toList
  if boolWords.any fun (word, _) => (casings word).contains t then bool
  else if isFloat cs then float
  else if isInteger cs then integer
  else if t = "<<" then merge
  else if nullWords.contains t then null
  else if isTimestamp cs then timestamp
  else if t = "=" then default
  else if ["!", "&", "*"].contains t then other (tagBase ++ "yaml")
  else text

/-- The tag of a scalar, which may have one of its own as an address. -/
def ofScalar (uri : Option String) (s : String) (isPlain : Bool) : Tag :=
  match uri with
  | none => if isPlain then ofPlain s else text
  | some uri => if uri = "!" then ofPlain s else ofUri uri

/-- The tag of a sequence or a mapping, which without one of its own has a given one. -/
def ofCollection (uri : Option String) (standard : Tag) : Tag :=
  match uri with
  | none => standard
  | some uri => if uri = "!" then standard else ofUri uri

end Tag

end Assay.Yaml
