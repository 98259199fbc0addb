import Assay.Text.Case

/-!
# File names

A path is a row of parts between slashes, of which empty ones and single points do not
count. The extension of a file name is what follows the last point of its last part, when
there is something before and after that point.

## Main definitions

* `FileName.parts`, `FileName.last`, `FileName.extension` — parts, last part, extension
* `FileName.parent`, `FileName.expanded` — the directory of a path, and a path with a tilde
* `FileName.step`, `FileName.place` — the place that a part of a path, or a path, leads to
-/

namespace Assay.FileName

/-- The parts of a path between slashes, without empty ones and single points. -/
def parts (path : List Char) : List (List Char) :=
  (path.splitOn '/').filter fun p => !p.isEmpty && p != ['.']

/-- The last part of a path. -/
def last (path : String) : String := String.ofList ((parts path.toList).getLastD [])

/-- The extension of a file name, with its point. -/
def extension (path : String) : String :=
  let name := (last path).toList
  let after := (name.reverse.takeWhile (· != '.')).reverse
  let before := name.length - after.length - 1
  if name.contains '.' && before != 0 && !after.isEmpty then
    String.ofList (Text.lowered ('.' :: after))
  else ""

/-- The path begins at the root of all directories. -/
def isAbsolute (path : String) : Bool := path.toList.head? = some '/'

/-- The path can only be one of a directory. -/
def endsInSlash (path : String) : Bool := path.toList.getLast? = some '/'

/-- The parts of a path behind the root, if it begins there. -/
def rooted (path : String) : List String :=
  (if isAbsolute path then ["/"] else []) ++ (parts path.toList).map String.ofList

/-- The path of parts, a single point for none. -/
def text : List String → String
  | [] => "."
  | "/" :: parts => "/" ++ "/".intercalate parts
  | parts => "/".intercalate parts

/-- The directory of a path, a single point for the one where the program runs. -/
def parent (path : String) : String :=
  match rooted path with
  | ["/"] => "/"
  | parts => text parts.dropLast

/-- A path in which a tilde at the beginning, alone or before the name of the user, stands for
the directory of the user. -/
def expanded (home path : String) : String :=
  match path.toList with
  | '~' :: cs =>
    let (name, rest) := cs.span (· ≠ '/')
    if name = [] ∨ String.ofList name = last home then home ++ String.ofList rest else path
  | _ => path

/-! ## Places -/

/-- The place that a part of a path leads to from a place: a single point to the place
itself, two points to the directory above. -/
def step (here : List String) (part : String) : List String :=
  if part = "." then here
  else if part = ".." then
    match here.getLast? with
    | none => [".."]
    | some d => if d = ".." then here ++ [".."] else if d = "/" then here else here.dropLast
  else here ++ [part]

/-- The place that a path begins at. -/
def origin (path : String) : List String := if isAbsolute path then ["/"] else []

/-- The parts of a path between slashes, without empty ones. -/
def steps (path : String) : List String :=
  ((path.toList.splitOn '/').filter fun p => !p.isEmpty).map String.ofList

/-- The place that a path leads to, by its parts from the directory where the program
runs or from the root. -/
def place (path : String) : List String := (steps path).foldl step (origin path)

/-- The places on the way that a path leads, with its last one. -/
def way (path : String) : List (List String) :=
  (List.range ((steps path).length + 1)).map fun n =>
    ((steps path).take n).foldl step (origin path)

end Assay.FileName
