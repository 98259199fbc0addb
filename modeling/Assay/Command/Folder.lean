import Assay.Fault
import Assay.FileName

/-!
# Folders

A command reads the files of a folder and writes others into it. A path is followed part
by part, and each part but the last must lead to a directory.

## Main definitions

* `Folder` — what there is at a place
* `Folder.place`, `Folder.item?` — where a path leads to, and what is there
* `Folder.target`, `Folder.room?` — where a file, and where a directory can be made
* `Folder.ofFiles` — the folder of a list of files
-/

namespace Assay

/-- What can be at a place. -/
inductive Item where
  | file (bytes : ByteArray)
  | directory

/-- A folder, by what there is at a place, and the directory of its user. -/
structure Folder where
  at? : List String → Option Item
  home : String

/-- The bytes that a part of a path can have. -/
def longestPart : Nat := 255

/-- The bytes that a path can have. -/
def longestPath : Nat := 4095

namespace Folder

/-- The place that the parts of a path lead to from a place. -/
def follow (f : Folder) : List String → List String → Except PathError (List String)
  | here, [] => .ok here
  | here, part :: parts =>
    match f.at? here with
    | none => .error .missing
    | some (.file _) => .error .notADirectory
    | some .directory =>
      if longestPart < part.utf8ByteSize then .error .tooLong
      else f.follow (FileName.step here part) parts

/-- The place that a path leads to. There need not be anything. -/
def place (f : Folder) (path : String) : Except PathError (List String) :=
  if path.toList.contains '\x00' then .error .zeroCharacter
  else if path.isEmpty then .error .missing
  else if longestPath < path.utf8ByteSize then .error .tooLong
  else f.follow (FileName.origin path) (FileName.steps path)

/-- What a path leads to. -/
def item? (f : Folder) (path : String) : Option Item := do
  match ← f.at? (← (f.place path).toOption) with
  | .file bytes => if FileName.endsInSlash path then none else some (.file bytes)
  | .directory => some .directory

/-- The bytes of a file. -/
def file? (f : Folder) (path : String) : Option ByteArray :=
  match f.item? path with
  | some (.file bytes) => some bytes
  | _ => none

/-- The path leads to a directory. -/
def hasDirectory (f : Folder) (path : String) : Bool :=
  match f.item? path with
  | some .directory => true
  | _ => false

/-- The place of a file that is written. -/
def target (f : Folder) (path : String) : Except PathError (List String) := do
  let place ← f.place path
  match f.at? place with
  | some .directory => throw .isADirectory
  | _ => if FileName.endsInSlash path then throw .isADirectory else return place

/-- The place of a directory that is made, unless there is one already. -/
def room? (f : Folder) (path : String) : Except PathError (Option (List String)) := do
  let place ← f.place path
  match f.at? place with
  | none => return some place
  | some .directory => return none
  | some (.file _) => throw .alreadyThere

/-- A path with these parts leads through a directory. -/
def isAbove (parts : List String) (path : List String) : Bool :=
  parts.isPrefixOf path && parts.length < path.length

/-- The folder of files and directories by their paths, with the directories on the way to
them and those above, and the directory of its user. -/
def ofFiles (files : List (String × ByteArray)) (directories : List String) (home : String) :
    Folder where
  home := home
  at? place :=
    if place.all (· = "..") then some .directory
    else
      let placed := files.map fun (path, bytes) => (FileName.place path, bytes)
      let made := (home :: directories).map FileName.place
      match placed.lookup place with
      | some bytes => some (.file bytes)
      | none =>
        if made.contains place || (placed.map Prod.fst ++ made).any (isAbove place) then
          some .directory
        else none

end Folder

end Assay
