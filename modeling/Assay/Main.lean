import Assay.Command.Run
import Std.Time.Zoned

/-!
# The program

Reads the files that a command line names, runs the command, and prints and writes what
came of it. Durations are not measured, and log records tell the date and time on the
clock of the machine when the program began.
-/

namespace Assay

/-- What a path leads to. -/
def itemAt (path : String) : IO (Option Item) := do
  try
    return some (.file (← IO.FS.readBinFile path))
  catch
    | .inappropriateType .. => return some .directory
    | _ => return none

/-- The parts of a folder that paths lead to, with what is on the way to them. -/
def folderOf (home : String) (paths : List String) : IO Folder := do
  let places := paths.flatMap fun path => FileName.way path ++ [FileName.place path]
  let found ← places.eraseDups.mapM fun place => do
    return (place, ← itemAt (FileName.text place))
  return ⟨fun place => (found.lookup place).join, home⟩

/-- Make directories and write files. -/
def writeAll (out : Command.Outcome) : IO Unit := do
  for place in out.made.reverse do
    IO.FS.createDirAll (FileName.text place)
  for (place, contents) in out.written do
    IO.FS.writeBinFile (FileName.text place) contents

/-- A part of a date or a time in two digits. -/
def twoDigits (n : Int) : String := if n < 10 then "0" ++ toString n else toString n

/-- A date with a time of day. -/
def timeText (t : Std.Time.PlainDateTime) : String :=
  "-".intercalate [toString t.year.toInt, twoDigits t.month.val, twoDigits t.day.val] ++ " " ++
    ":".intercalate [twoDigits t.hour.val, twoDigits t.minute.val, twoDigits t.second.val]

/-- What can be a path in a command line: words, and what stands in them behind an equals
sign or behind the name of an option, with a tilde or without. -/
def pathsOf (home : String) (words : List String) : List String :=
  let paths := words ++ words.filterMap (fun w => (Command.splitAtEquals w.toList).2) ++
    words.map fun w => String.ofList (w.toList.drop 2)
  paths ++ paths.map (FileName.expanded home)

end Assay

open Assay in
/-- Run a command line. -/
def main (words : List String) : IO UInt32 := do
  let home := ((← IO.getEnv "HOME").filter (· ≠ "")).getD "/"
  let folder ← folderOf home (pathsOf home words)
  let time := timeText (← Std.Time.PlainDateTime.now)
  let out := Command.run folder time words
  writeAll out
  IO.print out.output
  IO.eprint out.errors
  if let some f := out.fault then IO.eprintln f.message
  return out.exitCode.toUInt32
