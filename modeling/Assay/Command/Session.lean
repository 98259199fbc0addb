import Assay.Command.Folder
import Assay.Command.Options
import Assay.Terminal
import Assay.Text.Decode
import Assay.Value.Fields

/-!
# Sessions

While a command runs it prints, complains, reports what it does in the log and writes
files. What it has done is kept also when it ends early.

## Main definitions

* `Command.Session` — what a command has done so far
* `Command.Action` — a step of a command
* `Command.print`, `Command.complain`, `Command.record`, `Command.writeFile` — the steps
* `Command.Outcome`, `Command.Action.run` — all that a command did
-/

namespace Assay.Command

/-- What a command has done so far, and where. -/
structure Session where
  folder : Folder
  /-- The time that log records tell. -/
  time : String
  /-- The rank from which records are written. -/
  rank : Nat
  /-- The place of the file that log records go to. -/
  logFile : Option (List String)
  output : String
  errors : String
  /-- The files that were written, by their places, with their contents. -/
  written : Fields (List String) ByteArray
  /-- The directories that were made. -/
  made : List (List String)

/-- How a command ends before its last step. -/
inductive Stop where
  /-- With an exit code. -/
  | exit (code : Nat)
  | fault (f : Fault)

/-- A step of a command. -/
abbrev Action (α : Type) := ExceptT Stop (StateM Session) α

/-- Break off. -/
def breakOff {α : Type} (f : Fault) : Action α := throw (.fault f)

/-- What can only break off is a step of a command. -/
instance : MonadLift (Except Fault) Action :=
  ⟨fun x => match x with
    | .ok a => pure a
    | .error f => breakOff f⟩

/-- Print a text. -/
def print (s : String) : Action Unit :=
  modify fun st => { st with output := st.output ++ s }

/-- Print what can break off. -/
def printAll (p : Output) : Action Unit := do
  print p.text
  match p.fault with
  | none => pure ()
  | some f => breakOff f

/-- Print a text among the errors. -/
def complain (s : String) : Action Unit :=
  modify fun st => { st with errors := st.errors ++ s }

/-! ## Files -/

/-- The folder as the command has left it so far. -/
def Session.view (st : Session) : Folder where
  home := st.folder.home
  at? place :=
    match Fields.get? place st.written with
    | some bytes => some (.file bytes)
    | none => if st.made.contains place then some .directory else st.folder.at? place

/-- The folder as the command has left it so far. -/
def view : Action Folder := return (← get).view

/-- Go on with what a path leads to, or break off. -/
def orBreakOff {α : Type} (path : String) (x : Except PathError α) : Action α :=
  match x with
  | .ok a => pure a
  | .error e => breakOff (.badPath e (Text.quote path))

/-- Write what is put out to a file. When that breaks off, the file holds what came
before. -/
def writeFile (path : String) (out : Output) : Action Unit := do
  let place ← orBreakOff path ((← view).target path)
  modify fun st => { st with written := Fields.put place out.text.toUTF8 st.written }
  if let some f := out.fault then breakOff f

/-- Make a directory, given by the parts of its path from the last to the first, with
those on the way to it. -/
def makeDirectory : List String → Action Unit
  | [] => pure ()
  | part :: above => do
    let path := FileName.text (part :: above).reverse
    let room := (← view).room? path
    let room ← match room with
      | .error .missing => do
        makeDirectory above
        pure ((← view).room? path)
      | room => pure room
    match ← orBreakOff path room with
    | none => pure ()
    | some place => modify fun st => { st with made := place :: st.made }

/-! ## Log records -/

/-- A log record on a line. -/
def logLine (time : String) (r : Log.Record) : String :=
  time ++ " - " ++ r.part.name ++ " - " ++ r.level.name ++ " - " ++ r.message ++ "\n"

/-- The lines of the records from a rank on. -/
def logText (time : String) (rank : Nat) (log : List Log.Record) : String :=
  String.join ((log.filter fun r => rank ≤ r.level.rank).map (logLine time))

/-- Put a text at the end of a file that was written. -/
def Session.append (st : Session) (place : List String) (text : String) : Session :=
  let before := (Fields.get? place st.written).getD .empty
  { st with written := Fields.put place (before ++ text.toUTF8) st.written }

/-- Write log records among the errors and to the log file. -/
def record (log : List Log.Record) : Action Unit :=
  modify fun st =>
    let text := logText st.time st.rank log
    let st := { st with errors := st.errors ++ text }
    match st.logFile with
    | none => st
    | some place => st.append place text

/-- Begin to write log records to a file. It goes on where it ended, and its directory is
made. Two points in its path take back the part before them. -/
def startLogFile (path : String) : Action Unit := do
  makeDirectory (FileName.rooted path).dropLast.reverse
  let place := FileName.place path
  match (← view).at? place with
  | some .directory => breakOff (.badPath .isADirectory (Text.quote (FileName.text place)))
  | item =>
    let bytes := match item with
      | some (.file bytes) => bytes
      | _ => .empty
    modify fun st => { st with
      logFile := some place, written := Fields.put place bytes st.written }

/-- Begin to write log records. -/
def startLog (o : LogOptions) : Action Unit := do
  modify fun st => { st with rank := o.level.rank }
  match o.file with
  | none => pure ()
  | some path => startLogFile path

/-- The result of a computation, after its log records. -/
def logged {ε α : Type} (x : Logged ε α) : Action (Except ε α) := do
  record x.log
  return x.result

/-! ## Outcomes -/

/-- All that a command did. -/
structure Outcome where
  exitCode : Nat
  output : String
  errors : String
  /-- Places and contents of the files. -/
  written : Fields (List String) ByteArray
  /-- The directories that were made. -/
  made : List (List String)
  /-- Why the command broke off. -/
  fault : Option Fault

/-- The outcome of a command in a folder. -/
def Action.run (folder : Folder) (time : String) (a : Action Unit) : Outcome :=
  let (result, st) := StateT.run (ExceptT.run a)
    { folder := folder, time := time, rank := Log.Level.warning.rank, logFile := none,
      output := "", errors := "", written := [], made := [] }
  let (code, fault) : Nat × Option Fault :=
    match result with
    | .ok _ => (0, none)
    | .error (.exit code) => (code, none)
    | .error (.fault f) => (1, some f)
  { exitCode := code, output := st.output, errors := st.errors, written := st.written,
    made := st.made, fault := fault }

end Assay.Command
