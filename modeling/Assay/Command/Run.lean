import Assay.Command.Analyze

/-!
# Running a command

A command line is refused before anything is done, or its command runs in a folder.

## Main definitions

* `Command.Invocation.action` — the steps of a command
* `Command.run` — the outcome of a command line
-/

namespace Assay.Command

/-- The version of the program. -/
def programVersion : String := "0.1.0"

/-- How the program is used. -/
def usageText : String :=
  "Usage: scope-inspect profile FILE [options]\n" ++
    "       scope-inspect analyze FILE [options]\n" ++
    "       scope-inspect version\n"

namespace Invocation

/-- The steps of a command. -/
def action : Invocation → Action Unit
  | profile o => o.run
  | analyze o => o.run
  | version => do
    print ("Scope Inspect v" ++ programVersion ++ "\n")
    print "Data profiling and source I/O extraction\n"
  | versionNumber => print ("cli, version " ++ programVersion ++ "\n")
  | help => print usageText

end Invocation

/-- The outcome of a command line that is refused. -/
def Outcome.refused (e : UsageError) : Outcome :=
  { exitCode := 2, output := "", errors := usageText ++ "\nError: " ++ e.message ++ "\n",
    written := [], made := [], fault := none }

/-- The outcome of a command line in a folder. -/
def run (folder : Folder) (time : String) (words : List String) : Outcome :=
  match Invocation.ofWords folder words with
  | .error (.declared e) => .refused e
  | .error (.fault f) => Action.run folder time (breakOff f)
  | .ok i => i.action.run folder time

end Assay.Command
