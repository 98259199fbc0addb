import Assay.Table.Basic

/-!
# Nested objects

A document that is a list of records, or a single record, gives a table: each record is
flattened, and the fields are the paths of its structure in the order in which they
were first seen. Paths inside the items of an array belong to the structure only.

## Main definitions

* `Nested.recordsOf` — the records of a document
* `Nested.merge` — the entries of several records, one for each path
* `Nested.ofDocument`, `Nested.read` — the table of a document, of a text
-/

namespace Assay.Nested

/-- The items of a list that are records; the first that is none is refused. -/
def checkRecords : Nat → List Document → Except TableError (List Record)
  | _, [] => .ok []
  | i, .record fs :: vs => (checkRecords (i + 1) vs).map (fs :: ·)
  | i, v :: _ => .error (.badRecord i v.kindName)

/-- The records of a document. -/
def recordsOf : Document → Except TableError (List Record)
  | .record fs => .ok [fs]
  | .list [] => .error .noRecords
  | .list vs => checkRecords 0 vs
  | v => .error (.badRoot v.kindName)

/-- Entries in order, the first for each path. -/
def merge : List String → List Entry → List Entry
  | _, [] => []
  | seen, e :: es => if e.path ∈ seen then merge seen es else e :: merge (e.path :: seen) es

/-- The table of the records of a document. -/
def ofRecords (rs : List Record) : Except Fault Table := do
  let entries := merge [] (← rs.mapM (Record.entries "" false)).flatten
  return {
    format := .nested
    fields := (entries.filter fun e => !e.inArray).map Entry.path
    records := rs.map (Record.flatten "")
    entries := entries
    shortRows := 0 }

/-- The table of a document. -/
def ofDocument (v : Document) : Except (Failure TableError) Table :=
  match recordsOf v with
  | .error e => declare e
  | .ok rs => (ofRecords rs).mapError .fault

/-- The table of a JSON text. -/
def read (cs : List Char) : Except (Failure TableError) Table :=
  match Json.read cs with
  | .error (.malformed e) => declare (.malformed e)
  | .error (.fault f) => .error (.fault f)
  | .ok v => ofDocument v

end Assay.Nested
