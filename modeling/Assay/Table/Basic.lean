import Assay.Table.Error
import Assay.Table.Record
import Assay.Log

/-!
# Tables

A table has an ordered list of fields and a list of records, and a view of its structure
with one entry for each path.

## Main definitions

* `Table` — fields, records and structure
* `Table.warnings` — what a reader of the table should know
-/

namespace Assay

/-- Fields, records and structure of one text. -/
structure Table where
  format : Format
  fields : List String
  records : List Record
  entries : List Entry
  /-- Rows of a delimited text with fewer cells than there are fields. -/
  shortRows : Nat

namespace Table

/-- The values of a field, one for each record; a record without the field has null. -/
def values (t : Table) (field : String) : List Document :=
  t.records.map fun r => (Fields.get? field r).getD .null

/-- What a reader of a table should know: that rows are short. -/
def warnings (t : Table) (source : String) : List Log.Record :=
  if t.shortRows = 0 then []
  else
    [⟨.warning, .reader, toString t.shortRows ++ " row(s) in " ++ source ++
      " have fewer values than the " ++ toString t.fields.length ++
      " header fields; missing values are treated as empty"⟩]

/-- What was read. -/
def progress (t : Table) : Log.Record :=
  let what :=
    match t.format with
    | .delimited => "delimited text"
    | .nested => "nested document"
  ⟨.debug, .reader, "Parsed " ++ what ++ ": " ++ toString t.fields.length ++ " fields, " ++
    toString t.records.length ++ " records"⟩

end Table

end Assay
