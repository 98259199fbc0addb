import Assay.Table.Kind
import Assay.Value.Fields

/-!
# Nested records and dotted paths

A nested record is seen in two ways. Its leaves are the scalars, arrays and empty
records that can be reached through records alone; flattening maps the dotted path of
each leaf to the leaf. Its structure lists one entry for each leaf, and descends into
the first item of an array as well, under the array's path followed by `[]`.

## Main definitions

* `Path.join` — the path of a key below another path
* `Record.leaves`, `Record.flatten` — the leaves with their paths, as a list and as a
  record
* `Entry`, `Record.entries` — the structure of a record
-/

namespace Assay

/-- A record: keys and values in the order of the text they come from. -/
abbrev Record := Fields String Document

namespace Path

/-- The path of a key below another path. -/
def join (above key : String) : String := if above = "" then key else above ++ "." ++ key

/-- The path of the items of an array. -/
def items (path : String) : String := path ++ "[]"

end Path

/-- One line of the structure of a record: a path and what was first seen under it. -/
structure Entry where
  path : String
  kind : Kind
  sample : Document
  isArray : Bool
  /-- The kind of the first item of an array. -/
  elementKind : Option Kind
  /-- The path leads through the items of an array. -/
  inArray : Bool

namespace Entry

/-- The entry of a value that is no array. -/
def leaf (path : String) (inArray : Bool) (kind : Kind) (sample : Document) : Entry :=
  ⟨path, kind, sample, false, none, inArray⟩

/-- The entry of an array, whose items are of the kind of its first. -/
def array (path : String) (inArray : Bool) (elementKind : Kind) (sample : Document) : Entry :=
  ⟨path, .array, sample, true, some elementKind, inArray⟩

end Entry

namespace Record

/-- The leaves below a path, in the order of the keys. -/
def leaves (above : String) : Record → List (String × Document)
  | [] => []
  | (k, v) :: rest => leavesOf (Path.join above k) v ++ leaves above rest
where
  /-- The leaves of the value under a path. -/
  leavesOf (path : String) : Document → List (String × Document)
    | .record (f :: fs) => leaves path (f :: fs)
    | v => [(path, v)]

/-- Dotted paths and their leaves. Of two leaves with one path the later stays. -/
def flatten (above : String) (r : Record) : Record := Fields.ofPairs (leaves above r)

/-- The entries below a path, in the order of the keys. -/
def entries (above : String) (inArray : Bool) : Record → Except Fault (List Entry)
  | [] => .ok []
  | (k, v) :: rest => do
    return (← entriesOf (Path.join above k) inArray v) ++ (← entries above inArray rest)
where
  /-- The entries of the value under a path. -/
  entriesOf (path : String) (inArray : Bool) : Document → Except Fault (List Entry)
    | .record (f :: fs) => entries path inArray (f :: fs)
    | .list [] => .ok [.array path inArray .empty (.list [])]
    | .list (.record fs :: items) => do
      let below ← entries (Path.items path) true fs
      return .array path inArray .object (.list (.record fs :: items)) :: below
    | .list (first :: items) => do
      return [.array path inArray (← Kind.of first) (.list (first :: items))]
    | v => do return [.leaf path inArray (← Kind.of v) v]

end Record

end Assay
