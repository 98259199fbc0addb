import Assay.Number.Layout
import Assay.Value.Timestamp

/-!
# Values

The data that the library reads, inspects and writes: scalars, lists and records.
A record is a list of fields in the order in which their keys first appeared, and its
keys are of a type `κ`: texts in a document, and scalars of several kinds in a
configuration. Leaves of no common kind are moments, rows of bytes, sets and pairs. What
a pair holds may be a list or record that the pair itself stands in, so it is given by a
graph.

## Main definitions

* `Datum`, `Key` — scalars of no common kind, and the keys of a configuration
* `Graph`, `Pair`, `Foreign` — values that may contain themselves, and leaves of no common
  kind
* `Value` — scalars, lists, records, and leaves of no common kind
* `Document`, `Setting` — the two key types in use
* `Value.kindName`, `Value.isTruthy` — the name of a value's kind, and whether it counts
  as present
* `Value.detached` — a value without what it stands in
-/

namespace Assay

/-! ## Leaves and keys -/

/-- A scalar of no common kind. -/
inductive Datum where
  | moment (t : Timestamp)
  /-- Bytes, as numbers below 256. -/
  | octets (bytes : List Nat)
  /-- A NaN that equals the one of the same mark. -/
  | nan (mark : Nat)
  deriving DecidableEq, Repr

/-- The key of a record in a configuration. -/
inductive Key where
  | null
  | bool (b : Bool)
  | int (n : Int)
  | float (x : Float)
  | text (s : String)
  | datum (d : Datum)
  deriving Inhabited

/-- A part of a graph. Lists, records and pairs give their own parts by number. -/
inductive Part where
  | scalar (k : Key)
  | set (members : List Key)
  | list (items : List Nat)
  | record (fields : List (Key × Nat))
  | pair (first second : Nat)
  deriving Inhabited

/-- Values that may contain themselves: parts with numbers from zero on. -/
abbrev Graph := Array Part

/-- A pair of parts of a graph, within lists and records that are parts of it as well. -/
structure Pair where
  graph : Graph
  first : Nat
  second : Nat
  /-- The lists and records that the pair stands in, from the inside out. -/
  around : List Nat

/-- A leaf that is no scalar of a common kind. -/
inductive Foreign where
  | datum (d : Datum)
  /-- A set, its members in the order in which they are shown. -/
  | set (members : List Key)
  | pair (p : Pair)

/-! ## Values -/

/-- Data: scalars, lists, and records with keys of type `κ`. -/
inductive Value (κ : Type) where
  | null
  | bool (b : Bool)
  | int (n : Int)
  | float (x : Float)
  | text (s : String)
  | list (items : List (Value κ))
  | record (fields : List (κ × Value κ))
  | foreign (f : Foreign)
  deriving Inhabited

/-- The value of a document, whose records have texts as keys. -/
abbrev Document := Value String

/-- The value of a configuration, whose records have scalars as keys. -/
abbrev Setting := Value Key

/-- The name of the kind of a scalar. -/
def Datum.kindName : Datum → String
  | moment t => t.kindName
  | octets _ => "bytes"
  | nan _ => "float"

/-- A scalar of no common kind counts as present unless it has no bytes. -/
def Datum.isTruthy : Datum → Bool
  | octets bytes => !bytes.isEmpty
  | _ => true

namespace Foreign

/-- The name of the kind of a leaf. -/
def kindName : Foreign → String
  | datum d => d.kindName
  | set _ => "set"
  | pair _ => "tuple"

/-- A leaf counts as present unless it is empty. -/
def isTruthy : Foreign → Bool
  | datum d => d.isTruthy
  | set members => !members.isEmpty
  | pair _ => true

end Foreign

namespace Value

variable {κ : Type}

/-- The name of a value's kind. -/
def kindName : Value κ → String
  | null => "NoneType"
  | bool _ => "bool"
  | int _ => "int"
  | float _ => "float"
  | text _ => "str"
  | list _ => "list"
  | record _ => "dict"
  | foreign f => f.kindName

/-- A value counts as present unless it is null, false, zero or empty. -/
def isTruthy : Value κ → Bool
  | null => false
  | bool b => b
  | int n => n != 0
  | float x => !(x == 0.0)
  | text s => s != ""
  | list items => !items.isEmpty
  | record fields => !fields.isEmpty
  | foreign f => f.isTruthy

/-- The double that a value is. -/
def real? : Value κ → Option Float
  | float x => some x
  | foreign (.datum (.nan _)) => some (0.0 / 0.0)
  | _ => none

/-- The fields of a record; other values have none. -/
def fields : Value κ → List (κ × Value κ)
  | record fs => fs
  | _ => []

/-- A text, or null when there is none. -/
def ofOptionalText : Option String → Value κ
  | none => null
  | some s => text s

/-- The value is a record with at least one field. -/
def isFilledRecord : Value κ → Bool
  | record (_ :: _) => true
  | _ => false

/-- A value that stands `depth` levels deep in another one, and from now on is looked at
together with no more than those levels. -/
def detachedAt (depth : Nat) : Value κ → Value κ
  | list items => list (detachedItems (depth + 1) items)
  | record fields => record (detachedFields (depth + 1) fields)
  | foreign (.pair p) => foreign (.pair { p with around := p.around.take depth })
  | v => v
where
  /-- The items of a list. -/
  detachedItems (depth : Nat) : List (Value κ) → List (Value κ)
    | [] => []
    | v :: vs => detachedAt depth v :: detachedItems depth vs
  /-- The fields of a record. -/
  detachedFields (depth : Nat) : List (κ × Value κ) → List (κ × Value κ)
    | [] => []
    | (k, v) :: fs => (k, detachedAt depth v) :: detachedFields depth fs

/-- A value on its own, without the lists and records that it stands in. -/
def detached (v : Value κ) : Value κ := v.detachedAt 0

end Value

/-- A document as a configuration value: each text key becomes a key of the wider
type. -/
def Document.toSetting : Document → Setting
  | .null => .null
  | .bool b => .bool b
  | .int n => .int n
  | .float x => .float x
  | .text s => .text s
  | .list items => .list (go items)
  | .record fields => .record (goFields fields)
  | .foreign f => .foreign f
where
  go : List Document → List Setting
    | [] => []
    | v :: vs => Document.toSetting v :: go vs
  goFields : List (String × Document) → List (Key × Setting)
    | [] => []
    | (k, v) :: fs => (.text k, Document.toSetting v) :: goFields fs

end Assay
