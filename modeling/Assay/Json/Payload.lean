import Assay.Json.Writer

/-!
# Payloads

Data that a caller hands over for export. Besides plain values it can hold numbers of a
fixed width and members of closed sets, which JSON does not know: a number becomes a
plain one, or null where it is not finite, and a member becomes its name. A number of
double precision is a plain one already and stays as it is, also where it is not finite.

## Main definitions

* `Payload` — values as they are handed over
* `Payload.toDocument` — the document that is written
-/

namespace Assay

/-- Values as they are handed over for export. -/
inductive Payload where
  | plain (v : Document)
  /-- An integer of a fixed width. -/
  | fixedInt (n : Int)
  /-- A number of single precision. -/
  | single (x : Float)
  /-- A number of double precision. -/
  | double (x : Float)
  /-- A truth value of a fixed width. -/
  | fixedBool (b : Bool)
  /-- A member of a closed set, by its name. -/
  | member (name : String)
  | list (items : List Payload)
  | record (fields : List (String × Payload))
  deriving Inhabited

namespace Payload

/-- The document that is written for a payload. -/
def toDocument : Payload → Document
  | plain v => v
  | fixedInt n => .int n
  | single x => if x.isFinite then .float x else .null
  | double x => .float x
  | fixedBool b => .bool b
  | member name => .text name
  | list items => .list (itemDocuments items)
  | record fields => .record (fieldDocuments fields)
where
  /-- The documents of items. -/
  itemDocuments : List Payload → List Document
    | [] => []
    | p :: ps => toDocument p :: itemDocuments ps
  /-- The documents of fields. -/
  fieldDocuments : List (String × Payload) → List (String × Document)
    | [] => []
    | (k, p) :: ps => (k, toDocument p) :: fieldDocuments ps

end Payload

namespace Json.Style

/-- The style with given indentation, separators, order and escapes. Separators that are
not given fit the indentation. -/
def ofOptions (indent : Option String) (separators : Option (String × String))
    (sortKeys asciiOnly allowNonFinite : Bool) : Style :=
  let (item, key) := separators.getD (if indent.isSome then "," else ", ", ": ")
  ⟨indent, item, key, sortKeys, asciiOnly, allowNonFinite, false⟩

end Json.Style

end Assay
