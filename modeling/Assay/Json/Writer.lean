import Assay.Output
import Assay.Value.Shown

/-!
# Writing JSON

A value is written on one line or indented, with its fields in their own order or
sorted by key. Numbers that are not finite are written `NaN`, `Infinity` and
`-Infinity`, unless the style forbids them. A pair is written as a list; another leaf of
no common kind is written in its plain text form, or refused, as the style says. What
stands before a part that is refused has been written by then.

## Main definitions

* `Json.Style` — separators, indentation, order, escapes
* `Json.FieldName` — keys that can be names of fields
* `Json.emit` — what is written of a value
* `Json.write` — the text of a document
* `Json.compact`, `Json.indented` — the two styles in use
-/

namespace Assay.Json

/-- How a document is laid out. -/
structure Style where
  /-- The text of one level of indentation; `none` for a document on one line. -/
  indent : Option String
  itemSeparator : String
  keySeparator : String
  sortKeys : Bool
  /-- Characters beyond ASCII are escaped. -/
  asciiOnly : Bool
  /-- Numbers that are not finite may be written. -/
  allowNonFinite : Bool
  /-- A leaf of no common kind is written in its plain form. -/
  allowForeign : Bool

/-- Sorted, on one line and without spaces; every leaf has a form. -/
def compact : Style := ⟨none, ",", ":", true, true, true, true⟩

/-- Two spaces for each level. -/
def indented : Style := ⟨some "  ", ",", ": ", false, true, true, false⟩

/-- Four hexadecimal digits after `\u`. -/
def unitEscape (n : Nat) : List Char := '\\' :: 'u' :: Text.hexText 4 n

/-- One character of a string. -/
def escapeChar (asciiOnly : Bool) (c : Char) : List Char :=
  if c = '"' then ['\\', '"']
  else if c = '\\' then ['\\', '\\']
  else if c = '\n' then ['\\', 'n']
  else if c = '\r' then ['\\', 'r']
  else if c = '\t' then ['\\', 't']
  else if c = '\x08' then ['\\', 'b']
  else if c = '\x0c' then ['\\', 'f']
  else if c.toNat < 0x20 then unitEscape c.toNat
  else if c.toNat < 0x7f ∨ !asciiOnly then [c]
  else if c.toNat < 0x10000 then unitEscape c.toNat
  else
    let n := c.toNat - 0x10000
    unitEscape (0xD800 + n / 0x400) ++ unitEscape (0xDC00 + n % 0x400)

/-- A string with its quotes. -/
def stringText (asciiOnly : Bool) (s : String) : String :=
  String.ofList ('"' :: s.toList.flatMap (escapeChar asciiOnly) ++ ['"'])

/-- A number that is not finite. -/
def nonFiniteText (x : Float) : String :=
  if x.isNaN then "NaN" else if x < 0.0 then "-Infinity" else "Infinity"

/-- A line break and the indentation of a level, in an indented style. -/
def Style.lineStart (st : Style) (level : Nat) : String :=
  match st.indent with
  | none => ""
  | some unit => "\n" ++ String.join (List.replicate level unit)

/-- A floating-point number. -/
def Style.floatText (st : Style) (x : Float) : Except Fault String :=
  if x.isFinite then .ok (Number.floatText x)
  else if st.allowNonFinite then .ok (nonFiniteText x)
  else .error (.notFinite (if st.indent.isSome then some (Number.floatText x) else none))

/-! ## Names of fields -/

/-- A type of keys that can be names of fields. -/
class FieldName (κ : Type) where
  fieldName : κ → Except Fault String

instance : FieldName String := ⟨.ok⟩

instance : FieldName Key where
  fieldName
    | .null => .ok "null"
    | .bool b => .ok (if b then "true" else "false")
    | .int n => Number.intText n
    | .float x => .ok (if x.isFinite then Number.floatText x else nonFiniteText x)
    | .text s => .ok s
    | .datum (.nan _) => .ok "NaN"
    | .datum d => .error (.notAFieldName d.kindName)

/-! ## Lists and records -/

/-- A part of a list or of a record as it is written. -/
structure Written where
  output : Output
  /-- The part is written together with what stands before it, or not at all. -/
  isAtom : Bool

/-- A part behind the text that stands before it. -/
def Written.behind (w : Written) (lead : String) : Output :=
  if w.isAtom && w.output.fault.isSome then w.output else .ofText lead ++ w.output

/-- Parts of which the first is behind an opening and every other behind a separator. -/
def spread {α : Type} (lead separator : String) (one : String → α → Output) :
    List α → List Output
  | [] => []
  | a :: as => one lead a :: spread separator separator one as

/-- The separator of parts that stand `level` levels deep. -/
def Style.separator (st : Style) (level : Nat) : String := st.itemSeparator ++ st.lineStart level

/-- A list that stands `level` levels deep. -/
def Style.list (st : Style) (level : Nat) (items : List Written) : Output :=
  if items.isEmpty then .ofText "[]"
  else
    .join (spread ("[" ++ st.lineStart (level + 1)) (st.separator (level + 1))
      (fun lead w => w.behind lead) items) ++ .ofText (st.lineStart level ++ "]")

/-- A field behind the text that stands before it; a key that is no name of a field comes
before that text. -/
def Style.field (st : Style) (lead : String) (f : Except Fault String × Output) : Output :=
  .ofExcept (f.1.map fun k => lead ++ stringText st.asciiOnly k ++ st.keySeparator) ++ f.2

/-- A record that stands `level` levels deep. -/
def Style.record (st : Style) (level : Nat) (fields : List (Except Fault String × Output)) :
    Output :=
  if fields.isEmpty then .ofText "\x7b\x7d"
  else
    .ofText ("\x7b" ++ st.lineStart (level + 1)) ++
      .join (spread "" (st.separator (level + 1)) st.field fields) ++
      .ofText (st.lineStart level ++ "\x7d")

/-! ## Leaves of no common kind -/

/-- A leaf that is no part of a document. -/
def Style.foreign (st : Style) (f : Foreign) : Output :=
  if st.allowForeign then .ofExcept (f.plain.map (stringText st.asciiOnly))
  else .broken (.notWritable f.kindName)

/-- A scalar of no common kind. -/
def Style.datum (st : Style) (d : Datum) : Output :=
  match d with
  | .nan _ => .ofExcept (st.floatText (0.0 / 0.0))
  | d => st.foreign (.datum d)

/-- A scalar of a graph. -/
def Style.scalar (st : Style) : Key → Output
  | .null => .ofText "null"
  | .bool b => .ofText (if b then "true" else "false")
  | .int n => .ofExcept (Number.intText n)
  | .float x => .ofExcept (st.floatText x)
  | .text s => .ofText (stringText st.asciiOnly s)
  | .datum d => st.datum d

/-- The scalar is no timestamp and no row of bytes. -/
def isAtomic : Key → Bool
  | .datum (.nan _) => true
  | .datum _ => false
  | _ => true

/-- The part with a number is a scalar that is written together with what stands before
it. -/
def isAtomAt (g : Graph) (i : Nat) : Bool :=
  match g[i]? with
  | some (.scalar k) => isAtomic k
  | _ => false

/-- A part of a graph that stands `level` levels deep and within the parts that are
`around` it. The number of parts bounds the depth. -/
def Style.part (st : Style) (g : Graph) : Nat → List Nat → Nat → Nat → Output
  | 0, _, _, _ => .broken .containsItself
  | fuel + 1, around, level, i =>
    let inner (around : List Nat) (j : Nat) : Output := part st g fuel around (level + 1) j
    let item (around : List Nat) (j : Nat) : Written := ⟨inner around j, isAtomAt g j⟩
    match g[i]? with
    | none => .ofText "null"
    | some (.scalar k) => st.scalar k
    | some (.set members) => st.foreign (.set members)
    | some (.list items) =>
      if around.contains i then .broken .containsItself
      else st.list level (items.map (item (i :: around)))
    | some (.record fields) =>
      if around.contains i then .broken .containsItself
      else st.record level
        (fields.map fun (k, j) => (FieldName.fieldName k, inner (i :: around) j))
    | some (.pair a b) => st.list level [item around a, item around b]

/-- A pair that stands `level` levels deep. -/
def Style.pair (st : Style) (level : Nat) (p : Pair) : Output :=
  let item (i : Nat) : Written :=
    ⟨st.part p.graph (2 * p.graph.size + 1) (p.around.take level) (level + 1) i,
      isAtomAt p.graph i⟩
  st.list level [item p.first, item p.second]

/-! ## Values -/

section

variable {κ : Type}

/-- The value is a scalar that is written together with what stands before it. -/
def isAtom : Value κ → Bool
  | .list _ | .record _ => false
  | .foreign (.datum (.nan _)) => true
  | .foreign _ => false
  | _ => true

variable [FieldName κ]

/-- What is written of a value that stands `level` levels deep. -/
def emitAt (st : Style) (level : Nat) : Value κ → Output
  | .null => .ofText "null"
  | .bool b => .ofText (if b then "true" else "false")
  | .int n => .ofExcept (Number.intText n)
  | .float x => .ofExcept (st.floatText x)
  | .text s => .ofText (stringText st.asciiOnly s)
  | .list items => st.list level (emitItems st (level + 1) items)
  | .record fields => st.record level (emitFields st (level + 1) fields)
  | .foreign (.datum d) => st.datum d
  | .foreign (.pair p) => st.pair level p
  | .foreign f => st.foreign f
where
  /-- The items of a list. -/
  emitItems (st : Style) (level : Nat) : List (Value κ) → List Written
    | [] => []
    | v :: vs => ⟨emitAt st level v, isAtom v⟩ :: emitItems st level vs
  /-- The names and values of fields. -/
  emitFields (st : Style) (level : Nat) :
      List (κ × Value κ) → List (Except Fault String × Output)
    | [] => []
    | (k, v) :: fs => (FieldName.fieldName k, emitAt st level v) :: emitFields st level fs

/-- What is written of a value. -/
def emit (st : Style) (v : Value κ) : Output := emitAt st 0 v

end

/-- A document with the fields of each record sorted by key. -/
def sorted : Document → Document
  | .list items => .list (sortedItems items)
  | .record fields => .record ((sortedFields fields).mergeSort fun a b => !decide (b.1 < a.1))
  | v => v
where
  /-- Every item with sorted fields. -/
  sortedItems : List Document → List Document
    | [] => []
    | v :: vs => sorted v :: sortedItems vs
  /-- Every field with the sorted value. -/
  sortedFields : List (String × Document) → List (String × Document)
    | [] => []
    | (k, v) :: fs => (k, sorted v) :: sortedFields fs

/-- The text of a document. -/
def write (st : Style) (v : Document) : Except Fault String :=
  (emit st (if st.sortKeys then sorted v else v)).complete

end Assay.Json
