import Assay.Text.Base64
import Assay.Text.Hex
import Assay.Text.Printable
import Assay.Value.Basic

/-!
# Values as text

A value has two text forms. Standing alone, a text is shown as it is; inside another
value, and wherever its kind has to be visible, it is quoted. Lists and records show
their parts in the quoted form; one that stands within itself shows dots there. An
integer of more than `digitLimit` digits has no text form.

## Main definitions

* `Text.quote` — the quoted form of a text
* `Graph.quoted` — the quoted form of a part of a graph
* `Value.quoted` — the form in which a value stands inside others
* `Value.plain` — the form in which a value stands alone
* `Value.memberOf` — the member of a closed set that a value names
-/

namespace Assay

namespace Text

/-- One character of a quoted text: the quote and the backslash are escaped, and what is
not printable is written by its code. -/
def quoteChar (mark c : Char) : List Char :=
  if c = mark ∨ c = '\\' then ['\\', c]
  else if c = '\n' then ['\\', 'n']
  else if c = '\r' then ['\\', 'r']
  else if c = '\t' then ['\\', 't']
  else if isPrintable c then [c]
  else if c.toNat < 0x100 then '\\' :: 'x' :: hexText 2 c.toNat
  else if c.toNat < 0x10000 then '\\' :: 'u' :: hexText 4 c.toNat
  else '\\' :: 'U' :: hexText 8 c.toNat

/-- The quoted form: in double quotes when the text holds single quotes only, else in
single quotes. -/
def quote (s : String) : String :=
  let cs := s.toList
  let mark := if cs.contains '\'' && !cs.contains '"' then '"' else '\''
  String.ofList (mark :: cs.flatMap (quoteChar mark) ++ [mark])

/-- Parts between an opening and a closing mark. -/
def enclosed (opening closing : String) (parts : List String) : String :=
  opening ++ ", ".intercalate parts ++ closing

end Text

namespace Number

/-- The text of an integer, unless it has too many digits. -/
def intText (n : Int) : Except Fault String :=
  if n.natAbs < 10 ^ digitLimit then .ok (toString n) else .error .integerTooLong

end Number

/-- A type whose members have a quoted form. -/
class Quotable (κ : Type) where
  quoted : κ → Except Fault String

instance : Quotable String := ⟨fun s => .ok (Text.quote s)⟩

/-- The text of a truth value. -/
def boolText (b : Bool) : String := if b then "True" else "False"

namespace Datum

/-- The form in which a scalar stands inside others. -/
def quoted : Datum → String
  | moment t => t.quoted
  | octets bytes => Text.quoteBytes bytes
  | nan _ => "nan"

/-- The form in which a scalar stands alone. -/
def plain : Datum → String
  | moment t => t.plain
  | d => d.quoted

end Datum

/-- The form in which a key stands inside a record. -/
def Key.quoted : Key → Except Fault String
  | .null => .ok "None"
  | .bool b => .ok (boolText b)
  | .int n => Number.intText n
  | .float x => .ok (Number.floatText x)
  | .text s => .ok (Text.quote s)
  | .datum d => .ok d.quoted

instance : Quotable Key := ⟨Key.quoted⟩

/-- The text form of a set. -/
def setText (members : List Key) : Except Fault String := do
  let parts ← members.mapM Key.quoted
  return if parts.isEmpty then "set()" else Text.enclosed "\x7b" "\x7d" parts

/-- The quoted form of a part of a graph, where the parts that are `around` it are being
shown already. No part is shown within itself, so that the number of parts bounds the
depth. -/
def Graph.quoted (g : Graph) : Nat → List Nat → Nat → Except Fault String
  | 0, _, _ => .ok ""
  | fuel + 1, around, i =>
    match g[i]? with
    | none => .ok ""
    | some (.scalar k) => k.quoted
    | some (.set members) => setText members
    | some (.list items) =>
      if around.contains i then .ok "[...]"
      else do return Text.enclosed "[" "]" (← items.mapM (quoted g fuel (i :: around)))
    | some (.record fields) =>
      if around.contains i then .ok "\x7b...\x7d"
      else do
        return Text.enclosed "\x7b" "\x7d" (← fields.mapM fun (k, v) => do
          return (← k.quoted) ++ ": " ++ (← quoted g fuel (i :: around) v))
    | some (.pair a b) => do
      return Text.enclosed "(" ")" [← quoted g fuel around a, ← quoted g fuel around b]

/-- The quoted form of a pair, of which `shown` of the lists and records around it are
being shown already. -/
def Pair.quoted (p : Pair) (shown : Nat) : Except Fault String := do
  let part := p.graph.quoted (2 * p.graph.size + 1) (p.around.take shown)
  return Text.enclosed "(" ")" [← part p.first, ← part p.second]

namespace Foreign

/-- The form in which a leaf stands inside others, of which `shown` are being shown. -/
def quotedIn (shown : Nat) : Foreign → Except Fault String
  | datum d => .ok d.quoted
  | set members => setText members
  | pair p => p.quoted shown

/-- The form in which a leaf stands alone. -/
def plain : Foreign → Except Fault String
  | datum d => .ok d.plain
  | f => f.quotedIn 0

end Foreign

namespace Value

variable {κ : Type} [Quotable κ]

/-- The form in which a value stands inside `shown` lists and records. -/
def quotedIn (shown : Nat) : Value κ → Except Fault String
  | null => .ok "None"
  | bool b => .ok (boolText b)
  | int n => Number.intText n
  | float x => .ok (Number.floatText x)
  | text s => .ok (Text.quote s)
  | list items => do return Text.enclosed "[" "]" (← quotedItems (shown + 1) items)
  | record fields => do
    return Text.enclosed "\x7b" "\x7d" (← quotedFields (shown + 1) fields)
  | foreign f => f.quotedIn shown
where
  /-- The items of a list, each in its quoted form. -/
  quotedItems (shown : Nat) : List (Value κ) → Except Fault (List String)
    | [] => .ok []
    | v :: vs => do return (← quotedIn shown v) :: (← quotedItems shown vs)
  /-- The fields of a record, key and value in their quoted forms. -/
  quotedFields (shown : Nat) : List (κ × Value κ) → Except Fault (List String)
    | [] => .ok []
    | (k, v) :: fs => do
      return ((← Quotable.quoted k) ++ ": " ++ (← quotedIn shown v)) ::
        (← quotedFields shown fs)

/-- The form in which a value stands inside others, on its own. -/
def quoted (v : Value κ) : Except Fault String := v.quotedIn 0

/-- The form in which a value stands alone: a text as it is, all else as quoted. -/
def plain : Value κ → Except Fault String
  | text s => .ok s
  | foreign f => f.plain
  | v => v.quoted

/-- The member of a closed set that a value names. -/
def memberOf {α : Type} (set : String) (ofName? : String → Option α) (v : Value κ) :
    Except Fault α := do
  let named := match v with
    | text s => ofName? s
    | _ => none
  match named with
  | some x => return x
  | none => throw (.notAMember (← v.quoted) set)

end Value

end Assay
