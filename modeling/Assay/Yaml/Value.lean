import Assay.Text.Base64
import Assay.Value.SetOrder
import Assay.Value.Tree
import Assay.Yaml.Merge

/-!
# Values of YAML documents

Every node becomes a part of a graph, the same part wherever an alias stands for it. A
scalar has its value when it is first needed. A sequence or mapping is there at once and
is filled later, in the order in which they were first needed, so that it can stand in
itself; its keys must have their values when it is filled.

## Main definitions

* `Yaml.scalarOf` — the value of a scalar
* `Yaml.Building` — the parts so far, and those that are to be filled
* `Yaml.read` — the value of a document
-/

namespace Assay.Yaml

/-! ## Scalars -/

/-- How many mappings can stand for each other, one by the other. -/
def longestChain : Nat := 970

/-- The text of a node: that of a scalar, or of the value that stands for a mapping. -/
def textOf (ns : Nodes) : Nat → Nat → Reading String
  | 0, _ => .error (.fault .nestedTooDeeply)
  | fuel + 1, i =>
    match ns.content i with
    | .scalar s => .ok s
    | .sequence _ => declare .notAScalar
    | .mapping pairs =>
      match pairs.find? fun p => ns.tag p.1 = .default with
      | some (_, value) => textOf ns fuel value
      | none => declare .notAScalar

/-- The bytes that a text writes. -/
def bytesOf (s : String) : Reading Datum :=
  match if s.toList.all (·.toNat < 128) then Text.ofBase64? s.toList else none with
  | none => declare .badBinary
  | some bytes => .ok (.octets bytes)

/-- The truth value of a word. -/
def boolOf (s : String) : Except Fault Bool :=
  let word := String.ofList (Text.lowered s.toList)
  match Tag.boolWords.lookup word with
  | some b => .ok b
  | none => .error (.noSuchKey (Text.quote word))

/-- The timestamp that a text writes. A line feed at its end does not count. -/
def timestampOf (s : String) : Except Fault Timestamp := do
  match Timestamp.ofText? (Tag.withoutEnd s).toList with
  | some t => do
    t.check
    return t
  | none => throw .notADate

/-- The float of a node. The word for NaN always means the same one, and any other text the
one of its own node. -/
def floatKey (i : Nat) (s : String) : Except Fault Key := do
  let x ← floatOf s
  if x.isNaN then return .datum (.nan (if isNanWord s then 0 else i + 1)) else return .float x

/-- The value of a node that is no collection by its tag. -/
def scalarOf (ns : Nodes) (i : Nat) : Reading Key := do
  let tag := ns.tag i
  if let .other uri := tag then declare (.unknownTag uri)
  if tag = .merge then declare (.unknownTag (tagBase ++ "merge"))
  if tag = .default then declare (.unknownTag (tagBase ++ "value"))
  let s ← textOf ns longestChain i
  match tag with
  | .null => return .null
  | .bool => return .bool (← boolOf s)
  | .integer => return .int (← integerOf s)
  | .float => floatKey i s
  | .timestamp =>
    match ns.content i with
    | .scalar _ => return .datum (.moment (← timestampOf s))
    | _ => throw (.fault (.notSearchable "list"))
  | .binary => return .datum (← bytesOf s)
  | _ => return .text s

/-! ## Graphs -/

/-- The parts of a graph so far. -/
structure Building where
  nodes : Nodes
  /-- The number of merge keys in all mappings, at most. -/
  merges : Nat
  /-- The parts of the nodes, by the same numbers; behind them the pairs. -/
  parts : Graph
  /-- The nodes that have a part. -/
  isBuilt : Array Bool
  /-- The collections that are to be filled, in order. -/
  waiting : List Nat
  /-- Those behind them, the last one first. -/
  added : List Nat

namespace Building

/-- Before the first part. -/
def start (ns : Nodes) : Building :=
  { nodes := ns, merges := ns.allMerges, parts := .replicate ns.size (.scalar .null),
    isBuilt := .replicate ns.size false, waiting := [], added := [] }

/-- Give a part. -/
def put (b : Building) (i : Nat) (part : Part) : Building :=
  { b with parts := b.parts.setIfInBounds i part, isBuilt := b.isBuilt.setIfInBounds i true }

/-- A collection that is to be filled. -/
def putEmpty (b : Building) (i : Nat) (part : Part) : Building :=
  { b with added := i :: b.added }.put i part

/-- The part of a node. -/
def build (b : Building) (i : Nat) : Reading Building := do
  if (b.isBuilt[i]?).getD true then return b
  match b.nodes.tag i with
  | .sequence | .pairs | .orderedMapping => return b.putEmpty i (.list [])
  | .mapping => return b.putEmpty i (.record [])
  | .set => return b.putEmpty i (.set [])
  | _ => do
    let key ← scalarOf b.nodes i
    return b.put i (.scalar key)

/-- The part of a node as a key. -/
def keyAt (b : Building) (i : Nat) : Reading Key :=
  match b.parts[i]? with
  | some (.scalar key) => .ok key
  | _ => declare .badKey

/-- One field more; of equal keys the first one stays, with the last value. `places` are
the places of the keys. -/
def addField (out : Array (Key × Nat)) (places : Std.HashMap Key Nat) (key : Key) (value : Nat) :
    Array (Key × Nat) × Std.HashMap Key Nat :=
  match places[key]? with
  | some place => (out.modify place fun (first, _) => (first, value), places)
  | none =>
    let places := places.insert key out.size
    (out.push (key, value), places)

/-- Fields with distinct keys. -/
def distinct (fields : Array (Key × Nat)) : Array (Key × Nat) :=
  (fields.foldl (fun (out, places) (key, value) => addField out places key value)
    (((#[] : Array (Key × Nat))), ({} : Std.HashMap Key Nat))).1

/-- The keys of a mapping and the parts of its values, after merging. -/
def fields (b : Building) (i : Nat) : Reading (List (Key × Nat) × Building) := do
  match b.nodes.content i with
  | .mapping _ =>
    -- the building gives its nodes away, so that they can be changed where they are
    let ns := b.nodes
    let b := { b with nodes := #[] }
    let ns ← Nodes.flatten (b.merges + 1) ns i
    let pairs := ns.pairs i
    let (fields, b) ← pairs.foldlM (fun ((fields : Array (Key × Nat)), (b : Building)) (k, v) => do
      let b ← b.build k
      let key ← b.keyAt k
      let b ← b.build v
      return (fields.push (key, v), b)) (#[], { b with nodes := ns })
    return ((distinct fields).toList, b)
  | _ => declare .notAMapping

/-- The items of a sequence, with their parts. -/
def items (b : Building) (i : Nat) : Reading (List Nat × Building) :=
  match b.nodes.content i with
  | .sequence items => do return (items, ← items.foldlM build b)
  | _ => declare .notASequence

/-- The pairs that the items of a sequence are, each a mapping of one key. -/
def pairs (b : Building) (i : Nat) : Reading (List Nat × Building) :=
  match b.nodes.content i with
  | .sequence items => do
    let (out, b) ← items.foldlM (fun ((out : List Nat), (b : Building)) item => do
      match b.nodes.content item with
      | .mapping #[(k, v)] =>
        let b ← (← b.build k).build v
        return (b.parts.size :: out, { b with parts := b.parts.push (.pair k v) })
      | _ => declare .notAPair) ([], b)
    return (out.reverse, b)
  | _ => declare .notASequence

/-- Fill a collection. -/
def fill (b : Building) (i : Nat) : Reading Building := do
  match b.nodes.tag i with
  | .mapping =>
    let (fields, b) ← b.fields i
    return b.put i (.record fields)
  | .set =>
    let (fields, b) ← b.fields i
    return b.put i (.set (Key.setOrder (fields.map Prod.fst)))
  | .pairs | .orderedMapping =>
    let (items, b) ← b.pairs i
    return b.put i (.list items)
  | _ =>
    let (items, b) ← b.items i
    return b.put i (.list items)

/-- Fill all collections, those that are added meanwhile as well. Each node is added once,
so that the number of nodes bounds the number of steps. -/
def fillAll : Nat → Building → Reading Building
  | 0, b => .ok b
  | fuel + 1, b =>
    match b.waiting with
    | i :: rest => do fillAll fuel (← { b with waiting := rest }.fill i)
    | [] =>
      match b.added.reverse with
      | [] => .ok b
      | i :: rest => do fillAll fuel (← { b with waiting := rest, added := [] }.fill i)

end Building

/-- The graph of the values of nodes, from the root on. -/
def graphOf (root : Nat) (ns : Nodes) : Reading Graph := do
  let b ← (Building.start ns).build root
  return (← b.fillAll (ns.size + 1)).parts

/-! ## Documents -/

/-- The value of the only document of a text; a text without one is null. -/
def Source.value (source : Source) (depth items : Nat) : Reading Setting := do
  match ← source.tokens.nodes? with
  | none => return .null
  | some (root, ns) => return (← graphOf root ns).toTree depth items root

end Assay.Yaml
