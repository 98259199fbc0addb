import Assay.Yaml.Node

/-!
# Merging mappings

The mappings under the merge keys of a mapping give it their keys and values, in front of
its own, so that a key of its own wins over one that is merged in. Of several mappings
under one merge key an earlier one wins over a later one. A mapping that is merged has
its own merge keys resolved before, and may be one that is being resolved: a merge key is
taken away before its value is looked at, so that this ends. The key that stands for a
whole mapping is a text in a mapping that is resolved.

## Main definitions

* `Nodes.pairs`, `Nodes.setPairs`, `Nodes.retag` — the parts of a mapping, and changes
* `Nodes.flatten` — resolve the merge keys of a mapping
-/

namespace Assay.Yaml

/-- The nodes of a document, by their numbers. -/
abbrev Nodes := Array Node

namespace Nodes

/-- The tag of a node. -/
def tag (ns : Nodes) (i : Nat) : Tag :=
  match ns[i]? with
  | some n => n.tag
  | none => .null

/-- What a node holds. -/
def content (ns : Nodes) (i : Nat) : Content :=
  match ns[i]? with
  | some n => n.content
  | none => .scalar ""

/-- The keys and values of a mapping; other nodes have none. -/
def pairs (ns : Nodes) (i : Nat) : Array (Nat × Nat) :=
  match ns.content i with
  | .mapping pairs => pairs
  | _ => #[]

/-- Give a mapping other keys and values. -/
def setPairs (ns : Nodes) (i : Nat) (pairs : Array (Nat × Nat)) : Nodes :=
  ns.modify i fun n => { n with content := .mapping pairs }

/-- Give a node another tag. -/
def retag (ns : Nodes) (i : Nat) (tag : Tag) : Nodes :=
  ns.modify i fun n => { n with tag := tag }

/-- The number of keys of a mapping that are merge keys. -/
def mergeCount (ns : Nodes) (i : Nat) : Nat :=
  ((ns.pairs i).toList.filter fun p => ns.tag p.1 = .merge).length

/-- The number of merge keys of all mappings. -/
def allMerges (ns : Nodes) : Nat :=
  (List.range ns.size).foldl (fun n i => n + ns.mergeCount i) 0

/-- The keys of a mapping, from one on, stand for nothing but themselves. -/
def isFlat (ns : Nodes) (i : Nat) : Bool :=
  (ns.pairs i).all fun p => ns.tag p.1 ≠ .merge && ns.tag p.1 ≠ .default

/-- Resolve the next keys of a mapping, from one on, with the pairs that are merged in so
far. `flatten` resolves a mapping that is merged. -/
def flattenFrom (flatten : Nodes → Nat → Reading Nodes) (i : Nat) :
    Nat → Nat → Array (Nat × Nat) → Nodes → Reading (Array (Nat × Nat) × Nodes)
  | 0, _, merged, ns => .ok (merged, ns)
  | left + 1, index, merged, ns =>
    match (ns.pairs i)[index]? with
    | none => .ok (merged, ns)
    | some (key, value) =>
      if ns.tag key = .merge then do
        let ns := ns.setPairs i ((ns.pairs i).eraseIdxIfInBounds index)
        match ns.content value with
        | .mapping _ =>
          let ns ← flatten ns value
          flattenFrom flatten i left index (merged ++ ns.pairs value) ns
        | .sequence items =>
          let (parts, ns) ← items.foldlM (fun (parts, ns) item =>
            match ns.content item with
            | .mapping _ => do
              let ns ← flatten ns item
              return (ns.pairs item :: parts, ns)
            | _ => declare .notMergeable) (([] : List (Array (Nat × Nat))), ns)
          flattenFrom flatten i left index (parts.foldl (· ++ ·) merged) ns
        | .scalar _ => declare .notMergeable
      else
        let ns := if ns.tag key = .default then ns.retag key .text else ns
        flattenFrom flatten i left (index + 1) merged ns

/-- Resolve the merge keys of a mapping, where all mappings together have no more than a
number of them. What is merged comes in front of what is there then. -/
def flatten : Nat → Nodes → Nat → Reading Nodes
  | 0, ns, _ => .ok ns
  | merges + 1, ns, i => do
    if ns.isFlat i then return ns
    let (merged, ns) ← flattenFrom (flatten merges) i (ns.pairs i).size 0 #[] ns
    return if merged.isEmpty then ns else ns.setPairs i (merged ++ ns.pairs i)

end Nodes

end Assay.Yaml
