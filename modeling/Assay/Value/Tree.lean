import Assay.Value.Basic

/-!
# The tree of a graph

A part of a graph is shown as a tree, in which a part occurs as often as there are ways
to it. The tree ends where there are more levels than a limit, and when the lists and
records on the way to a place, in the order of reading, have more items and fields than a
limit: from there on a tree holds null for each part. So whoever refuses trees beyond
these limits refuses this one where the whole tree would be refused.

## Main definitions

* `Key.toValue` — a key as a value
* `Graph.toTree` — the tree of a part within limits
-/

namespace Assay

/-- A key as a value. -/
def Key.toValue {κ : Type} : Key → Value κ
  | null => .null
  | bool b => .bool b
  | int n => .int n
  | float x => .float x
  | text s => .text s
  | datum d => .foreign (.datum d)

namespace Graph

/-- The trees of parts, one after the other, while `left` items and fields may still
come. -/
def treesOf (tree : Nat → Nat → Setting × Nat) : List Nat → Nat → List Setting × Nat
  | [], left => ([], left)
  | i :: is, left =>
    let (v, left) := tree i left
    let (vs, left) := treesOf tree is left
    (v :: vs, left)

/-- The tree of a part that stands within the parts that are `around` it, for so many
levels, while `left` items and fields may still come; and how many are left after it. -/
def treeAt (g : Graph) : Nat → List Nat → Nat → Nat → Setting × Nat
  | 0, _, _, left => (.null, left)
  | depth + 1, around, i, left =>
    let inner (items : List Nat) : List Setting × Nat :=
      if left < items.length then (items.map fun _ => .null, 0)
      else treesOf (treeAt g depth (i :: around)) items (left - items.length)
    match g[i]? with
    | none => (.null, left)
    | some (.scalar k) => (k.toValue, left)
    | some (.set members) => (.foreign (.set members), left)
    | some (.pair a b) => (.foreign (.pair ⟨g, a, b, around⟩), left)
    | some (.list items) =>
      let (vs, left) := inner items
      (.list vs, left)
    | some (.record fields) =>
      let (vs, left) := inner (fields.map Prod.snd)
      (.record ((fields.map Prod.fst).zip vs), left)

/-- The tree of a part, within limits on its levels and on its items and fields. -/
def toTree (g : Graph) (depth items : Nat) (i : Nat) : Setting := (g.treeAt depth [] i items).1

end Graph

end Assay
