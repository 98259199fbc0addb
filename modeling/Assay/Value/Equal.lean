import Assay.Value.Fields

/-!
# Equality of values

Two values are equal when they hold the same data. Numbers of different kinds are
equal when they are the same number, with `true` and `false` as one and zero; the
order of a record's fields and of a set's members does not count. A double that is NaN
equals nothing.

## Main definitions

* `Key.equal`, `Value.equal` — equality of keys and of values
* `Graph.equal`, `Foreign.equal` — equality of the parts of a graph, and of leaves
-/

namespace Assay

/-- A number of any kind, for comparison. -/
inductive Scalar where
  | whole (n : Int)
  | real (x : Float)

namespace Scalar

/-- The same number. A double equals an integer exactly, never after rounding. -/
def equal : Scalar → Scalar → Bool
  | whole m, whole n => m == n
  | real x, real y => x == y
  | whole n, real x => Number.wholeOf? x == some n
  | real x, whole n => Number.wholeOf? x == some n

/-- `true` and `false` as numbers. -/
def ofBool (b : Bool) : Scalar := whole (if b then 1 else 0)

end Scalar

/-- Equality of scalars of no common kind. -/
def Datum.equal : Datum → Datum → Bool
  | moment t, moment u => t.equal u
  | octets a, octets b => a == b
  | nan a, nan b => a == b
  | _, _ => false

namespace Key

/-- The number that a key is, if it is one. -/
def number? : Key → Option Scalar
  | bool b => some (.ofBool b)
  | int n => some (.whole n)
  | float x => some (.real x)
  | _ => none

/-- Equality of keys. -/
def equal (k l : Key) : Bool :=
  match k, l with
  | null, null => true
  | text s, text t => s == t
  | datum a, datum b => a.equal b
  | _, _ =>
    match k.number?, l.number? with
    | some a, some b => a.equal b
    | _, _ => false

instance : BEq Key := ⟨equal⟩

/-- A number for a key, the same for equal keys. -/
def hashCode (k : Key) : UInt64 :=
  match k with
  | null => 0
  | text s => hash s
  | datum (.moment t) => hash t.instant
  | datum (.octets bytes) => hash bytes
  | datum (.nan mark) => hash mark
  | bool b => hash (if b then 1 else 0 : Int)
  | int n => hash n
  | float x =>
    match Number.wholeOf? x with
    | some n => hash n
    | none => x.toBits

instance : Hashable Key := ⟨hashCode⟩

/-- Keys without repetition are the same ones in any order. -/
def sameMembers (ks ls : List Key) : Bool :=
  ks.length == ls.length && ks.all ls.contains

end Key

/-- Equality of two parts of a graph. A part equals itself; the number of parts bounds how
deep others are compared. -/
def Graph.equal (g : Graph) : Nat → Nat → Nat → Bool
  | 0, i, j => i == j
  | fuel + 1, i, j =>
    i == j ||
      match g[i]?, g[j]? with
      | some (.scalar k), some (.scalar l) => k == l
      | some (.set ks), some (.set ls) => Key.sameMembers ks ls
      | some (.list is), some (.list js) =>
        is.length == js.length && (is.zip js).all fun (i, j) => equal g fuel i j
      | some (.record fs), some (.record gs) =>
        fs.length == gs.length && fs.all fun (k, i) =>
          (Fields.get? k gs).any fun j => equal g fuel i j
      | some (.pair a b), some (.pair c d) => equal g fuel a c && equal g fuel b d
      | _, _ => false

/-- Equality of leaves; pairs are pairs of one graph. -/
def Foreign.equal : Foreign → Foreign → Bool
  | datum a, datum b => a.equal b
  | set ks, set ls => Key.sameMembers ks ls
  | pair p, pair q =>
    let part := p.graph.equal p.graph.size
    part p.first q.first && part p.second q.second
  | _, _ => false

namespace Value

variable {κ : Type} [BEq κ]

omit [BEq κ] in
/-- The number that a value is, if it is one. -/
def number? : Value κ → Option Scalar
  | bool b => some (.ofBool b)
  | int n => some (.whole n)
  | float x => some (.real x)
  | _ => none

/-- Equality of values. -/
def equal : Value κ → Value κ → Bool
  | null, null => true
  | text s, text t => s == t
  | foreign f, foreign g => f.equal g
  | list xs, list ys => equalItems xs ys
  | record fs, record gs => fs.length == gs.length && equalFields fs gs
  | v, w =>
    match v.number?, w.number? with
    | some a, some b => a.equal b
    | _, _ => false
where
  /-- Item by item. -/
  equalItems : List (Value κ) → List (Value κ) → Bool
    | [], [] => true
    | x :: xs, y :: ys => equal x y && equalItems xs ys
    | _, _ => false
  /-- Every field on the left has an equal one on the right. -/
  equalFields : List (κ × Value κ) → List (κ × Value κ) → Bool
    | [], _ => true
    | (k, v) :: fs, gs =>
      (match Fields.get? k gs with
        | some w => equal v w
        | none => false) && equalFields fs gs

end Value

end Assay
