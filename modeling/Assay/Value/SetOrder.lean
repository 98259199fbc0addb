import Assay.Value.Equal

/-!
# The order of a set

The members of a set of numbers are shown in the order of their slots in an open table,
which has more than twice as many slots as members and at least eight. A number's first
slot is its residue modulo the prime `2 ^ 61 - 1`; a slot that is taken gives way to one
of the slots behind it, and then to slots that depend on the higher digits of the
residue. Other sets are shown in the order in which their members were given.

## Main definitions

* `Key.residue?` — the residue of a number
* `Key.setOrder` — members in the order in which they are shown
-/

namespace Assay

namespace Key

/-- The modulus of residues. -/
def modulus : Nat := 2 ^ 61 - 1

/-- The residue with the sign of its number; minus one gives way to minus two. -/
def signed (negative : Bool) (n : Nat) : Int :=
  let r : Int := if negative then -(n % modulus : Nat) else (n % modulus : Nat)
  if r = -1 then -2 else r

/-- The residue of a double. A negative power of two has an inverse. -/
def residueOf (x : Float) : Option Int :=
  match Binary.ofFloat? x with
  | some b => some (signed b.negative (b.mantissa * 2 ^ (b.exponent.emod 61).toNat))
  | none => if x.isNaN then none else some (if x < 0.0 then -314159 else 314159)

/-- The residue of a number. -/
def residue? : Key → Option Int
  | bool b => some (if b then 1 else 0)
  | int n => some (signed (n < 0) n.natAbs)
  | float x => residueOf x
  | _ => none

/-- How many slots behind a taken one are tried. -/
def neighbours : Nat := 9

/-- The first free slot from a slot on, of those that are tried together. -/
def freeSlot? (slots : Array (Option Key)) (i : Nat) : Option Nat :=
  let count := if i + neighbours < slots.size then neighbours else 0
  (List.range' i (count + 1)).find? fun j => ((slots[j]?).join).isNone

/-- Put a member into a free slot. `rest` are the digits of its residue that have not been
used. -/
def place (k : Key) : Nat → Nat → Nat → Array (Option Key) → Array (Option Key)
  | 0, _, _, slots => slots
  | fuel + 1, i, rest, slots =>
    match freeSlot? slots i with
    | some j => slots.setIfInBounds j (some k)
    | none =>
      let rest := rest / 32
      place k fuel ((i * 5 + 1 + rest) % slots.size) rest slots

/-- The number of slots for a number of members. -/
def slotCount (n : Nat) : Nat := if n < 5 then 8 else max 8 (2 ^ ((2 * n).log2 + 1))

/-- Members in the order in which they are shown. -/
def setOrder (members : List Key) : List Key :=
  match members.mapM fun k => (residue? k).map fun r => (k, r) with
  | none => members
  | some numbers =>
    let size := slotCount members.length
    let slots := numbers.foldl (fun slots (k, r) =>
      let digits := (r.emod (2 ^ 64)).toNat
      place k (size + 16) (digits % size) digits slots) (Array.replicate size none)
    slots.toList.filterMap id

end Key

end Assay
