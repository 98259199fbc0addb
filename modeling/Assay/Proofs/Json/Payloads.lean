import Assay.Json.Payload
import Assay.Proofs.Json.Standard

/-!
# What is written of a payload

JSON has no word for numbers that are not finite, so null is to stand for them. Of the numbers of
a fixed width those of single precision are turned into it, but those of double precision are
written as plain doubles are. A payload is therefore written as it is meant just when all its
numbers of double precision are finite, and its integers are short enough to be written at all.

## Main definitions

* `Payload.leaves` — the parts of a payload that are neither lists nor records
* `Payload.IsOrdinary` — a payload of texts, finite doubles, integers and numbers of a fixed width
* `Payload.documentBy` — the document of a payload, for a way to write numbers of double precision
* `Payload.meant` — the document that a payload is meant to become

## Main results

* `documentBy_eq_iff` — ways to write numbers of double precision are told apart by those that occur
* `isPlain_documentBy_iff` — when the document of an ordinary payload can be written
* `exists_meant_iff` — when an ordinary payload is written as it is meant
-/

namespace Assay.Payload

open Json

/-- Payloads are built from lists of payloads and from records of them. -/
@[induction_eliminator]
theorem ind {motive : Payload → Prop} (plain : ∀ v, motive (plain v))
    (fixedInt : ∀ n, motive (fixedInt n)) (single : ∀ x, motive (single x))
    (double : ∀ x, motive (double x)) (fixedBool : ∀ b, motive (fixedBool b))
    (member : ∀ name, motive (member name))
    (list : ∀ items, (∀ p ∈ items, motive p) → motive (list items))
    (record : ∀ fields, (∀ f ∈ fields, motive f.2) → motive (record fields)) (p : Payload) :
    motive p :=
  Payload.rec (motive_1 := motive) (motive_2 := fun ps => ∀ p ∈ ps, motive p)
    (motive_3 := fun fs => ∀ f ∈ fs, motive f.2) (motive_4 := fun f => motive f.2)
    plain fixedInt single double fixedBool member list record
    (fun _ h => nomatch h) (fun _ _ hp hps => List.forall_mem_cons.mpr ⟨hp, hps⟩)
    (fun _ h => nomatch h) (fun _ _ hf hfs => List.forall_mem_cons.mpr ⟨hf, hfs⟩)
    (fun _ _ h => h) p

/-! ## Leaves -/

/-- The parts of a payload that are neither lists nor records. -/
def leaves : Payload → List Payload
  | list items => leavesOfItems items
  | record fields => leavesOfFields fields
  | p => [p]
where
  /-- The leaves of items. -/
  leavesOfItems : List Payload → List Payload
    | [] => []
    | p :: ps => leaves p ++ leavesOfItems ps
  /-- The leaves of the values of fields. -/
  leavesOfFields : List (String × Payload) → List Payload
    | [] => []
    | (_, p) :: fs => leaves p ++ leavesOfFields fs

/-- Payloads of the common kinds of values: plain doubles are finite, integers of a fixed width
have at most 64 bits, and the keys of a record are distinct. -/
inductive IsOrdinary : Payload → Prop where
  | null : IsOrdinary (plain .null)
  | bool (b : Bool) : IsOrdinary (plain (.bool b))
  | int (n : Int) : IsOrdinary (plain (.int n))
  | float {x : Float} (h : x.isFinite = true) : IsOrdinary (plain (.float x))
  | text (s : String) : IsOrdinary (plain (.text s))
  | fixedInt {n : Int} (h : -2 ^ 63 ≤ n ∧ n < 2 ^ 63) : IsOrdinary (fixedInt n)
  | single (x : Float) : IsOrdinary (single x)
  | double (x : Float) : IsOrdinary (double x)
  | fixedBool (b : Bool) : IsOrdinary (fixedBool b)
  | member (name : String) : IsOrdinary (member name)
  | list {items : List Payload} (h : ∀ p ∈ items, IsOrdinary p) : IsOrdinary (list items)
  | record {fields : List (String × Payload)} (hkeys : (fields.map Prod.fst).Nodup)
    (h : ∀ f ∈ fields, IsOrdinary f.2) : IsOrdinary (record fields)

/-- All plain integers of a payload have at most `digitLimit` digits. -/
def HasShortIntegers (p : Payload) : Prop :=
  ∀ q ∈ p.leaves, ∀ n, q = plain (.int n) → n.natAbs < 10 ^ digitLimit

/-- All numbers of double precision in a payload are finite. -/
def HasFiniteDoubles (p : Payload) : Prop :=
  ∀ q ∈ p.leaves, ∀ x, q = double x → x.isFinite = true

/-! ## Documents -/

/-- A number as a document, and null for one that is not finite. -/
def orNull (x : Float) : Document := if x.isFinite then .float x else .null

/-- The document of a payload in which `f` tells what is written of a number of double precision. -/
def documentBy (f : Float → Document) : Payload → Document
  | plain v => v
  | fixedInt n => .int n
  | single x => orNull x
  | double x => f x
  | fixedBool b => .bool b
  | member name => .text name
  | list items => .list (documentsOfItems items)
  | record fields => .record (documentsOfFields fields)
where
  /-- The documents of items. -/
  documentsOfItems : List Payload → List Document
    | [] => []
    | p :: ps => documentBy f p :: documentsOfItems ps
  /-- The documents of fields. -/
  documentsOfFields : List (String × Payload) → Fields String Document
    | [] => []
    | (k, p) :: fs => (k, documentBy f p) :: documentsOfFields fs

/-- The document that a payload is meant to become: a number of a fixed width is a plain one, or
null where it is not finite, and a member of a closed set is its name. -/
def meant (p : Payload) : Document := p.documentBy orNull

variable {f g : Float → Document} {p : Payload} {ps : List Payload} {fs : List (String × Payload)}
  {P : Payload → Prop}

theorem leaves_list (ps : List Payload) : (list ps).leaves = ps.flatMap leaves := by
  rw [leaves]
  induction ps with
  | nil => rfl
  | cons p ps ih => rw [leaves.leavesOfItems, ih, List.flatMap_cons]

theorem leaves_record (fs : List (String × Payload)) :
    (record fs).leaves = fs.flatMap fun f => f.2.leaves := by
  rw [leaves]
  induction fs with
  | nil => rfl
  | cons f fs ih => rw [leaves.leavesOfFields, ih, List.flatMap_cons]

theorem forall_mem_leaves_list_iff :
    (∀ q ∈ (list ps).leaves, P q) ↔ ∀ p ∈ ps, ∀ q ∈ p.leaves, P q := by
  rw [leaves_list, List.forall_mem_flatMap]

theorem forall_mem_leaves_record_iff :
    (∀ q ∈ (record fs).leaves, P q) ↔ ∀ f ∈ fs, ∀ q ∈ f.2.leaves, P q := by
  rw [leaves_record, List.forall_mem_flatMap]

theorem documentBy_list (f : Float → Document) (ps : List Payload) :
    (list ps).documentBy f = .list (ps.map (documentBy f)) := by
  have h : documentBy.documentsOfItems f ps = ps.map (documentBy f) := by
    induction ps with
    | nil => rfl
    | cons p ps ih => rw [documentBy.documentsOfItems, ih, List.map_cons]
  rw [documentBy, h]

theorem documentBy_record (f : Float → Document) (fs : List (String × Payload)) :
    (record fs).documentBy f = .record (fs.map fun x => (x.1, x.2.documentBy f)) := by
  have h : documentBy.documentsOfFields f fs = fs.map fun x => (x.1, x.2.documentBy f) := by
    induction fs with
    | nil => rfl
    | cons x fs ih => rw [documentBy.documentsOfFields, ih, List.map_cons]
  rw [documentBy, h]

theorem toDocument_list (ps : List Payload) :
    (list ps).toDocument = .list (ps.map toDocument) := by
  have h : toDocument.itemDocuments ps = ps.map toDocument := by
    induction ps with
    | nil => rfl
    | cons p ps ih => rw [toDocument.itemDocuments, ih, List.map_cons]
  rw [toDocument, h]

theorem toDocument_record (fs : List (String × Payload)) :
    (record fs).toDocument = .record (fs.map fun x => (x.1, x.2.toDocument)) := by
  have h : toDocument.fieldDocuments fs = fs.map fun x => (x.1, x.2.toDocument) := by
    induction fs with
    | nil => rfl
    | cons x fs ih => rw [toDocument.fieldDocuments, ih, List.map_cons]
  rw [toDocument, h]

/-- What is written is the document in which numbers of double precision are plain doubles. -/
theorem toDocument_eq (p : Payload) : p.toDocument = p.documentBy .float := by
  induction p with
  | list ps ih => rw [toDocument_list, documentBy_list, List.map_congr_left ih]
  | record fs ih =>
    rw [toDocument_record, documentBy_record]
    exact congrArg _ (List.map_congr_left fun x hx => congrArg _ (ih x hx))
  | _ => rfl

/-- Ways to write numbers of double precision are told apart by those that occur. -/
theorem documentBy_eq_iff :
    p.documentBy f = p.documentBy g ↔ ∀ q ∈ p.leaves, ∀ x, q = double x → f x = g x := by
  induction p with
  | list ps ih =>
    rw [documentBy_list, documentBy_list, Value.list.injEq, List.map_inj_left,
      forall_mem_leaves_list_iff]
    exact forall₂_congr ih
  | record fs ih =>
    rw [documentBy_record, documentBy_record, Value.record.injEq, List.map_inj_left,
      forall_mem_leaves_record_iff]
    refine forall₂_congr fun x hx => ?_
    rw [Prod.mk.injEq, and_iff_right rfl]
    exact ih x hx
  | _ => simp [leaves, documentBy]

theorem isPlain_orNull (x : Float) : IsPlain (orNull x) := by
  rw [orNull]
  split
  · exact .float x
  · exact .null

theorem isFinite_orNull (x : Float) : IsFinite (orNull x) := by
  rw [orNull]
  split
  · next hx => exact .float hx
  · exact .null

theorem float_eq_orNull_iff {x : Float} : .float x = orNull x ↔ x.isFinite = true := by
  rw [orNull]
  split <;> simp [*]

/-- A payload is written as it is meant when nothing of it is meant to become null but what does. -/
theorem toDocument_eq_meant_iff : p.toDocument = p.meant ↔ p.HasFiniteDoubles := by
  rw [toDocument_eq, meant, documentBy_eq_iff]
  exact forall₄_congr fun q hq x hx => float_eq_orNull_iff

/-- An integer of a fixed width has few enough digits. -/
theorem natAbs_lt_of_fits {n : Int} (h : -2 ^ 63 ≤ n ∧ n < 2 ^ 63) :
    n.natAbs < 10 ^ digitLimit := by
  have hpow : 10 ^ 19 ≤ 10 ^ digitLimit := Nat.pow_le_pow_right (by decide) (by decide)
  omega

/-- The document of an ordinary payload can be written when its integers are short enough. -/
theorem isPlain_documentBy_iff (hf : ∀ x, IsPlain (f x)) (h : p.IsOrdinary) :
    IsPlain (p.documentBy f) ↔ p.HasShortIntegers := by
  have hleaf {p : Payload} {v : Document} (hp : p.leaves = [p]) (hint : ∀ n, p ≠ plain (.int n))
      (hv : IsPlain v) : IsPlain v ↔ p.HasShortIntegers := by
    refine iff_of_true hv ?_
    rw [HasShortIntegers, hp, List.forall_mem_singleton]
    exact fun n hn => absurd hn (hint n)
  induction h with
  | null => exact hleaf rfl (by simp) .null
  | bool b => exact hleaf rfl (by simp) (.bool b)
  | int n =>
    -- The only leaf that may be too long to be written.
    rw [documentBy, isPlain_int_iff]
    simp [HasShortIntegers, leaves]
  | float hx => exact hleaf rfl (by simp) (.float _)
  | text s => exact hleaf rfl (by simp) (.text s)
  | fixedInt hn => exact hleaf rfl (by simp) (.int (natAbs_lt_of_fits hn))
  | single x => exact hleaf rfl (by simp) (isPlain_orNull x)
  | double x => exact hleaf rfl (by simp) (hf x)
  | fixedBool b => exact hleaf rfl (by simp) (.bool b)
  | member name => exact hleaf rfl (by simp) (.text name)
  | list _ ih =>
    rw [documentBy_list, isPlain_list_iff, List.forall_mem_map, HasShortIntegers,
      forall_mem_leaves_list_iff]
    exact forall₂_congr ih
  | record hkeys _ ih =>
    rw [documentBy_record, isPlain_record_iff, List.forall_mem_map, HasShortIntegers,
      forall_mem_leaves_record_iff, Fields.keys, List.map_map]
    exact (and_iff_right hkeys).trans (forall₂_congr ih)

theorem isFinite_meant (h : p.IsOrdinary) : IsFinite p.meant := by
  induction h with
  | null => exact .null
  | bool b | fixedBool b => exact .bool b
  | int n => exact .int n
  | float hx => exact .float hx
  | text s => exact .text s
  | member name => exact .text name
  | fixedInt _ => exact .int _
  | single x | double x => exact isFinite_orNull x
  | list _ ih =>
    rw [meant, documentBy_list, isFinite_list_iff, List.forall_mem_map]
    exact ih
  | record _ _ ih =>
    rw [meant, documentBy_record, isFinite_record_iff, List.forall_mem_map]
    exact ih

/-- **What is meant is written**: an ordinary payload has a standard text that is read as the
document it is meant to become just when its numbers of double precision are finite and its
integers are short. -/
theorem exists_meant_iff (h : p.IsOrdinary) :
    (∃ s, write indented p.toDocument = .ok s ∧ IsStandard s.toList ∧ read s.toList = .ok p.meant) ↔
      p.HasFiniteDoubles ∧ p.HasShortIntegers := by
  have hmeant : IsPlain p.meant ↔ p.HasShortIntegers := isPlain_documentBy_iff isPlain_orNull h
  have hplain : IsPlain p.toDocument ↔ p.HasShortIntegers := by
    rw [toDocument_eq]
    exact isPlain_documentBy_iff .float h
  constructor
  · rintro ⟨s, hs, -, hread⟩
    -- The text is read as what was written, so that this is what was meant.
    have hshort := hmeant.mp (isPlain_of_read hread)
    obtain ⟨t, ht, hreadt, -⟩ := read_of_write isRegular_indented rfl (hplain.mpr hshort)
    obtain rfl : t = s := Except.ok.inj (ht.symm.trans hs)
    exact ⟨toDocument_eq_meant_iff.mp (Except.ok.inj (hreadt.symm.trans hread)), hshort⟩
  · rintro ⟨hdoubles, hshort⟩
    rw [toDocument_eq_meant_iff.mpr hdoubles]
    exact (exists_standard_iff isRegular_indented rfl).mpr ⟨hmeant.mpr hshort, isFinite_meant h⟩

/-- One number is not finite, but of single precision. -/
theorem exists_meant_single :
    (record [("x", list [single (0.0 / 0.0), double 1.5])]).IsOrdinary ∧
      ∃ s, write indented (record [("x", list [single (0.0 / 0.0), double 1.5])]).toDocument =
          .ok s ∧
        IsStandard s.toList ∧ read s.toList = .ok (.record [("x", .list [.null, .float 1.5])]) := by
  have hordinary : (record [("x", list [single (0.0 / 0.0), double 1.5])]).IsOrdinary :=
    .record (by simp) (by simpa using .list (by simp [IsOrdinary.single, IsOrdinary.double]))
  have hmeant : (record [("x", list [single (0.0 / 0.0), double 1.5])]).meant =
      .record [("x", .list [.null, .float 1.5])] := by
    have hnan : orNull (0.0 / 0.0) = .null := if_neg (by decide +kernel)
    have hfinite : orNull 1.5 = .float 1.5 := if_pos (by decide +kernel)
    simp [meant, documentBy, documentBy.documentsOfFields, documentBy.documentsOfItems, hnan,
      hfinite]
  rw [← hmeant]
  refine ⟨hordinary, (exists_meant_iff hordinary).mpr ⟨?_, ?_⟩⟩
  · have hfinite : (1.5 : Float).isFinite = true := by decide +kernel
    simp [HasFiniteDoubles, leaves, leaves.leavesOfFields, leaves.leavesOfItems, hfinite]
  · simp [HasShortIntegers, leaves, leaves.leavesOfFields, leaves.leavesOfItems]

/-- A number of double precision that is not finite is written as a word that JSON does not
know. -/
theorem not_meant_nan :
    (double (0.0 / 0.0)).IsOrdinary ∧ (double (0.0 / 0.0)).meant = .null ∧
      write indented (double (0.0 / 0.0)).toDocument = .ok "NaN" ∧
      ¬∃ s, write indented (double (0.0 / 0.0)).toDocument = .ok s ∧
        read s.toList = .ok (double (0.0 / 0.0)).meant := by
  have hmeant : (double (0.0 / 0.0)).meant = .null :=
    (if_neg (by decide +kernel) : orNull (0.0 / 0.0) = .null)
  have hwrite : write indented (double (0.0 / 0.0)).toDocument = .ok "NaN" := by decide +kernel
  refine ⟨.double _, hmeant, hwrite, ?_⟩
  rintro ⟨s, hs, hread⟩
  obtain ⟨t, ht, hreadt, -⟩ := read_of_write isRegular_indented rfl (.float (0.0 / 0.0))
  obtain rfl : t = s := Except.ok.inj (ht.symm.trans hs)
  rw [hmeant, hreadt] at hread
  cases hread

end Assay.Payload
