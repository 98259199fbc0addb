import Assay.Proofs.LastPut
import Assay.Proofs.Table.Leaves

/-!
# Flattened records

Flattening goes on field by field: the flattened form of a nested record is merged into what
came before it, and every other value is put under its path. What comes out has distinct keys
and no record with fields as a value. Records of this kind are flat, and they are just those
that flattening leaves as they are, so a second flattening changes nothing.

The structure of a record says the same as its flattened form. The paths of the entries outside
of arrays are the keys, in the order in which they are first seen, and of several entries with
one path the last one gives the value and its kind.

## Main definitions

* `Record.IsFlattened` — distinct keys, and no record with fields among the values

## Main results

* `flatten_append`, `flatten_record`, `flatten_leaf` — flattening field by field
* `flatten_eq_self_iff`, `flatten_flatten` — flattening is a projection on the flat records
* `flatten_of_entries` — the structure and the flattened form have the same leaves
-/

namespace Assay.Record

variable {above path key : String} {r s : Record} {v : Document} {es : List Entry}

/-! ## Field by field -/

theorem leaves_append (above : String) (r s : Record) :
    leaves above (r ++ s) = leaves above r ++ leaves above s := by
  induction r with
  | nil => rfl
  | cons f r ih => rw [List.cons_append, leaves, ih, leaves, List.append_assoc]

theorem leavesOf_leaf (h : v.isFilledRecord = false) (path : String) :
    leaves.leavesOf path v = [(path, v)] := by
  rw [leaves.leavesOf]
  rintro f fs rfl
  cases h

theorem leaves_singleton (above key : String) (v : Document) :
    leaves above [(key, v)] = leaves.leavesOf (Path.join above key) v := by
  rw [leaves, leaves, List.append_nil]

/-- The flattened form of later fields is merged into that of earlier ones. -/
theorem flatten_append (above : String) (r s : Record) :
    flatten above (r ++ s) = Fields.putAll (flatten above r) (flatten above s) := by
  rw [flatten, leaves_append, Fields.ofPairs_append]
  rfl

/-- A record below a key is flattened under its path. -/
theorem flatten_record (above key : String) (f : String × Document) (fs : Record) :
    flatten above [(key, .record (f :: fs))] = flatten (Path.join above key) (f :: fs) := by
  rw [flatten, leaves_singleton]
  rfl

/-- Every other value is kept under its path. -/
theorem flatten_leaf (h : v.isFilledRecord = false) (above key : String) :
    flatten above [(key, v)] = [(Path.join above key, v)] := by
  rw [flatten, leaves_singleton, leavesOf_leaf h]
  rfl

/-! ## Flat records -/

/-- A flat record: its keys are distinct, and no value is a record with fields. -/
structure IsFlattened (r : Record) : Prop where
  nodup_keys : (Fields.keys r).Nodup
  not_isFilledRecord : ∀ f ∈ r, f.2.isFilledRecord = false

theorem isFilledRecord_eq_false (h : ∀ f fs, v ≠ .record (f :: fs)) : v.isFilledRecord = false := by
  cases v with
  | record fs => cases fs with
    | nil => rfl
    | cons f fs => exact absurd rfl (h f fs)
  | _ => rfl

/-- No leaf is a record with fields. -/
theorem not_isFilledRecord_of_mem_leaves (above : String) (r : Record) :
    ∀ leaf ∈ leaves above r, leaf.2.isFilledRecord = false := by
  induction above, r using leaves.induct
    (motive_1 := fun path v => ∀ leaf ∈ leaves.leavesOf path v, leaf.2.isFilledRecord = false) with
  | case1 path f fs ih leaf hleaf => exact ih leaf hleaf
  | case2 path v hv leaf hleaf =>
    have hfilled : v.isFilledRecord = false := isFilledRecord_eq_false hv
    rw [leavesOf_leaf hfilled, List.mem_singleton] at hleaf
    exact hleaf ▸ hfilled
  | case3 above => simp [leaves]
  | case4 above k v rest ihv ihrest =>
    rw [leaves]
    exact List.forall_mem_append.mpr ⟨ihv, ihrest⟩

theorem isFlattened_flatten (above : String) (r : Record) : IsFlattened (flatten above r) where
  nodup_keys := Fields.nodup_keys_ofPairs _
  not_isFilledRecord :=
    Fields.forall_ofPairs (P := fun v : Document => v.isFilledRecord = false)
      (not_isFilledRecord_of_mem_leaves above r)

/-- Without records among its values a record is the list of its leaves. -/
theorem leaves_eq_self (h : ∀ f ∈ r, f.2.isFilledRecord = false) : leaves "" r = r := by
  induction r with
  | nil => rfl
  | cons f r ih =>
    obtain ⟨hf, hr⟩ := List.forall_mem_cons.mp h
    rw [leaves, leavesOf_leaf hf, ih hr, Path.join, if_pos rfl, List.singleton_append]

theorem IsFlattened.flatten_eq (h : IsFlattened r) : flatten "" r = r := by
  rw [flatten, leaves_eq_self h.not_isFilledRecord, Fields.ofPairs_of_nodup h.nodup_keys]

/-- Flat records are just those that flattening leaves as they are. -/
theorem flatten_eq_self_iff : flatten "" r = r ↔ IsFlattened r :=
  ⟨fun h => h ▸ isFlattened_flatten "" r, IsFlattened.flatten_eq⟩

/-- **Flattening is a projection.** A flattened record stays as it is when it is flattened once
more, it holds no record with fields, and a record with distinct keys is left as it is if and
only if it holds none. -/
theorem flatten_flatten (above : String) (r : Record) :
    flatten "" (flatten above r) = flatten above r ∧
      (∀ f ∈ flatten above r, f.2.isFilledRecord = false) ∧
      ∀ s : Record, (Fields.keys s).Nodup →
        (flatten "" s = s ↔ ∀ f ∈ s, f.2.isFilledRecord = false) := by
  have hflat := isFlattened_flatten above r
  refine ⟨hflat.flatten_eq, hflat.not_isFilledRecord, fun s hs => ?_⟩
  rw [flatten_eq_self_iff]
  exact ⟨IsFlattened.not_isFilledRecord, IsFlattened.mk hs⟩

/-- A record in which two leaves have one path, beside an array of records. -/
def crossing : Record :=
  [("a.b", .text "1"), ("a", .record [("b", .text "x"), ("c", .list [.record [("d", .null)]])])]

/-- The crossing record below a path, and a record with an empty record and a dotted key. -/
theorem flatten_flatten_crossing :
    flatten "" (flatten "p" crossing) = flatten "p" crossing ∧
      ("p.a.b", .text "x") ∈ flatten "p" crossing ∧
      (Value.text "x" : Document).isFilledRecord = false ∧
      (Fields.keys [("", .record []), ("a.b", (.list [] : Document))]).Nodup ∧
      flatten "" [("", .record []), ("a.b", .list [])] = [("", .record []), ("a.b", .list [])] := by
  obtain ⟨hagain, hleaf, hflat⟩ := flatten_flatten "p" crossing
  have hmem : ("p.a.b", .text "x") ∈ flatten "p" crossing := List.mem_cons_self
  have hkeys : (Fields.keys [("", .record []), ("a.b", (.list [] : Document))]).Nodup := by decide
  refine ⟨hagain, hmem, hleaf _ hmem, hkeys, (hflat _ hkeys).mpr ?_⟩
  exact List.forall_mem_cons.mpr ⟨rfl, List.forall_mem_singleton.mpr rfl⟩

/-! ## The structure of a record -/

/-- The value of the last leaf with a path is the sample of the last entry with it. -/
theorem last?_visible (es : List Entry) (path : String) :
    Fields.last? path (visible es) =
      (es.filter fun e => !e.inArray && e.path == path).getLast?.map Entry.sample := by
  have hfilter : (es.filter fun e => !e.inArray && e.path == path) =
      es.filter fun e => e.path == path && !e.inArray :=
    List.filter_congr fun e _ => Bool.and_comm _ _
  rw [Fields.last?, visible, List.filter_map, List.filter_filter, List.getLast?_map,
    Option.map_map, hfilter]
  rfl

/-- **The structure and the flattened form of a record have the same leaves.** The keys of the
flattened record are the paths of the entries outside of arrays, in the order in which they are
first seen. The value under a key is the sample of the last such entry with this path, and the
entry has the kind of the value. -/
theorem flatten_of_entries (h : entries above false r = .ok es) :
    Fields.keys (flatten above r) =
        ((es.filter fun e => !e.inArray).map Entry.path).eraseDups ∧
      ∀ path ∈ Fields.keys (flatten above r), ∃ e,
        (es.filter fun e => !e.inArray && e.path == path).getLast? = some e ∧
          Fields.get? path (flatten above r) = some e.sample ∧ Kind.of e.sample = .ok e.kind := by
  have hvisible : visible es = leaves above r := visible_entries h
  have hkeys : Fields.keys (flatten above r) =
      ((es.filter fun e => !e.inArray).map Entry.path).eraseDups := by
    rw [keys_flatten, ← hvisible, visible, Fields.keys, List.map_map]
    rfl
  refine ⟨hkeys, fun path hpath => ?_⟩
  -- Some entry outside of arrays has the path, so there is a last one.
  obtain ⟨e₀, he₀, rfl⟩ := List.mem_map.mp (List.mem_eraseDups.mp (hkeys ▸ hpath))
  obtain ⟨hmem₀, hout₀⟩ := List.mem_filter.mp he₀
  have hne : (es.filter fun e => !e.inArray && e.path == e₀.path) ≠ [] :=
    List.ne_nil_of_mem (List.mem_filter.mpr ⟨hmem₀, by simpa using hout₀⟩)
  obtain ⟨e, he⟩ : ∃ e, (es.filter fun e => !e.inArray && e.path == e₀.path).getLast? = some e :=
    ⟨_, List.getLast?_eq_some_getLast hne⟩
  refine ⟨e, he, ?_, ?_⟩
  · rw [flatten, Fields.get?_ofPairs, ← hvisible, last?_visible, he]
    rfl
  · exact (sound_of_mem_entries (by simp) h e
      (List.mem_filter.mp (List.mem_of_getLast? he)).1).kind_of_sample

/-- Of the two entries with one path the later one gives the value. -/
theorem flatten_of_entries_crossing :
    ∃ es, entries "" false crossing = .ok es ∧ "a.b" ∈ Fields.keys (flatten "" crossing) ∧
      Fields.get? "a.b" (flatten "" crossing) = some (.text "x") ∧ ∃ e,
        (es.filter fun e => !e.inArray && e.path == "a.b").getLast? = some e ∧
          Fields.get? "a.b" (flatten "" crossing) = some e.sample ∧
          Kind.of e.sample = .ok e.kind := by
  obtain ⟨es, hes⟩ : ∃ es, entries "" false crossing = .ok es := ⟨_, rfl⟩
  have hmem : "a.b" ∈ Fields.keys (flatten "" crossing) := List.mem_cons_self
  exact ⟨es, hes, hmem, rfl, (flatten_of_entries hes).2 "a.b" hmem⟩

end Assay.Record
