import Assay.Proofs.Json.Reading
import Assay.Proofs.Table.Flattening
import Assay.Proofs.Text.Pieces
import Mathlib.Data.List.Nodup

/-!
# Positions of leaves

A leaf of a record stands at the end of a row of keys, which is its position, and no two leaves
have one position. The path of a leaf forgets a part of it: it is the text of the keys with dots
between them, so that keys which hold dots can lead to the path of another leaf. Of the leaves
with one path only the last one is kept when a record is flattened. A record loses no leaf just
when its leaves have distinct paths, and this is so if no key on the way to a leaf holds a dot
and none at the top is empty.

## Main definitions

* `Record.positions` — the leaves of a record with their positions
* `Document.at?` — the value at the end of a row of keys
* `Document.IsKeyed` — the records around the leaves have distinct keys
* `Path.below` — the path of a row of keys

## Main results

* `Document.isKeyed_of_isPlain` — documents that have been read are keyed
* `mem_positions_iff`, `nodup_positions` — what positions are, and that they are distinct
* `leaves_eq_map_positions` — paths come from positions
* `below_eq_intercalate` — the path of a row of keys as a text
* `flatten_keeps_leaves` — which leaves are kept
-/

namespace Assay

/-! ## Paths of rows of keys -/

namespace Path

/-- The path of a row of keys below another path. -/
def below (above : String) (keys : List String) : String := keys.foldl join above

variable {k : String} {ks ls : List String}

theorem below_cons (above k : String) (ks : List String) :
    below above (k :: ks) = below (join above k) ks := rfl

/-- Behind a key that is not empty, the keys stand with dots between them. -/
theorem below_eq_intercalate (hk : k ≠ "") (ks : List String) :
    below "" (k :: ks) = ".".intercalate (k :: ks) := by
  rw [below_cons, join, if_pos rfl]
  induction ks generalizing k with
  | nil => rw [String.intercalate_singleton]; rfl
  | cons l ks ih =>
    have hjoined : k ++ "." ++ l ≠ "" := by
      rw [Ne, ← String.toList_inj]
      simp
    rw [below_cons, join, if_neg hk, ih hjoined, String.intercalate_cons_cons]
    cases ks with
    | nil => rw [String.intercalate_singleton, String.intercalate_singleton]
    | cons m ks =>
      rw [String.intercalate_cons_cons, String.intercalate_cons_cons]
      simp only [String.append_assoc]

/-- A piece without dots is uncut. -/
theorem isUncut_dot {p : List Char} (h : '.' ∉ p) : Text.IsUncut ['.'] p := by
  intro s r hs hsp hprefix
  obtain ⟨c, s, rfl⟩ := List.exists_cons_of_ne_nil hs
  have hc : '.' = c := (List.cons_prefix_cons.mp hprefix).1
  exact h (hsp.subset (hc ▸ List.mem_cons_self))

/-- Keys without dots are found again in the text. -/
theorem intercalate_dot_inj (hks : ks ≠ []) (hls : ls ≠ []) (hksdot : ∀ k ∈ ks, '.' ∉ k.toList)
    (hlsdot : ∀ k ∈ ls, '.' ∉ k.toList) (h : ".".intercalate ks = ".".intercalate ls) :
    ks = ls := by
  have hsplit {ks : List String} (hks : ks ≠ []) (hdot : ∀ k ∈ ks, '.' ∉ k.toList) :
      Text.splitOn ['.'] (".".intercalate ks).toList = ks.map String.toList := by
    rw [String.toList_intercalate, ← Text.joinWith_eq_intercalate]
    refine Text.splitOn_joinWith (by simp) (by simpa using hks) fun p hp => ?_
    obtain ⟨k, hk, rfl⟩ := List.mem_map.mp hp
    exact isUncut_dot (hdot k hk)
  have hlists : ks.map String.toList = ls.map String.toList := by
    rw [← hsplit hks hksdot, ← hsplit hls hlsdot, h]
  exact List.map_injective_iff.mpr (fun s t => String.toList_inj.mp) hlists

end Path

/-! ## Values at positions -/

/-- The value at the end of a row of keys. -/
def Document.at? : List String → Document → Option Document
  | [], v => some v
  | k :: ks, .record fields => (Fields.get? k fields).bind (Document.at? ks)
  | _ :: _, _ => none

/-- The records around the leaves of a value have distinct keys. -/
inductive Document.IsKeyed : Document → Prop where
  | leaf {v : Document} (h : v.isFilledRecord = false) : IsKeyed v
  | record {fields : Record} (hkeys : (Fields.keys fields).Nodup)
    (h : ∀ f ∈ fields, IsKeyed f.2) : IsKeyed (.record fields)

/-- Documents that have been read are keyed. -/
theorem Document.isKeyed_of_isPlain {v : Document} (h : Json.IsPlain v) : v.IsKeyed := by
  induction h with
  | record hkeys _ ih => exact .record hkeys ih
  | _ => exact .leaf rfl

namespace Record

variable {r : Record} {v : Document} {ks : List String}

/-- The leaves of a record with the keys that lead to them, in the order of the keys. -/
def positions : Record → List (List String × Document)
  | [] => []
  | (k, v) :: rest => ((positionsOf v).map fun p => (k :: p.1, p.2)) ++ positions rest
where
  /-- The leaves of a value with the keys that lead on to them. -/
  positionsOf : Document → List (List String × Document)
    | .record (f :: fs) => positions (f :: fs)
    | v => [([], v)]

theorem positionsOf_leaf (h : v.isFilledRecord = false) : positions.positionsOf v = [([], v)] := by
  rw [positions.positionsOf]
  rintro f fs rfl
  cases h

/-- A position begins with a key of the record. -/
theorem exists_key_of_mem_positions {p : List String × Document} (h : p ∈ positions r) :
    ∃ k ∈ Fields.keys r, ∃ ks, p.1 = k :: ks := by
  induction r with
  | nil => cases h
  | cons f r ih =>
    rcases List.mem_append.mp h with h | h
    · obtain ⟨q, -, rfl⟩ := List.mem_map.mp h
      exact ⟨f.1, List.mem_cons_self, q.1, rfl⟩
    · obtain ⟨k, hk, hks⟩ := ih h
      exact ⟨k, List.mem_cons_of_mem _ hk, hks⟩

/-- The path of a leaf is that of its position. -/
theorem leaves_eq_map_positions (above : String) (r : Record) :
    leaves above r = (positions r).map fun p => (Path.below above p.1, p.2) := by
  induction above, r using leaves.induct
    (motive_1 := fun path v => leaves.leavesOf path v =
      (positions.positionsOf v).map fun p => (Path.below path p.1, p.2)) with
  | case1 path f fs ih => exact ih
  | case2 path v hv =>
    have hfilled : v.isFilledRecord = false := isFilledRecord_eq_false hv
    rw [leavesOf_leaf hfilled, positionsOf_leaf hfilled]
    rfl
  | case3 above => rfl
  | case4 above k v rest ihv ihrest =>
    rw [leaves, positions, ihv, ihrest, List.map_append, List.map_map]
    rfl

/-! ## Leaves are found at their positions -/

theorem isKeyed_cons {f : String × Document} (h : Document.IsKeyed (.record (f :: r))) :
    f.1 ∉ Fields.keys r ∧ Document.IsKeyed f.2 ∧ Document.IsKeyed (.record r) := by
  cases h with
  | leaf h => cases h
  | record hkeys hall =>
    obtain ⟨hf, hr⟩ := List.nodup_cons.mp hkeys
    obtain ⟨hv, hvs⟩ := List.forall_mem_cons.mp hall
    exact ⟨hf, hv, .record hr hvs⟩

/-- No two leaves have one position. -/
theorem nodup_positions (h : Document.IsKeyed (.record r)) :
    ((positions r).map Prod.fst).Nodup := by
  induction r using positions.induct
    (motive_1 := fun v => Document.IsKeyed v → ((positions.positionsOf v).map Prod.fst).Nodup) with
  | case1 f fs ih h => exact ih h
  | case2 v hv h =>
    rw [positionsOf_leaf (isFilledRecord_eq_false hv)]
    exact List.nodup_singleton _
  | case3 => exact List.nodup_nil
  | case4 k v rest ihv ihrest =>
    obtain ⟨hk, hv, hrest⟩ := isKeyed_cons h
    rw [positions, List.map_append, List.map_map, List.nodup_append]
    refine ⟨?_, ihrest hrest, ?_⟩
    · rw [show Prod.fst ∘ (fun p : List String × Document => (k :: p.1, p.2)) =
        (k :: ·) ∘ Prod.fst from rfl, ← List.map_map]
      exact (ihv hv).map fun _ _ h => (List.cons.inj h).2
    · -- The other positions begin with other keys.
      rintro ks hks ls hls rfl
      obtain ⟨p, -, hp⟩ := List.mem_map.mp hks
      obtain ⟨q, hq, hqls⟩ := List.mem_map.mp hls
      obtain ⟨l, hl, ls, hls⟩ := exists_key_of_mem_positions hq
      have hkl : k = l := (List.cons.inj (hp.trans (hqls.symm.trans hls))).1
      exact hk (hkl ▸ hl)

/-- No key leads on from a leaf. -/
theorem at?_cons_leaf (h : v.isFilledRecord = false) (k : String) (ks : List String) :
    Document.at? (k :: ks) v = none := by
  cases v with
  | record fs => cases fs with
    | nil => rfl
    | cons f fs => cases h
  | _ => rfl

/-- The leaves of a record are the values at the ends of rows of keys, except for records
with fields. -/
theorem mem_positions_iff (h : Document.IsKeyed (.record r)) (ks : List String) (w : Document) :
    (ks, w) ∈ positions r ↔
      ks ≠ [] ∧ Document.at? ks (.record r) = some w ∧ w.isFilledRecord = false := by
  induction r using positions.induct
    (motive_1 := fun v => Document.IsKeyed v → ∀ ks, (ks, w) ∈ positions.positionsOf v ↔
      Document.at? ks v = some w ∧ w.isFilledRecord = false) generalizing ks with
  | case1 f fs ih h ks =>
    -- Below a key the row may end at once, but not at a record with fields.
    rw [positions.positionsOf, ih h]
    refine ⟨And.right, fun hw => ⟨?_, hw⟩⟩
    rintro rfl
    obtain rfl := Option.some.inj hw.1
    cases hw.2
  | case2 v hv h ks =>
    have hleaf : v.isFilledRecord = false := isFilledRecord_eq_false hv
    rw [positionsOf_leaf hleaf, List.mem_singleton, Prod.mk.injEq]
    cases ks with
    | nil =>
      rw [Document.at?, Option.some.injEq]
      constructor
      · rintro ⟨-, rfl⟩
        exact ⟨rfl, hleaf⟩
      · rintro ⟨rfl, -⟩
        exact ⟨rfl, rfl⟩
    | cons k ks => simp [at?_cons_leaf hleaf]
  | case3 =>
    cases ks <;> simp [positions, Document.at?]
  | case4 k v rest ihv ihrest =>
    obtain ⟨hk, hv, hrest⟩ := isKeyed_cons h
    rw [positions, List.mem_append, ihrest hrest]
    cases ks with
    | nil => simp
    | cons l ks =>
      -- The first field has the row just when it has its first key, and then no other field does.
      by_cases hl : l = k
      · subst hl
        simp [Document.at?, Fields.get?, Fields.get?_eq_none hk, ihv hv]
      · have hne : ¬ k = l := fun heq => hl heq.symm
        simp [Document.at?, Fields.get?, hne]

/-! ## Which leaves are kept -/

/-- The paths of the leaves of a record. -/
def leafPaths (r : Record) : List String := (positions r).map fun p => Path.below "" p.1

theorem keys_leaves (r : Record) : Fields.keys (leaves "" r) = leafPaths r := by
  rw [leaves_eq_map_positions, Fields.keys, List.map_map]
  rfl

/-- A leaf is lost just when its path comes again. -/
theorem length_flatten_eq_iff :
    (flatten "" r).length = (positions r).length ↔ (leafPaths r).Nodup := by
  have hflatten : (flatten "" r).length = (leafPaths r).eraseDups.length := by
    rw [← keys_leaves, ← keys_flatten, Fields.keys, List.length_map]
  have hpositions : (positions r).length = (leafPaths r).length := by
    rw [leafPaths, List.length_map]
  rw [hflatten, hpositions, length_eraseDups_eq_iff]

theorem flatten_eq_of_nodup (h : (leafPaths r).Nodup) :
    flatten "" r = (positions r).map fun p => (Path.below "" p.1, p.2) := by
  rw [flatten, Fields.ofPairs_of_nodup (by rwa [keys_leaves]), leaves_eq_map_positions]

/-- The value under a path is that of the last leaf with this path. -/
theorem get?_flatten (path : String) :
    Fields.get? path (flatten "" r) =
      ((positions r).filter fun p => Path.below "" p.1 == path).getLast?.map Prod.snd := by
  rw [flatten, Fields.get?_ofPairs, leaves_eq_map_positions, Fields.last?, List.filter_map,
    List.getLast?_map, Option.map_map]
  rfl

theorem path_of_mem_positions {p : List String × Document} (h : p ∈ positions r)
    (hhead : p.1.head? ≠ some "") : Path.below "" p.1 = ".".intercalate p.1 := by
  obtain ⟨k, -, ks, hp⟩ := exists_key_of_mem_positions h
  rw [hp] at hhead ⊢
  exact Path.below_eq_intercalate (fun hk => hhead (hk ▸ rfl)) ks

/-- Leaves have distinct paths if no key on the way holds a dot and none at the top is empty. -/
theorem nodup_leafPaths (h : Document.IsKeyed (.record r))
    (hkeys : ∀ p ∈ positions r, p.1.head? ≠ some "" ∧ ∀ k ∈ p.1, '.' ∉ k.toList) :
    (leafPaths r).Nodup := by
  have hpaths : leafPaths r = ((positions r).map Prod.fst).map (Path.below "") := by
    rw [leafPaths, List.map_map]
    rfl
  rw [hpaths]
  refine (nodup_positions h).map_on fun ks hks ls hls heq => ?_
  obtain ⟨p, hp, rfl⟩ := List.mem_map.mp hks
  obtain ⟨q, hq, rfl⟩ := List.mem_map.mp hls
  rw [path_of_mem_positions hp (hkeys p hp).1, path_of_mem_positions hq (hkeys q hq).1] at heq
  have hne {p : List String × Document} (hp : p ∈ positions r) : p.1 ≠ [] :=
    ((mem_positions_iff h p.1 p.2).mp hp).1
  exact Path.intercalate_dot_inj (hne hp) (hne hq) (hkeys p hp).2 (hkeys q hq).2 heq

/-- **Which leaves flattening keeps.** The leaves of a record stand at positions of their own:
at the ends of rows of keys, where there is no record with fields. A flattened record has one
entry for each path of a leaf, in the order in which the paths are first seen, with the last leaf
that has the path. It has one entry for each leaf, which keeps its value, if and only if the
leaves have distinct paths. Below a key that is not empty the path of a leaf is the text of its
keys with dots between them; so leaves have distinct paths if no key on the way to them holds a
dot and none at the top is empty. -/
theorem flatten_keeps_leaves (h : Document.IsKeyed (.record r)) :
    ((positions r).map Prod.fst).Nodup ∧
      (∀ ks v, (ks, v) ∈ positions r ↔
        ks ≠ [] ∧ Document.at? ks (.record r) = some v ∧ v.isFilledRecord = false) ∧
      Fields.keys (flatten "" r) = (leafPaths r).eraseDups ∧
      (∀ path, Fields.get? path (flatten "" r) =
        ((positions r).filter fun p => Path.below "" p.1 == path).getLast?.map Prod.snd) ∧
      ((flatten "" r).length = (positions r).length ↔ (leafPaths r).Nodup) ∧
      ((leafPaths r).Nodup →
        flatten "" r = (positions r).map fun p => (Path.below "" p.1, p.2)) ∧
      (∀ p ∈ positions r, p.1.head? ≠ some "" → Path.below "" p.1 = ".".intercalate p.1) ∧
      ((∀ p ∈ positions r, p.1.head? ≠ some "" ∧ ∀ k ∈ p.1, '.' ∉ k.toList) →
        (leafPaths r).Nodup) :=
  ⟨nodup_positions h, mem_positions_iff h,
    (keys_flatten "" r).trans (congrArg List.eraseDups (keys_leaves r)), get?_flatten,
    length_flatten_eq_iff, flatten_eq_of_nodup, fun _ => path_of_mem_positions, nodup_leafPaths h⟩

/-- A record without dots in its keys keeps all of its leaves, an empty key within it too. -/
theorem flatten_keeps_leaves_undotted :
    let r : Record := [("id", .int 1), ("user", .record [("", .text "x"), ("tags", .list [])])]
    Document.IsKeyed (.record r) ∧
      (["user", ""], .text "x") ∈ positions r ∧ ["user", ""].head? ≠ some "" ∧
      Path.below "" ["user", ""] = ".".intercalate ["user", ""] ∧
      (∀ p ∈ positions r, p.1.head? ≠ some "" ∧ ∀ k ∈ p.1, '.' ∉ k.toList) ∧
      (leafPaths r).Nodup ∧ flatten "" r = (positions r).map fun p => (Path.below "" p.1, p.2) := by
  intro r
  have hkeyed : Document.IsKeyed (.record r) := by
    refine .record (by decide) (List.forall_mem_cons.mpr
      ⟨.leaf rfl, List.forall_mem_singleton.mpr (.record (by decide) ?_)⟩)
    exact List.forall_mem_cons.mpr ⟨.leaf rfl, List.forall_mem_singleton.mpr (.leaf rfl)⟩
  have hundotted : ∀ p ∈ positions r, p.1.head? ≠ some "" ∧ ∀ k ∈ p.1, '.' ∉ k.toList := by
    decide +kernel
  have hmem : (["user", ""], .text "x") ∈ positions r :=
    List.mem_cons_of_mem _ List.mem_cons_self
  obtain ⟨-, -, -, -, -, heq, hpath, hnodup⟩ := flatten_keeps_leaves hkeyed
  exact ⟨hkeyed, hmem, (hundotted _ hmem).1, hpath _ hmem (hundotted _ hmem).1, hundotted,
    hnodup hundotted, heq (hnodup hundotted)⟩

/-- A dotted key leads to the path of another leaf, and one of the two leaves is lost. -/
theorem flatten_loses_leaf :
    let r : Record := [("a.b", .int 1), ("a", .record [("b", .int 2)])]
    Document.IsKeyed (.record r) ∧
      positions r = [(["a.b"], .int 1), (["a", "b"], .int 2)] ∧ ¬ (leafPaths r).Nodup ∧
      flatten "" r = [("a.b", .int 2)] := by
  refine ⟨.record (by decide) (List.forall_mem_cons.mpr ⟨.leaf rfl,
    List.forall_mem_singleton.mpr (.record (by decide) ?_)⟩), rfl, by decide +kernel, rfl⟩
  exact List.forall_mem_singleton.mpr (.leaf rfl)

end Record

end Assay
