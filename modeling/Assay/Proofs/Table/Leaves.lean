import Assay.Proofs.FirstSeen
import Assay.Proofs.Sequence
import Assay.Table.Nested

/-!
# Entries and leaves

The structure of a record and its flattened form are two walks over the same tree. The
entries that do not lead through the items of an array are the leaves, in the same order
and under the same paths; the other entries stand below a path that ends in `[]`.

## Main definitions

* `Record.visible` — the paths and samples of the entries outside of arrays
* `Record.Sound` — what holds of every entry

## Main results

* `visible_entries` — they are the leaves
* `sound_of_mem_entries` — an entry has the kind of its sample, and inside of an array its
  path shows it
* `keys_flatten` — the keys of a flattened record
-/

namespace Assay.Record

variable {above path : String} {inArray : Bool} {r : Record} {es : List Entry} {e : Entry}

/-! ## The leaves among the entries -/

/-- The paths and samples of the entries that do not lead through the items of an array. -/
def visible (es : List Entry) : List (String × Document) :=
  (es.filter fun e => !e.inArray).map fun e => (e.path, e.sample)

theorem visible_cons (e : Entry) (es : List Entry) :
    visible (e :: es) = if e.inArray then visible es else (e.path, e.sample) :: visible es := by
  cases h : e.inArray <;> simp [visible, h]

theorem visible_append (es fs : List Entry) : visible (es ++ fs) = visible es ++ visible fs := by
  rw [visible, visible, visible, List.filter_append, List.map_append]

theorem visible_flatten (ess : List (List Entry)) : visible ess.flatten = ess.flatMap visible := by
  induction ess with
  | nil => rfl
  | cons es ess ih => rw [List.flatten_cons, visible_append, ih, List.flatMap_cons]

/-- Outside of arrays, the entries of a record are its leaves; inside there are none. -/
theorem visible_entries (h : entries above inArray r = .ok es) :
    visible es = if inArray then [] else leaves above r := by
  induction above, inArray, r using entries.induct
    (motive_1 := fun path inArray v => ∀ es, entries.entriesOf path inArray v = .ok es →
      visible es = if inArray then [] else leaves.leavesOf path v) generalizing es with
  | case1 path inArray f fs ih es h =>
    rw [leaves.leavesOf]
    exact ih h
  | case2 path inArray es h =>
    cases h
    cases inArray <;> rfl
  | case3 path inArray fs items ih es h =>
    obtain ⟨below, hbelow, h⟩ := bind_eq_ok_iff.mp h
    cases h
    -- What stands below the items counts as inside, whatever stands around the array.
    rw [visible_cons, ih hbelow]
    cases inArray <;> rfl
  | case4 path inArray first items hfirst es h =>
    rw [entries.entriesOf] at h
    · obtain ⟨kind, -, h⟩ := bind_eq_ok_iff.mp h
      cases h
      cases inArray <;> rfl
    · exact hfirst
  | case5 path inArray v h₁ h₂ h₃ h₄ es h =>
    rw [entries.entriesOf] at h
    · obtain ⟨kind, -, h⟩ := bind_eq_ok_iff.mp h
      cases h
      rw [leaves.leavesOf]
      · cases inArray <;> rfl
      · exact h₁
    all_goals assumption
  | case6 above inArray =>
    cases h
    cases inArray <;> rfl
  | case7 above inArray k v rest ihv ihrest =>
    obtain ⟨es₁, h₁, h⟩ := bind_eq_ok_iff.mp h
    obtain ⟨es₂, h₂, h⟩ := bind_eq_ok_iff.mp h
    cases h
    rw [visible_append, ihv _ h₁, ihrest h₂, leaves]
    cases inArray <;> rfl

/-! ## What an entry says -/

/-- What holds of every entry: its kind is that of its sample, and its path holds `[]` when
it leads through the items of an array. -/
structure Sound (e : Entry) : Prop where
  kind_of_sample : Kind.of e.sample = .ok e.kind
  items_infix : e.inArray = true → "[]".toList <:+: e.path.toList

theorem items_infix_items (path : String) : "[]".toList <:+: (Path.items path).toList := by
  rw [Path.items, String.toList_append]
  exact (List.suffix_append _ _).isInfix

theorem items_infix_join {above : String} (h : "[]".toList <:+: above.toList) (key : String) :
    "[]".toList <:+: (Path.join above key).toList := by
  have hne : above ≠ "" := by
    rintro rfl
    simp at h
  rw [Path.join, if_neg hne, String.toList_append, String.toList_append, List.append_assoc]
  exact h.trans (List.prefix_append _ _).isInfix

/-- Below a path that holds `[]`, or outside of arrays, every entry is sound. -/
theorem sound_of_mem_entries (habove : inArray = true → "[]".toList <:+: above.toList)
    (h : entries above inArray r = .ok es) : ∀ e ∈ es, Sound e := by
  induction above, inArray, r using entries.induct
    (motive_1 := fun path inArray v => (inArray = true → "[]".toList <:+: path.toList) →
      ∀ es, entries.entriesOf path inArray v = .ok es → ∀ e ∈ es, Sound e) generalizing es with
  | case1 path inArray f fs ih hpath es h e he => exact ih hpath h e he
  | case2 path inArray hpath es h e he =>
    cases h
    obtain rfl := List.mem_singleton.mp he
    exact ⟨rfl, hpath⟩
  | case3 path inArray fs items ih hpath es h e he =>
    obtain ⟨below, hbelow, h⟩ := bind_eq_ok_iff.mp h
    cases h
    rcases List.mem_cons.mp he with rfl | he
    · exact ⟨rfl, hpath⟩
    · -- Below the items the path ends in `[]` from here on.
      exact ih (fun _ => items_infix_items path) hbelow e he
  | case4 path inArray first items hfirst hpath es h e he =>
    rw [entries.entriesOf] at h
    · obtain ⟨kind, -, h⟩ := bind_eq_ok_iff.mp h
      cases h
      obtain rfl := List.mem_singleton.mp he
      exact ⟨rfl, hpath⟩
    · exact hfirst
  | case5 path inArray v h₁ h₂ h₃ h₄ hpath es h e he =>
    rw [entries.entriesOf] at h
    · obtain ⟨kind, hkind, h⟩ := bind_eq_ok_iff.mp h
      cases h
      obtain rfl := List.mem_singleton.mp he
      exact ⟨hkind, hpath⟩
    all_goals assumption
  | case6 above inArray =>
    cases h
    simp
  | case7 above inArray k v rest ihv ihrest =>
    obtain ⟨es₁, h₁, h⟩ := bind_eq_ok_iff.mp h
    obtain ⟨es₂, h₂, h⟩ := bind_eq_ok_iff.mp h
    cases h
    intro e he
    rcases List.mem_append.mp he with he | he
    · exact ihv (fun hin => items_infix_join (habove hin) k) _ h₁ e he
    · exact ihrest habove h₂ e he

/-- The keys of a flattened record are the paths of its leaves, each where it is first
seen. -/
theorem keys_flatten (above : String) (r : Record) :
    Fields.keys (flatten above r) = (Fields.keys (leaves above r)).eraseDups :=
  Fields.keys_ofPairs _

end Assay.Record
