import Assay.Proofs.Sequence
import Assay.Value.Fields
import Assay.Value.Shown

/-!
# Values that have no text

A value is shown with all of its parts, so that one integer of more than `digitLimit` digits is
enough to leave it without a text, wherever it stands: as an item of a list, as a key or as the
value of a field.

## Main definitions

* `Setting.Unshowable` — a value has no text
* `Setting.IsCommon`, `Setting.HoldsLong` — common values, and those with an integer that is too
  long

## Main results

* `unshowable_iff` — which common values have no text
* `plain_eq_error_iff`, `eq_integerTooLong_of_plain` — values that stand alone
-/

namespace Assay.Setting

/-- A value has no text. -/
def Unshowable (v : Setting) : Prop := ∃ f, v.quoted = .error f

/-- A value whose leaves are of common kinds. -/
inductive IsCommon : Setting → Prop where
  | null : IsCommon .null
  | bool (b : Bool) : IsCommon (.bool b)
  | int (n : Int) : IsCommon (.int n)
  | float (x : Float) : IsCommon (.float x)
  | text (s : String) : IsCommon (.text s)
  | list {items : List Setting} (h : ∀ v ∈ items, IsCommon v) : IsCommon (.list items)
  | record {fields : Fields Key Setting} (h : ∀ f ∈ fields, IsCommon f.2) :
    IsCommon (.record fields)

/-- An integer has more than `digitLimit` digits. -/
def IsLong (n : Int) : Prop := 10 ^ digitLimit ≤ n.natAbs

/-- An integer that is too long stands in a value: as itself, in an item, as a key or in the value
of a field. -/
inductive HoldsLong : Setting → Prop where
  | int {n : Int} (h : IsLong n) : HoldsLong (.int n)
  | item {items : List Setting} {v : Setting} (hv : v ∈ items) (h : HoldsLong v) :
    HoldsLong (.list items)
  | key {fields : Fields Key Setting} {n : Int} {v : Setting} (hf : (.int n, v) ∈ fields)
    (h : IsLong n) : HoldsLong (.record fields)
  | field {fields : Fields Key Setting} {k : Key} {v : Setting} (hf : (k, v) ∈ fields)
    (h : HoldsLong v) : HoldsLong (.record fields)

theorem intText_eq_error_iff {n : Int} : (∃ f, Number.intText n = .error f) ↔ IsLong n := by
  rw [Number.intText, IsLong]
  split
  · next h => simp [Nat.not_le.mpr h]
  · next h => simp [Nat.not_lt.mp h]

theorem keyQuoted_eq_error_iff {k : Key} :
    (∃ f, k.quoted = .error f) ↔ ∃ n, k = .int n ∧ IsLong n := by
  cases k with
  | int n =>
    rw [Key.quoted, intText_eq_error_iff]
    simp
  | _ => simp [Key.quoted]

theorem holdsLong_list_iff {items : List Setting} :
    HoldsLong (.list items) ↔ ∃ v ∈ items, HoldsLong v := by
  constructor
  · intro h
    cases h with
    | item hv h => exact ⟨_, hv, h⟩
  · rintro ⟨v, hv, h⟩
    exact .item hv h

theorem holdsLong_record_iff {fields : Fields Key Setting} :
    HoldsLong (.record fields) ↔
      ∃ f ∈ fields, (∃ n, f.1 = .int n ∧ IsLong n) ∨ HoldsLong f.2 := by
  constructor
  · intro h
    cases h with
    | key hf h => exact ⟨_, hf, .inl ⟨_, rfl, h⟩⟩
    | field hf h => exact ⟨_, hf, .inr h⟩
  · rintro ⟨⟨k, v⟩, hf, ⟨n, rfl, h⟩ | h⟩
    · exact .key hf h
    · exact .field hf h

/-- Whether a value has a text does not depend on what it stands in. -/
theorem quotedIn_eq_error_iff {shown : Nat} {v : Setting} (hv : IsCommon v) :
    (∃ f, v.quotedIn shown = .error f) ↔ HoldsLong v := by
  -- Items and fields are shown one by one, so that lists of them have statements of their own.
  induction shown, v using Value.quotedIn.induct
    (motive_1 := fun shown items => (∀ v ∈ items, IsCommon v) →
      ((∃ f, Value.quotedIn.quotedItems shown items = .error f) ↔ ∃ v ∈ items, HoldsLong v))
    (motive_3 := fun shown fields => (∀ f ∈ fields, IsCommon f.2) →
      ((∃ e, Value.quotedIn.quotedFields shown fields = .error e) ↔
        ∃ f ∈ fields, (∃ n, f.1 = .int n ∧ IsLong n) ∨ HoldsLong f.2)) with
  | case1 shown => exact iff_of_false (fun ⟨f, hf⟩ => by cases hf) fun h => by cases h
  | case2 shown b => exact iff_of_false (fun ⟨f, hf⟩ => by cases hf) fun h => by cases h
  | case3 shown n =>
    rw [Value.quotedIn, intText_eq_error_iff]
    exact ⟨.int, fun h => by cases h; assumption⟩
  | case4 shown x => exact iff_of_false (fun ⟨f, hf⟩ => by cases hf) fun h => by cases h
  | case5 shown s => exact iff_of_false (fun ⟨f, hf⟩ => by cases hf) fun h => by cases h
  | case6 shown items ih =>
    have hitems : ∀ v ∈ items, IsCommon v := by
      cases hv
      assumption
    rw [Value.quotedIn, holdsLong_list_iff, ← ih hitems]
    exact exists_congr fun f => bind_pure_eq_error_iff
  | case7 shown fields ih =>
    have hfields : ∀ f ∈ fields, IsCommon f.2 := by
      cases hv
      assumption
    rw [Value.quotedIn, holdsLong_record_iff, ← ih hfields]
    exact exists_congr fun f => bind_pure_eq_error_iff
  | case8 shown f => cases hv
  | case9 shown => simp [Value.quotedIn.quotedItems]
  | case10 shown v vs ihv ihvs hitems =>
    obtain ⟨hv, hvs⟩ := List.forall_mem_cons.mp hitems
    rw [Value.quotedIn.quotedItems, List.exists_mem_cons_iff, ← ihv hv, ← ihvs hvs]
    exact exists_bind_eq_error_iff fun a => exists_congr fun f => bind_pure_eq_error_iff
  | case11 shown => simp [Value.quotedIn.quotedFields]
  | case12 shown k v fs ihv ihfs hfields =>
    obtain ⟨hv, hfs⟩ := List.forall_mem_cons.mp hfields
    rw [Value.quotedIn.quotedFields, List.exists_mem_cons_iff, ← ihv hv, ← ihfs hfs,
      ← keyQuoted_eq_error_iff, or_assoc]
    exact exists_bind_eq_error_iff fun a => exists_bind_eq_error_iff fun b =>
      exists_congr fun f => bind_pure_eq_error_iff

/-- A common value has no text just when an integer that is too long stands in it. -/
theorem unshowable_iff {v : Setting} (hv : IsCommon v) : Unshowable v ↔ HoldsLong v :=
  quotedIn_eq_error_iff hv

variable {f : Fault}

/-- A value has no text of its own just when it has none inside others. -/
theorem plain_eq_error_iff {v : Setting} : (∃ f, v.plain = .error f) ↔ Unshowable v := by
  rw [Unshowable]
  cases v with
  | text s => simp [Value.plain, Value.quoted, Value.quotedIn]
  | foreign l =>
    cases l with
    | datum d => simp [Value.plain, Value.quoted, Value.quotedIn, Foreign.plain, Foreign.quotedIn]
    | _ => exact Iff.rfl
  | _ => exact Iff.rfl

/-! ## Why a value has no text -/

theorem eq_integerTooLong_of_intText {n : Int} (h : Number.intText n = .error f) :
    f = .integerTooLong := by
  rw [Number.intText] at h
  split at h <;> cases h
  rfl

theorem eq_integerTooLong_of_keyQuoted {k : Key} (h : k.quoted = .error f) :
    f = .integerTooLong := by
  cases k with
  | int n => exact eq_integerTooLong_of_intText h
  | _ => cases h

theorem eq_integerTooLong_of_setText {members : List Key} (h : setText members = .error f) :
    f = .integerTooLong := by
  rcases bind_eq_error_iff.mp h with h | ⟨parts, -, h⟩
  · obtain ⟨k, -, hk⟩ := exists_of_mapM_eq_error h
    exact eq_integerTooLong_of_keyQuoted hk
  · cases h

theorem eq_integerTooLong_of_graphQuoted {g : Graph} {fuel : Nat} {around : List Nat} {i : Nat}
    (h : g.quoted fuel around i = .error f) : f = .integerTooLong := by
  induction fuel generalizing around i f with
  | zero => cases h
  | succ fuel ih =>
    rw [Graph.quoted] at h
    split at h
    · cases h
    · exact eq_integerTooLong_of_keyQuoted h
    · exact eq_integerTooLong_of_setText h
    · split at h
      · cases h
      · rw [bind_pure_eq_error_iff] at h
        obtain ⟨j, -, hj⟩ := exists_of_mapM_eq_error h
        exact ih hj
    · split at h
      · cases h
      · rw [bind_pure_eq_error_iff] at h
        obtain ⟨⟨k, j⟩, -, hj⟩ := exists_of_mapM_eq_error h
        rcases bind_eq_error_iff.mp hj with hk | ⟨shown, -, hj⟩
        · exact eq_integerTooLong_of_keyQuoted hk
        · exact ih (bind_pure_eq_error_iff.mp hj)
    · rcases bind_eq_error_iff.mp h with ha | ⟨shown, -, hb⟩
      · exact ih ha
      · exact ih (bind_pure_eq_error_iff.mp hb)

theorem eq_integerTooLong_of_foreignQuotedIn {shown : Nat} {l : Foreign}
    (h : l.quotedIn shown = .error f) : f = .integerTooLong := by
  cases l with
  | datum d => cases h
  | set members => exact eq_integerTooLong_of_setText h
  | pair p =>
    rcases bind_eq_error_iff.mp h with ha | ⟨text, -, hb⟩
    · exact eq_integerTooLong_of_graphQuoted ha
    · exact eq_integerTooLong_of_graphQuoted (bind_pure_eq_error_iff.mp hb)

/-- What leaves a value without a text is an integer that is too long. -/
theorem eq_integerTooLong_of_quotedIn {shown : Nat} {v : Setting}
    (h : v.quotedIn shown = .error f) : f = .integerTooLong := by
  induction shown, v using Value.quotedIn.induct
    (motive_1 := fun shown (items : List Setting) => ∀ f,
      Value.quotedIn.quotedItems shown items = .error f → f = .integerTooLong)
    (motive_3 := fun shown (fields : Fields Key Setting) => ∀ f,
      Value.quotedIn.quotedFields shown fields = .error f → f = .integerTooLong)
    generalizing f with
  | case3 shown n => exact eq_integerTooLong_of_intText h
  | case6 shown items ih =>
    rw [Value.quotedIn, bind_pure_eq_error_iff] at h
    exact ih _ h
  | case7 shown fields ih =>
    rw [Value.quotedIn, bind_pure_eq_error_iff] at h
    exact ih _ h
  | case8 shown l => exact eq_integerTooLong_of_foreignQuotedIn h
  | case10 shown v vs ihv ihvs f h =>
    rw [Value.quotedIn.quotedItems] at h
    rcases bind_eq_error_iff.mp h with hv | ⟨text, -, hvs⟩
    · exact ihv hv
    · exact ihvs _ (bind_pure_eq_error_iff.mp hvs)
  | case12 shown k v fs ihv ihfs f h =>
    rw [Value.quotedIn.quotedFields] at h
    rcases bind_eq_error_iff.mp h with hk | ⟨key, -, h⟩
    · exact eq_integerTooLong_of_keyQuoted hk
    · rcases bind_eq_error_iff.mp h with hv | ⟨text, -, hfs⟩
      · exact ihv hv
      · exact ihfs _ (bind_pure_eq_error_iff.mp hfs)
  | case9 shown f h => cases h
  | case11 shown f h => cases h
  | _ => cases h

theorem eq_integerTooLong_of_plain {v : Setting} (h : v.plain = .error f) :
    f = .integerTooLong := by
  cases v with
  | text s => cases h
  | foreign l =>
    have hquoted (hl : l.quotedIn 0 = .error f) : f = .integerTooLong :=
      eq_integerTooLong_of_foreignQuotedIn hl
    cases l with
    | datum d => cases h
    | _ => exact hquoted h
  | _ => exact eq_integerTooLong_of_quotedIn h

end Assay.Setting
