import Mathlib.Algebra.GroupWithZero.Nat
import Assay.Config.Basic
import Assay.Value.Fields

/-!
# The limits on the shape of a value

The check of a value from a file is a walk through it that counts fields and items as it goes and
ends at the first limit that is exceeded. What it decides depends neither on the walk nor on its
order: a value passes when none of its parts stands too deep, when all lists and records together
are not too long, and when no text and no key is. An error names a limit that the value exceeds.

## Main definitions

* `Value.parts` — the parts of a value, with the number of lists and records around each
* `Config.IsWithinLimits` — a value keeps to the limits
* `Config.Exceeds` — a value exceeds the limit that an error names

## Main results

* `settles_checkFrom` — what the walk decides from any place on
* `checkShape_eq_ok_iff`, `exceeds_of_checkShape` — what passes, and what an error says
* `checkShape_decides` — the check is exact
-/

namespace Assay

/-! ## Parts of values -/

namespace Value

variable {κ : Type}

/-- The parts of a value that stands within `depth` lists and records, itself first, each with the
number of lists and records around it. -/
def partsAt (depth : Nat) : Value κ → List (Nat × Value κ)
  | list items => (depth, list items) :: partsOfItems (depth + 1) items
  | record fields => (depth, record fields) :: partsOfFields (depth + 1) fields
  | v => [(depth, v)]
where
  /-- The parts of the items of a list. -/
  partsOfItems (depth : Nat) : List (Value κ) → List (Nat × Value κ)
    | [] => []
    | v :: vs => partsAt depth v ++ partsOfItems depth vs
  /-- The parts of the values of fields. -/
  partsOfFields (depth : Nat) : List (κ × Value κ) → List (Nat × Value κ)
    | [] => []
    | (_, v) :: fs => partsAt depth v ++ partsOfFields depth fs

/-- The parts of a value, itself first, each with the number of lists and records around it. -/
def parts (v : Value κ) : List (Nat × Value κ) := v.partsAt 0

/-- How many items or fields a value has of its own. -/
def width : Value κ → Nat
  | list items => items.length
  | record fields => fields.length
  | _ => 0

/-- How many items and fields several values have of their own. -/
def widths (ps : List (Nat × Value κ)) : Nat := (ps.map fun p => p.2.width).sum

@[simp] theorem widths_cons (p : Nat × Value κ) (ps : List (Nat × Value κ)) :
    widths (p :: ps) = p.2.width + widths ps := by
  simp [widths]

@[simp] theorem widths_append (ps qs : List (Nat × Value κ)) :
    widths (ps ++ qs) = widths ps + widths qs := by
  simp [widths]

/-- Only a record has fields. -/
theorem eq_record_of_mem_fields {v : Value κ} {f : κ × Value κ} (h : f ∈ v.fields) :
    v = .record v.fields := by
  cases v with
  | record fs => rfl
  | _ => exact absurd h List.not_mem_nil

end Value

namespace Config

open Value

/-! ## Limits -/

/-- A key that is a text is not too long. -/
def IsShortKey (k : Key) : Prop := ∀ s, k = .text s → s.length ≤ maxKeyLength

/-- A part stands not too deep, and neither it nor its keys are too long. -/
structure IsSmall (p : Nat × Setting) : Prop where
  depth : p.1 ≤ maxDepth
  text : ∀ s, p.2 = .text s → s.length ≤ maxTextLength
  keys : ∀ f ∈ p.2.fields, IsShortKey f.1

/-- A value keeps to the limits: no part stands within more lists and records than are allowed, the
sizes of all lists and records add up to no more than is allowed, and no text and no key that is a
text is too long. -/
structure IsWithinLimits (v : Setting) : Prop where
  depth : ∀ p ∈ v.parts, p.1 ≤ maxDepth
  size : widths v.parts ≤ maxKeys
  texts : ∀ d s, (d, .text s) ∈ v.parts → s.length ≤ maxTextLength
  keys : ∀ d fs, (d, .record fs) ∈ v.parts → ∀ s x, (.text s, x) ∈ fs → s.length ≤ maxKeyLength

/-- Parts, with `total` fields and items before them and further keys, exceed the limit that an
error names. -/
def ExceedsFrom (total : Nat) (ks : List Key) (ps : List (Nat × Setting)) : ConfigError → Prop
  | .tooDeep => ∃ p ∈ ps, maxDepth < p.1
  | .tooManyKeys => maxKeys < total + widths ps
  | .textTooLong s => (∃ d, (d, .text s) ∈ ps) ∧ maxTextLength < s.length
  | .keyTooLong s =>
    (.text s ∈ ks ∨ ∃ p ∈ ps, .text s ∈ p.2.fields.map Prod.fst) ∧ maxKeyLength < s.length
  | _ => False

/-- A value exceeds the limit that an error names. -/
def Exceeds (v : Setting) (e : ConfigError) : Prop := ExceedsFrom 0 [] v.parts e

/-! ## The walk -/

/-- What a walk decides about parts and further keys, with `total` fields and items before them: it
counts on and finds nothing too long or too deep, or its error names a limit that is exceeded. -/
def Settles (total : Nat) (ks : List Key) (ps : List (Nat × Setting)) :
    Except ConfigError Nat → Prop
  | .ok n => n = total + widths ps ∧ n ≤ maxKeys ∧ (∀ k ∈ ks, IsShortKey k) ∧ ∀ p ∈ ps, IsSmall p
  | .error e => ExceedsFrom total ks ps e

variable {total depth : Nat} {ks ks' : List Key} {ps qs : List (Nat × Setting)} {e : ConfigError}
  {v : Setting}

/-- A limit that is exceeded by some parts and keys is exceeded by more of them. -/
theorem ExceedsFrom.mono {total' : Nat} (h : ExceedsFrom total ks ps e)
    (hks : ∀ k ∈ ks, k ∈ ks' ∨ ∃ p ∈ qs, k ∈ p.2.fields.map Prod.fst) (hps : ps ⊆ qs)
    (hwidths : total + widths ps ≤ total' + widths qs) : ExceedsFrom total' ks' qs e := by
  cases e with
  | tooDeep =>
    obtain ⟨p, hp, hdepth⟩ := h
    exact ⟨p, hps hp, hdepth⟩
  | tooManyKeys => exact Nat.lt_of_lt_of_le h hwidths
  | textTooLong s =>
    obtain ⟨⟨d, hd⟩, hlong⟩ := h
    exact ⟨⟨d, hps hd⟩, hlong⟩
  | keyTooLong s =>
    obtain ⟨hs | ⟨p, hp, hs⟩, hlong⟩ := h
    · exact ⟨hks _ hs, hlong⟩
    · exact ⟨.inr ⟨p, hps hp, hs⟩, hlong⟩
  | _ => exact h

/-- One walk behind another one goes on with its count. -/
theorem Settles.bind {x : Except ConfigError Nat} {g : Nat → Except ConfigError Nat}
    (hx : Settles total ks ps x) (hg : ∀ n ≤ maxKeys, Settles n ks' qs (g n)) :
    Settles total (ks ++ ks') (ps ++ qs) (x >>= g) := by
  -- Whichever of the two walks ends early, what it has exceeded is exceeded by both together.
  match x, hx with
  | .error e, hx =>
    refine ExceedsFrom.mono hx (fun k hk => .inl (List.mem_append_left _ hk))
      (List.subset_append_left _ _) ?_
    rw [widths_append]
    omega
  | .ok n, ⟨hn, hmax, hks, hps⟩ =>
    have hrest := hg n hmax
    change Settles total _ _ (g n)
    match g n, hrest with
    | .error e, hrest =>
      refine ExceedsFrom.mono hrest (fun k hk => .inl (List.mem_append_right _ hk))
        (List.subset_append_right _ _) ?_
      rw [widths_append]
      omega
    | .ok m, ⟨hm, hmax', hks', hqs⟩ =>
      refine ⟨?_, hmax', List.forall_mem_append.mpr ⟨hks, hks'⟩,
        List.forall_mem_append.mpr ⟨hps, hqs⟩⟩
      rw [hm, hn, widths_append, Nat.add_assoc]

/-- A list or record is counted before its items and fields. -/
theorem settles_container {rest : Except ConfigError Nat} (htext : ∀ s, v ≠ .text s)
    (hrest : total + v.width ≤ maxKeys →
      Settles (total + v.width) (v.fields.map Prod.fst) ps rest) :
    Settles total [] ((depth, v) :: ps)
      (if maxDepth < depth then .error .tooDeep
       else if maxKeys < total + v.width then .error .tooManyKeys
       else rest) := by
  have hwidths : total + widths ((depth, v) :: ps) = total + v.width + widths ps := by
    rw [widths_cons, Nat.add_assoc]
  -- The items and fields of `v` itself are in the count already when the rest is walked through.
  split
  · next hdepth => exact ⟨_, List.mem_cons_self, hdepth⟩
  · next hdepth =>
    split
    · next hsize =>
      change maxKeys < total + widths _
      omega
    · next hsize =>
      match rest, hrest (Nat.le_of_not_lt hsize) with
      | .error e, h =>
        exact ExceedsFrom.mono h (fun k hk => .inr ⟨_, List.mem_cons_self, hk⟩)
          (List.subset_cons_self _ _) (Nat.le_of_eq hwidths.symm)
      | .ok n, ⟨hn, hmax, hks, hps⟩ =>
        refine ⟨hn.trans hwidths.symm, hmax, by simp, List.forall_mem_cons.mpr
          ⟨⟨Nat.le_of_not_lt hdepth, fun s hs => absurd hs (htext s), fun f hf => ?_⟩, hps⟩⟩
        exact hks f.1 (List.mem_map_of_mem hf)

/-- Other values have no parts but themselves. -/
theorem settles_leaf (htotal : total ≤ maxKeys) (hwidth : v.width = 0) (hfields : v.fields = [])
    (htext : ∀ s, v = .text s → s.length ≤ maxTextLength) :
    Settles total [] [(depth, v)] (if maxDepth < depth then .error .tooDeep else .ok total) := by
  split
  · next hdepth => exact ⟨_, List.mem_cons_self, hdepth⟩
  · next hdepth =>
    refine ⟨by simp [widths, hwidth], htotal, by simp, List.forall_mem_singleton.mpr ?_⟩
    exact ⟨Nat.le_of_not_lt hdepth, htext, by simp [hfields]⟩

/-- The key of a field is looked at before its value. -/
theorem checkFields_cons (depth total : Nat) (k : Key) (v : Setting) (fs : Fields Key Setting) :
    checkFrom.checkFields depth total ((k, v) :: fs) =
      (match k with
        | .text s => if maxKeyLength < s.length then .error (.keyTooLong s) else .ok total
        | _ => .ok total) >>= fun n =>
        checkFrom depth n v >>= fun m => checkFrom.checkFields depth m fs := by
  cases k with
  | text s =>
    rw [checkFrom.checkFields]
    dsimp only
    split <;> rfl
  | _ => rfl

/-- A key that is a text may be too long. -/
theorem settles_key (htotal : total ≤ maxKeys) (k : Key) :
    Settles total [k] []
      (match k with
        | .text s => if maxKeyLength < s.length then .error (.keyTooLong s) else .ok total
        | _ => .ok total) := by
  have hok (h : IsShortKey k) : Settles total [k] [] (.ok total) :=
    ⟨rfl, htotal, List.forall_mem_singleton.mpr h, by simp⟩
  cases k with
  | text s =>
    dsimp only
    split
    · next hlong => exact ⟨.inl (List.mem_singleton.mpr rfl), hlong⟩
    · next hlong =>
      refine hok fun t ht => ?_
      cases ht
      exact Nat.le_of_not_lt hlong
  | _ => exact hok (by simp [IsShortKey])

/-- A text may be too long. -/
theorem settles_text (htotal : total ≤ maxKeys) (depth : Nat) (s : String) :
    Settles total [] [(depth, .text s)] (checkFrom depth total (.text s)) := by
  rw [checkFrom]
  by_cases hlong : maxTextLength < s.length
  · rw [if_pos hlong]
    split
    · next hdepth => exact ⟨_, List.mem_cons_self, hdepth⟩
    · exact ⟨⟨depth, List.mem_cons_self⟩, hlong⟩
  · rw [if_neg hlong]
    refine settles_leaf htotal rfl rfl fun t ht => ?_
    cases ht
    exact Nat.le_of_not_lt hlong

/-- **The walk** through a value counts its items and fields and looks at each of its parts. -/
theorem settles_checkFrom (depth : Nat) (v : Setting) (htotal : total ≤ maxKeys) :
    Settles total [] (v.partsAt depth) (checkFrom depth total v) := by
  -- Items and fields are walked through one by one, so that lists of them have walks of their own.
  induction depth, v using partsAt.induct
    (motive_1 := fun depth items => ∀ total ≤ maxKeys,
      Settles total [] (partsAt.partsOfItems depth items) (checkFrom.checkItems depth total items))
    (motive_3 := fun depth fields => ∀ total ≤ maxKeys,
      Settles total (fields.map Prod.fst) (partsAt.partsOfFields depth fields)
        (checkFrom.checkFields depth total fields)) generalizing total
  case case1 depth items ih =>
    rw [partsAt, checkFrom]
    exact settles_container (v := .list items) (by simp) fun hsize => ih _ hsize
  case case2 depth fields ih =>
    rw [partsAt, checkFrom]
    exact settles_container (v := .record fields) (by simp) fun hsize => ih _ hsize
  case case3 depth v hlist hrecord =>
    cases v with
    | list items => exact (hlist items rfl).elim
    | record fields => exact (hrecord fields rfl).elim
    | text s => exact settles_text htotal depth s
    | _ => exact settles_leaf htotal rfl rfl (by simp)
  case case4 depth total htotal => exact ⟨rfl, htotal, by simp, by simp [partsAt.partsOfItems]⟩
  case case5 depth v vs ihv ihvs total htotal =>
    rw [partsAt.partsOfItems, checkFrom.checkItems]
    exact (ihv htotal).bind ihvs
  case case6 depth total htotal => exact ⟨rfl, htotal, by simp, by simp [partsAt.partsOfFields]⟩
  case case7 depth k v fs ihv ihfs total htotal =>
    rw [partsAt.partsOfFields, checkFields_cons]
    exact (settles_key htotal k).bind fun n hn => (ihv hn).bind ihfs

/-! ## The check -/

/-- What the check decides, by the walk from the root. -/
theorem settles_parts (v : Setting) : Settles 0 [] v.parts (checkFrom 0 0 v) :=
  settles_checkFrom 0 v (Nat.zero_le _)

/-- The limits are kept exactly when all parts are small and not too wide together. -/
theorem isWithinLimits_iff :
    IsWithinLimits v ↔ widths v.parts ≤ maxKeys ∧ ∀ p ∈ v.parts, IsSmall p := by
  constructor
  · refine fun h => ⟨h.size, fun (d, w) hp => ⟨h.depth _ hp, ?_, ?_⟩⟩
    · rintro s rfl
      exact h.texts d s hp
    · rintro ⟨k, x⟩ hf s rfl
      exact h.keys d w.fields (eq_record_of_mem_fields hf ▸ hp) s x hf
  · rintro ⟨hsize, hsmall⟩
    exact ⟨fun p hp => (hsmall p hp).depth, hsize, fun d s hs => (hsmall _ hs).text s rfl,
      fun d fs hfs s x hx => (hsmall _ hfs).keys _ hx s rfl⟩

/-- A value that exceeds a limit does not keep to all of them. -/
theorem Exceeds.not_isWithinLimits (h : Exceeds v e) : ¬IsWithinLimits v := by
  intro hv
  cases e with
  | tooDeep =>
    obtain ⟨p, hp, hdepth⟩ := h
    exact Nat.not_le_of_lt hdepth (hv.depth p hp)
  | tooManyKeys =>
    rw [Exceeds, ExceedsFrom, Nat.zero_add] at h
    exact Nat.not_le_of_lt h hv.size
  | textTooLong s =>
    obtain ⟨⟨d, hs⟩, hlong⟩ := h
    exact Nat.not_le_of_lt hlong (hv.texts d s hs)
  | keyTooLong s =>
    obtain ⟨hs | ⟨p, hp, hs⟩, hlong⟩ := h
    · exact absurd hs List.not_mem_nil
    · obtain ⟨f, hf, hkey⟩ := List.mem_map.mp hs
      exact Nat.not_le_of_lt hlong (((isWithinLimits_iff.mp hv).2 p hp).keys f hf s hkey)
  | _ => exact h

/-- **An error** names a limit that the value exceeds. -/
theorem exceeds_of_checkShape (h : checkShape v = .error e) : Exceeds v e := by
  have hwalk := settles_parts v
  rw [checkShape] at h
  match checkFrom 0 0 v, hwalk, h with
  | .error _, hwalk, rfl => exact hwalk

/-- **What passes** keeps to all limits. -/
theorem checkShape_eq_ok_iff : checkShape v = .ok () ↔ IsWithinLimits v := by
  constructor
  · intro h
    have hwalk := settles_parts v
    rw [checkShape] at h
    match checkFrom 0 0 v, hwalk, h with
    | .ok n, ⟨hn, hmax, _, hsmall⟩, _ =>
      exact isWithinLimits_iff.mpr ⟨by omega, hsmall⟩
  · intro h
    match hcheck : checkShape v with
    | .ok () => rfl
    | .error e => exact absurd h (exceeds_of_checkShape hcheck).not_isWithinLimits

/-- Limits are exceeded under a name of their own. -/
theorem Exceeds.errorClass_eq (h : Exceeds v e) : e.errorClass = .configValue := by
  cases e with
  | tooDeep | tooManyKeys | textTooLong | keyTooLong => rfl
  | _ => exact h.elim

/-- **The check is exact**: a value passes when it keeps to all limits, and any other one is refused
as a bad value, with an error that names a limit it exceeds. -/
theorem checkShape_decides (v : Setting) :
    (checkShape v = .ok () ↔ IsWithinLimits v) ∧
      (¬IsWithinLimits v →
        ∃ e, checkShape v = .error e ∧ e.errorClass = .configValue ∧ Exceeds v e) := by
  refine ⟨checkShape_eq_ok_iff, fun h => ?_⟩
  match hcheck : checkShape v with
  | .ok () => exact absurd (checkShape_eq_ok_iff.mp hcheck) h
  | .error e =>
    have hexceeds := exceeds_of_checkShape hcheck
    exact ⟨e, rfl, hexceeds.errorClass_eq, hexceeds⟩

end Config

end Assay
