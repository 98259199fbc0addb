import Mathlib.Data.List.Nodup
import Assay.Proofs.Usage.Tidy
import Assay.Proofs.Value.Insertion
import Assay.Usage.Given

/-!
# The tidy form of a list of usages

What is left when usages are tidied can be said without the way in which it is found: the first
usage of each identity, by lines, and on one line in the order in which the identities come up.
There is one such list only. For a usage is placed by its line and by the number of usages in
front of the first one of its identity, and no two of those that are left have one place.

What has been tidied may be put in front of more usages and tidied again: it comes to the same as
tidying all of them at once, since neither the first usage of an identity nor the order on one line
is changed by sorting what stands in front.

## Main definitions

* `Usage.placeOf` — how many usages stand in front of an identity
* `Usage.IsTidied` — a list is the tidy form of another one

## Main results

* `pairwise_inLineOrder_of_pairwise` — sorting by lines keeps an order on each line
* `isTidied_tidy`, `IsTidied.eq` — a list has a tidy form, and only one
* `distinctFrom_append`, `inLineOrder_inLineOrder_append` — usages behind others
* `tidy_tidy_append` — usages may be tidied before more of them come behind
-/

namespace Assay

namespace Usage

variable {u v w : Usage} {us vs ws : List Usage} {seen seen' : List (String × String × Int)}
  {i : String × String × Int}

/-! ## Places -/

/-- The number of usages in front of the first one of an identity. -/
def placeOf (us : List Usage) (i : String × String × Int) : Nat :=
  us.findIdx fun u => u.identity = i

theorem placeOf_cons_self (u : Usage) (us : List Usage) : placeOf (u :: us) u.identity = 0 := by
  simp [placeOf, List.findIdx_cons]

theorem placeOf_cons_of_ne (h : u.identity ≠ i) (us : List Usage) :
    placeOf (u :: us) i = placeOf us i + 1 := by
  simp [placeOf, List.findIdx_cons, h]

/-- One list has one first usage of an identity. -/
theorem IsFirstIn.unique (hu : u.IsFirstIn us) (hv : v.IsFirstIn us)
    (h : u.identity = v.identity) : u = v := by
  rw [IsFirstIn] at hu hv
  rw [h] at hu
  exact Option.some.inj (hu.symm.trans hv)

/-- What is kept stands in the order in which its identities come up. -/
theorem pairwise_placeOf_distinctFrom (seen : List (String × String × Int)) (us : List Usage) :
    (distinctFrom seen us).Pairwise fun u v => placeOf us u.identity < placeOf us v.identity := by
  induction us generalizing seen with
  | nil => exact .nil
  | cons w us ih =>
    -- The usage in front moves every other identity by one place.
    have hmove (seen : List (String × String × Int)) (hw : w.identity ∈ seen) :
        ∀ u ∈ distinctFrom seen us, placeOf (w :: us) u.identity = placeOf us u.identity + 1 := by
      intro u hu
      refine placeOf_cons_of_ne (fun h => ?_) us
      exact (mem_distinctFrom_iff.mp hu).1 (h ▸ hw)
    have hlater (seen : List (String × String × Int)) (hw : w.identity ∈ seen) :
        (distinctFrom seen us).Pairwise fun u v =>
          placeOf (w :: us) u.identity < placeOf (w :: us) v.identity := by
      refine (ih seen).imp_of_mem fun hu hv huv => ?_
      rw [hmove seen hw _ hu, hmove seen hw _ hv]
      exact Nat.succ_lt_succ huv
    rw [distinctFrom]
    by_cases hw : w.identity ∈ seen
    · rw [if_pos (List.contains_iff_mem.mpr hw)]
      exact hlater seen hw
    · rw [if_neg (by simpa using hw), List.pairwise_cons]
      refine ⟨fun u hu => ?_, hlater _ List.mem_cons_self⟩
      rw [placeOf_cons_self, hmove _ List.mem_cons_self u hu]
      exact Nat.succ_pos _

/-- Sorting by lines keeps an order that the usages of each line stand in. -/
theorem pairwise_inLineOrder_of_pairwise {R : Usage → Usage → Prop} (h : us.Pairwise R) :
    (inLineOrder us).Pairwise fun u v => u.line = v.line → R u v := by
  induction us with
  | nil => simp [inLineOrder]
  | cons u us ih =>
    obtain ⟨hu, hus⟩ := List.pairwise_cons.mp h
    obtain ⟨front, back, hcons, hsorted, hfront, -⟩ := exists_inLineOrder_cons u us
    have hmem {v : Usage} (hv : v ∈ front ++ back) : v ∈ us :=
      (perm_inLineOrder us).subset (hsorted ▸ hv)
    have hrest := ih hus
    rw [hsorted, List.pairwise_append] at hrest
    obtain ⟨hwithin, hbehind, hacross⟩ := hrest
    rw [hcons, List.pairwise_append, List.pairwise_cons]
    refine ⟨hwithin, ⟨fun v hv _ => hu v (hmem (List.mem_append_right _ hv)), hbehind⟩, ?_⟩
    intro v hv w hw heq
    rcases List.mem_cons.mp hw with rfl | hw
    · -- In front of the new usage there are lines before its own only.
      exact absurd heq (Int.ne_of_lt (hfront v hv))
    · exact hacross v hv w hw heq

/-! ## The tidy form -/

/-- A list is the tidy form of another one. -/
structure IsTidied (us vs : List Usage) : Prop where
  by_lines : vs.Pairwise fun u v => u.line ≤ v.line
  distinct : (vs.map identity).Nodup
  identities : ∀ i, i ∈ vs.map identity ↔ i ∈ us.map identity
  /-- Of each identity there is the first usage, with all that it says. -/
  first : ∀ u ∈ vs, u.IsFirstIn us
  /-- On one line usages stand in the order in which their identities come up. -/
  in_place : vs.Pairwise fun u v =>
    u.line = v.line → placeOf us u.identity < placeOf us v.identity

theorem isTidied_tidy (us : List Usage) : IsTidied us (tidy us) := by
  refine {
    by_lines := pairwise_tidy us
    distinct := nodup_tidy us
    identities := fun i => ?_
    first := fun u => mem_tidy_iff.mp
    in_place := pairwise_inLineOrder_of_pairwise (pairwise_placeOf_distinctFrom [] us) }
  simp only [List.mem_map, mem_tidy_iff]
  constructor
  · rintro ⟨u, hu, rfl⟩
    exact ⟨u, hu.mem, rfl⟩
  · rintro ⟨v, hv, rfl⟩
    exact exists_isFirstIn_of_mem hv

namespace IsTidied

/-- The tidy form has all usages that are the first of their identity. -/
theorem mem_iff (h : IsTidied us vs) : u ∈ vs ↔ u.IsFirstIn us := by
  refine ⟨h.first u, fun hu => ?_⟩
  obtain ⟨v, hv, hvu⟩ := List.mem_map.mp ((h.identities _).mpr (List.mem_map_of_mem hu.mem))
  rwa [hu.unique (h.first v hv) hvu.symm]

/-- The tidy form is ordered by lines, and by places on one line. -/
theorem pairwise_lt (h : IsTidied us vs) : vs.Pairwise fun u v =>
    u.line < v.line ∨ u.line = v.line ∧ placeOf us u.identity < placeOf us v.identity := by
  refine (h.by_lines.and h.in_place).imp fun {u v} ⟨hle, hplace⟩ => ?_
  rcases Int.lt_or_eq_of_le hle with hlt | heq
  · exact .inl hlt
  · exact .inr ⟨heq, hplace heq⟩

/-- A list has one tidy form. -/
theorem eq (hv : IsTidied us vs) (hw : IsTidied us ws) : vs = ws := by
  have hperm : vs.Perm ws :=
    (List.perm_ext_iff_of_nodup hv.distinct.of_map hw.distinct.of_map).mpr fun u => by
      rw [hv.mem_iff, hw.mem_iff]
  refine hperm.eq_of_pairwise (fun u v _ _ huv hvu => ?_) hv.pairwise_lt hw.pairwise_lt
  -- Neither of two usages can stand before the other.
  omega

end IsTidied

/-! ## Tidying again -/

/-- Only which identities have been seen matters, not in what order. -/
theorem distinctFrom_congr (h : ∀ i, i ∈ seen ↔ i ∈ seen') (us : List Usage) :
    distinctFrom seen us = distinctFrom seen' us := by
  induction us generalizing seen seen' with
  | nil => rfl
  | cons u us ih =>
    have hu : seen.contains u.identity = seen'.contains u.identity := by
      rw [Bool.eq_iff_iff, List.contains_iff_mem, List.contains_iff_mem, h]
    have hmore : ∀ i, i ∈ u.identity :: seen ↔ i ∈ u.identity :: seen' := fun i => by
      rw [List.mem_cons, List.mem_cons, h]
    rw [distinctFrom, distinctFrom, hu, ih h, ih hmore]

/-- Of usages behind others those are left whose identities do not come up in front of them. -/
theorem distinctFrom_append (seen : List (String × String × Int)) (us vs : List Usage) :
    distinctFrom seen (us ++ vs) =
      distinctFrom seen us ++ distinctFrom (us.map identity ++ seen) vs := by
  induction us generalizing seen with
  | nil => rfl
  | cons u us ih =>
    rw [List.cons_append, distinctFrom, distinctFrom, List.map_cons, List.cons_append]
    by_cases hu : u.identity ∈ seen
    · rw [if_pos (List.contains_iff_mem.mpr hu), if_pos (List.contains_iff_mem.mpr hu), ih]
      refine congrArg _ (distinctFrom_congr (fun i => ?_) vs)
      simp only [List.mem_append, List.mem_cons]
      refine ⟨.inr, ?_⟩
      rintro (rfl | h)
      · exact .inr hu
      · exact h
    · rw [if_neg (by simpa using hu), if_neg (by simpa using hu), ih, List.cons_append]
      refine congrArg _ (congrArg _ (distinctFrom_congr (fun i => ?_) vs))
      simp only [List.mem_append, List.mem_cons]
      exact or_left_comm

/-- Usages of one identity each are left as they are. -/
theorem distinctFrom_of_nodup (hus : (us.map identity).Nodup)
    (h : ∀ u ∈ us, u.identity ∉ seen) : distinctFrom seen us = us := by
  induction us generalizing seen with
  | nil => rfl
  | cons u us ih =>
    obtain ⟨hu, hrest⟩ := List.nodup_cons.mp hus
    obtain ⟨hunseen, h⟩ := List.forall_mem_cons.mp h
    rw [distinctFrom, if_neg (by simpa using hunseen), ih hrest]
    intro v hv hmem
    rcases List.mem_cons.mp hmem with heq | hmem
    · exact hu (heq ▸ List.mem_map_of_mem hv)
    · exact h v hv hmem

theorem isByRank_inLineOrder (us : List Usage) :
    Ordered.IsByRank line us (inLineOrder us) :=
  Ordered.isByRank_mergeSort line us

/-- Usages may be put in order before more of them come behind. -/
theorem inLineOrder_inLineOrder_append (us vs : List Usage) :
    inLineOrder (inLineOrder us ++ vs) = inLineOrder (us ++ vs) := by
  have hsorted := isByRank_inLineOrder (inLineOrder us ++ vs)
  refine Ordered.IsByRank.eq ⟨hsorted.sorted, fun n => ?_⟩ (isByRank_inLineOrder (us ++ vs))
  rw [hsorted.same, List.filter_append, List.filter_append, (isByRank_inLineOrder us).same]

/-- Usages may be tidied before more of them come behind. -/
theorem tidy_tidy_append (us vs : List Usage) : tidy (tidy us ++ vs) = tidy (us ++ vs) := by
  have hfront : distinctFrom [] (tidy us) = inLineOrder (distinct us) :=
    distinctFrom_of_nodup (nodup_tidy us) fun _ _ => List.not_mem_nil
  have hbehind : distinctFrom ((tidy us).map identity ++ []) vs =
      distinctFrom (us.map identity ++ []) vs := by
    refine distinctFrom_congr (fun i => ?_) vs
    rw [List.append_nil, List.append_nil]
    exact (isTidied_tidy us).identities i
  calc tidy (tidy us ++ vs)
    _ = inLineOrder (inLineOrder (distinct us) ++ distinctFrom (us.map identity ++ []) vs) := by
        rw [tidy, distinct, distinctFrom_append, hfront, hbehind]
    _ = inLineOrder (distinct us ++ distinctFrom (us.map identity ++ []) vs) :=
        inLineOrder_inLineOrder_append _ _
    _ = tidy (us ++ vs) := by
        rw [tidy, distinct, distinct, distinctFrom_append]

end Usage

/-! ## Usages that are handed in -/

namespace GivenUsage

variable {us vs : List Usage}

/-- What makes two usages the same, as it is compared when they are handed in. -/
def keysOf (i : String × String × Int) : Key × Key × Key := (.text i.1, .text i.2.1, .int i.2.2)

theorem identity_given (u : Usage) : u.given.identity = .ok (keysOf u.identity) := rfl

theorem contains_map_keysOf (seen : List (String × String × Int)) (i : String × String × Int) :
    (seen.map keysOf).contains (keysOf i) = seen.contains i := by
  induction seen with
  | nil => rfl
  | cons j seen ih =>
    have hkeys : (keysOf i == keysOf j) = (i == j) := rfl
    rw [List.map_cons, List.contains_cons, List.contains_cons, ih, hkeys]

/-- A usage behind its line. -/
def lined (u : Usage) : Key × GivenUsage := (.int u.line, u.given)

/-- Usages of texts and whole numbers are compared as found ones are. -/
theorem distinctFrom_map_given (seen : List (String × String × Int)) (us : List Usage) :
    distinctFrom (seen.map keysOf) (us.map Usage.given) =
      .ok ((Usage.distinctFrom seen us).map lined) := by
  induction us generalizing seen with
  | nil => rfl
  | cons u us ih =>
    rw [List.map_cons, distinctFrom, identity_given, Usage.distinctFrom]
    simp only [bind, Except.bind, contains_map_keysOf]
    by_cases hu : seen.contains u.identity = true
    · rw [if_pos hu, if_pos hu, ih seen]
    · rw [if_neg hu, if_neg hu, ← List.map_cons, ih]
      rfl

/-- The line that stands in front of a usage. -/
def lineOf (p : Key × GivenUsage) : Int :=
  match p.1 with
  | .int n => n
  | _ => 0

/-- Usages of texts and whole numbers are tidied as found ones are. -/
theorem tidy_map_given (us : List Usage) :
    tidy (us.map Usage.given) = .ok ((Usage.tidy us).map Usage.given) := by
  have hfound : distinctFrom [] (us.map Usage.given) = .ok ((Usage.distinct us).map lined) :=
    distinctFrom_map_given [] us
  have hbefore : ∀ p ∈ (Usage.distinct us).map lined, ∀ q ∈ (Usage.distinct us).map lined,
      p.1.before q.1 = .ok (decide (lineOf p < lineOf q)) := by
    intro p hp q hq
    obtain ⟨u, -, rfl⟩ := List.mem_map.mp hp
    obtain ⟨v, -, rfl⟩ := List.mem_map.mp hq
    rfl
  have hsorted : ((Usage.distinct us).map lined).mergeSort (fun p q => lineOf p ≤ lineOf q) =
      (Usage.tidy us).map lined := by
    rw [Usage.tidy, Usage.inLineOrder]
    exact (List.map_mergeSort (f := lined) (r := fun u v => u.line ≤ v.line)
      (s := fun p q => lineOf p ≤ lineOf q) fun _ _ _ _ => rfl).symm
  rw [tidy, hfound]
  simp only [bind, Except.bind, Ordered.byInsertion_eq_mergeSort hbefore, hsorted, List.map_map]
  rfl

theorem given_injective : Function.Injective Usage.given := by
  rintro ⟨⟩ ⟨⟩ h
  cases h
  rfl

end GivenUsage

/-! ## Exactly the tidy form -/

/-- **Tidying.** Found usages, and usages that are handed in, are tidied just to their tidy form:
lines that do not decrease, one usage of each identity, which is the first one unchanged, and on
one line the order in which identities come up. -/
theorem Usage.tidies_iff_isTidied (us vs : List Usage) :
    (Usage.tidy us = vs ↔ IsTidied us vs) ∧
      (GivenUsage.tidy (us.map Usage.given) = .ok (vs.map Usage.given) ↔ IsTidied us vs) := by
  have hfound : Usage.tidy us = vs ↔ IsTidied us vs := by
    constructor
    · rintro rfl
      exact isTidied_tidy us
    · exact (isTidied_tidy us).eq
  refine ⟨hfound, ?_⟩
  rw [GivenUsage.tidy_map_given, Except.ok.injEq,
    (List.map_injective_iff.mpr GivenUsage.given_injective).eq_iff, hfound]

/-- **Tidying absorbs earlier tidying.** Found usages, and usages that are handed in, come to the
same whether or not those in front have been tidied before; what is tidy stays as it is. -/
theorem Usage.tidy_absorbs_tidy (us vs : List Usage) :
    Usage.tidy (Usage.tidy us ++ vs) = Usage.tidy (us ++ vs) ∧
      Usage.tidy (Usage.tidy us) = Usage.tidy us ∧
      ∃ ws zs, GivenUsage.tidy (us.map Usage.given) = .ok ws ∧
        GivenUsage.tidy (ws ++ vs.map Usage.given) = .ok zs ∧
        GivenUsage.tidy (us.map Usage.given ++ vs.map Usage.given) = .ok zs := by
  have hagain : Usage.tidy (Usage.tidy us) = Usage.tidy us := by
    simpa using Usage.tidy_tidy_append us []
  refine ⟨Usage.tidy_tidy_append us vs, hagain, (Usage.tidy us).map Usage.given,
    (Usage.tidy (us ++ vs)).map Usage.given, GivenUsage.tidy_map_given us, ?_, ?_⟩
  · rw [← List.map_append, GivenUsage.tidy_map_given, Usage.tidy_tidy_append]
  · rw [← List.map_append, GivenUsage.tidy_map_given]

end Assay
