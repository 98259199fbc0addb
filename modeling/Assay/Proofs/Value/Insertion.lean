import Mathlib.Data.List.Sort
import Mathlib.Order.Basic
import Assay.Value.Order

/-!
# Insertion of items that have ranks

Items whose order has gaps are put in order by insertion, since it matters which of them are
compared. Where each item has a rank in a common order nothing of this is left: the leading run
comes out in order, every further item goes behind those of its rank, and the result is the list by
ranks, with items of one rank as they stood.

## Main definitions

* `Ordered.IsByRank` — a list is another one in the order of ranks

## Main results

* `IsByRank.eq` — there is one list in the order of ranks
* `exists_place_eq` — the place of an item, between those of lower or equal rank and all others
* `byInsertion_eq_mergeSort` — what insertion comes to for items with ranks
-/

namespace Assay.Ordered

variable {α ε κ : Type} [LinearOrder κ] {rank : α → κ} {x y : α} {xs ys zs front back : List α}

/-! ## Lists by ranks -/

/-- A list is another one in the order of ranks. -/
structure IsByRank (rank : α → κ) (xs ys : List α) : Prop where
  sorted : ys.Pairwise fun a b => rank a ≤ rank b
  /-- The items of each rank stand as they stood. -/
  same : ∀ k, (ys.filter fun a => rank a = k) = xs.filter fun a => rank a = k

namespace IsByRank

theorem mem_iff (h : IsByRank rank xs ys) : x ∈ ys ↔ x ∈ xs := by
  have hx := congrArg (x ∈ ·) (h.same (rank x))
  simpa using hx

/-- The first item of a list by ranks has the least of them. -/
theorem le_of_mem_cons (h : IsByRank rank xs (y :: ys)) (hx : x ∈ xs) : rank y ≤ rank x := by
  rcases List.mem_cons.mp (h.mem_iff.mpr hx) with rfl | hmem
  · exact le_rfl
  · exact (List.pairwise_cons.mp h.sorted).1 x hmem

/-- A list has one order by ranks. -/
theorem eq (hy : IsByRank rank xs ys) (hz : IsByRank rank xs zs) : ys = zs := by
  induction ys generalizing xs zs with
  | nil =>
    refine (List.eq_nil_iff_forall_not_mem.mpr fun a ha => ?_).symm
    exact absurd (hy.mem_iff.mpr (hz.mem_iff.mp ha)) List.not_mem_nil
  | cons y ys ih =>
    obtain ⟨z, zs, rfl⟩ := List.exists_cons_of_ne_nil (List.ne_nil_of_mem
      (hz.mem_iff.mpr (hy.mem_iff.mp List.mem_cons_self)))
    -- Both begin with an item of the least rank, and with the first of these.
    have hrank : rank z = rank y := le_antisymm
      (hz.le_of_mem_cons (hy.mem_iff.mp List.mem_cons_self))
      (hy.le_of_mem_cons (hz.mem_iff.mp List.mem_cons_self))
    have hsame (k : κ) := (hy.same k).trans (hz.same k).symm
    have hfirst := hsame (rank y)
    rw [List.filter_cons_of_pos (by simp), List.filter_cons_of_pos (by simpa using hrank)] at hfirst
    obtain ⟨rfl, -⟩ := List.cons.inj hfirst
    have htail : IsByRank rank ys zs := ⟨(List.pairwise_cons.mp hz.sorted).2, fun k => by
      have hk := hsame k
      by_cases hyk : rank y = k <;> simpa [hyk] using hk.symm⟩
    rw [ih ⟨(List.pairwise_cons.mp hy.sorted).2, fun _ => rfl⟩ htail]

/-- One more item goes behind those of its rank. -/
theorem insert (h : IsByRank rank xs (front ++ back)) (hfront : ∀ a ∈ front, rank a ≤ rank x)
    (hback : ∀ a ∈ back, rank x < rank a) :
    IsByRank rank (xs ++ [x]) (front ++ x :: back) := by
  obtain ⟨hwithin, hbehind, hacross⟩ := List.pairwise_append.mp h.sorted
  constructor
  · refine List.pairwise_append.mpr
      ⟨hwithin, List.pairwise_cons.mpr ⟨fun a ha => (hback a ha).le, hbehind⟩, fun a ha b hb => ?_⟩
    rcases List.mem_cons.mp hb with rfl | hb
    · exact hfront a ha
    · exact hacross a ha b hb
  · intro k
    rw [List.filter_append, List.filter_append, ← h.same k, List.filter_append]
    by_cases hk : rank x = k
    · -- Behind the item none has its rank.
      have hnone : (back.filter fun a => rank a = k) = [] := by
        rw [List.filter_eq_nil_iff]
        intro a ha
        simpa [← hk] using (hback a ha).ne'
      simp [hk, hnone]
    · simp [hk]

end IsByRank

/-- Merging keeps the items of each rank as they stand. -/
theorem isByRank_mergeSort (rank : α → κ) (xs : List α) :
    IsByRank rank xs (xs.mergeSort fun a b => rank a ≤ rank b) := by
  have htrans (a b c : α) : decide (rank a ≤ rank b) = true → decide (rank b ≤ rank c) = true →
      decide (rank a ≤ rank c) = true := by
    simpa using le_trans
  have htotal (a b : α) : (decide (rank a ≤ rank b) || decide (rank b ≤ rank a)) = true := by
    simpa using le_total (rank a) (rank b)
  refine ⟨(List.pairwise_mergeSort htrans htotal xs).imp of_decide_eq_true, fun k => ?_⟩
  have hsorted : (xs.filter fun a => rank a = k).Pairwise fun a b =>
      decide (rank a ≤ rank b) = true := by
    refine List.pairwise_of_forall_mem_list fun a ha b hb => ?_
    simp only [List.mem_filter, decide_eq_true_eq] at ha hb ⊢
    rw [ha.2, hb.2]
  have hsublist := (List.sublist_mergeSort htrans htotal hsorted List.filter_sublist).filter
    fun a => decide (rank a = k)
  simp only [List.filter_filter, Bool.and_self] at hsublist
  exact (hsublist.eq_of_length ((List.mergeSort_perm xs _).filter _).length_eq.symm).symm

/-! ## The leading run -/

/-- The items at the front that follow one another in a transitive relation are all in it. -/
theorem exists_leadingRun_eq {follows : α → α → Except ε Bool} {r : α → α → Prop}
    [DecidableRel r] (htrans : ∀ a b c, r a b → r b c → r a c) {run items : List α} {last : α}
    (hfollows : ∀ a ∈ last :: items, ∀ b ∈ last :: items, follows a b = .ok (decide (r b a)))
    (hrun : (last :: run).Pairwise r) :
    ∃ front rest, leadingRun follows run last items = .ok (front, rest) ∧ front.Pairwise r := by
  induction items generalizing run last with
  | nil => exact ⟨_, _, rfl, hrun⟩
  | cons x items ih =>
    rw [leadingRun, hfollows last List.mem_cons_self x (by simp)]
    by_cases hx : r x last
    · have hlonger : (x :: last :: run).Pairwise r := by
        refine List.pairwise_cons.mpr ⟨fun a ha => ?_, hrun⟩
        rcases List.mem_cons.mp ha with rfl | ha
        · exact hx
        · exact htrans _ _ _ hx ((List.pairwise_cons.mp hrun).1 a ha)
      obtain ⟨front, rest, hleading, hfront⟩ := ih (fun a ha b hb =>
        hfollows a (List.mem_cons_of_mem _ ha) b (List.mem_cons_of_mem _ hb)) hlonger
      refine ⟨front, rest, ?_, hfront⟩
      simpa [hx, bind, Except.bind] using hleading
    · refine ⟨last :: run, x :: items, ?_, hrun⟩
      simp [hx, bind, Except.bind, pure, Except.pure]

/-! ## The place of an item -/

/-- The place of an item stands between those of lower or equal rank and all others. -/
theorem exists_place_eq {isBefore : α → Except ε Bool} {items : Array α} {k : κ}
    (hbefore : ∀ a ∈ items, isBefore a = .ok (decide (k < rank a)))
    (hsorted : items.toList.Pairwise fun a b => rank a ≤ rank b) {low high : Nat}
    (hlow : ∀ a ∈ items.toList.take low, rank a ≤ k)
    (hhigh : ∀ a ∈ items.toList.drop high, k < rank a) (hle : low ≤ high)
    (hsize : high ≤ items.size) :
    ∃ n, place isBefore items low high = .ok n ∧ n ≤ items.size ∧
      (∀ a ∈ items.toList.take n, rank a ≤ k) ∧ ∀ a ∈ items.toList.drop n, k < rank a := by
  -- By induction on the number of places that are left.
  induction hn : high - low using Nat.strongRecOn generalizing low high with
  | ind n ih =>
    rw [place]
    by_cases hlt : low < high
    · rw [if_pos hlt]
      dsimp only
      generalize hmiddle : low + (high - low) / 2 = middle
      have hmid : middle < items.toList.length := by
        rw [Array.length_toList]
        omega
      obtain ⟨y, hy⟩ : ∃ y, items.toList[middle] = y := ⟨_, rfl⟩
      have htake := hsorted.sublist (List.take_sublist (middle + 1) items.toList)
      have hdrop := hsorted.sublist (List.drop_sublist middle items.toList)
      have hitem : items[middle]? = some y := by
        rw [← Array.getElem?_toList, List.getElem?_eq_getElem hmid, hy]
      have hmem : y ∈ items := Array.mem_of_getElem? hitem
      rw [hitem]
      dsimp only
      rw [hbefore y hmem]
      simp only [bind, Except.bind, decide_eq_true_eq]
      by_cases hk : k < rank y
      · -- Behind the middle no rank is below its own.
        have hupper : ∀ a ∈ items.toList.drop middle, k < rank a := by
          rw [List.drop_eq_getElem_cons hmid, hy] at hdrop ⊢
          refine List.forall_mem_cons.mpr ⟨hk, fun a ha => ?_⟩
          exact hk.trans_le ((List.pairwise_cons.mp hdrop).1 a ha)
        rw [if_pos hk]
        exact ih _ (by omega) hlow hupper (by omega) (by omega) rfl
      · have hlower : ∀ a ∈ items.toList.take (middle + 1), rank a ≤ k := by
          rw [← List.take_append_getElem hmid, hy] at htake ⊢
          intro a ha
          rcases List.mem_append.mp ha with ha | ha
          · exact ((List.pairwise_append.mp htake).2.2 a ha y (by simp)).trans (not_lt.mp hk)
          · rw [List.mem_singleton.mp ha]
            exact not_lt.mp hk
        rw [if_neg hk]
        exact ih _ (by omega) hlower hhigh (by omega) (by omega) rfl
    · obtain rfl : low = high := by omega
      exact ⟨low, by rw [if_neg hlt], hsize, hlow, hhigh⟩

theorem toList_insertIdxIfInBounds {items : Array α} {n : Nat} (h : n ≤ items.size) (x : α) :
    (items.insertIdxIfInBounds n x).toList = items.toList.take n ++ x :: items.toList.drop n := by
  have hlist (l : List α) (n : Nat) (h : n ≤ l.length) :
      l.insertIdx n x = l.take n ++ x :: l.drop n := by
    induction n generalizing l with
    | zero => rfl
    | succ n ih =>
      cases l with
      | nil => simp at h
      | cons a l => simpa using ih l (by simpa using h)
  rw [Array.insertIdxIfInBounds, dif_pos h, Array.toList_insertIdx]
  exact hlist items.toList n (by simpa using h)

/-! ## All items -/

variable {before : α → α → Except ε Bool}

/-- Items that are inserted one after the other. -/
def insertAll (before : α → α → Except ε Bool) (rest : List α) (items : Array α) :
    Except ε (Array α) :=
  rest.foldlM (fun items x => do
    return items.insertIdxIfInBounds (← place (before x) items 0 items.size) x) items

/-- Items that are inserted come to stand in the order of ranks. -/
theorem exists_insertAll_eq {items : Array α} {rest : List α}
    (hbefore : ∀ a ∈ xs ++ rest, ∀ b ∈ xs ++ rest, before a b = .ok (decide (rank a < rank b)))
    (h : IsByRank rank xs items.toList) :
    ∃ all, insertAll before rest items = .ok all ∧ IsByRank rank (xs ++ rest) all.toList := by
  induction rest generalizing xs items with
  | nil => exact ⟨items, rfl, by rwa [List.append_nil]⟩
  | cons x rest ih =>
    have hplace : ∀ a ∈ items, before x a = .ok (decide (rank x < rank a)) := fun a ha =>
      hbefore x (by simp) a (List.mem_append_left _ (h.mem_iff.mp (Array.mem_toList_iff.mpr ha)))
    obtain ⟨n, hn, hsize, hfront, hback⟩ : ∃ n, place (before x) items 0 items.size = .ok n ∧
        n ≤ items.size ∧ (∀ a ∈ items.toList.take n, rank a ≤ rank x) ∧
        ∀ a ∈ items.toList.drop n, rank x < rank a :=
      exists_place_eq hplace h.sorted (by simp) (by simp [← Array.length_toList])
        (Nat.zero_le _) le_rfl
    have hnext : IsByRank rank (xs ++ [x]) (items.insertIdxIfInBounds n x).toList := by
      rw [toList_insertIdxIfInBounds hsize]
      rw [← List.take_append_drop n items.toList] at h
      exact h.insert hfront hback
    rw [List.append_cons] at hbefore ⊢
    obtain ⟨all, hall, hranked⟩ := ih hbefore hnext
    refine ⟨all, ?_, hranked⟩
    rw [insertAll, List.foldlM_cons, hn]
    exact hall

/-- Strictly increasing ranks are in order, and were so before they were turned around. -/
theorem isByRank_reverse (h : ys.Pairwise fun a b => rank a < rank b) :
    IsByRank rank ys.reverse ys := by
  refine ⟨h.imp le_of_lt, fun k => ?_⟩
  rw [List.filter_reverse]
  -- There is at most one item of a rank.
  have hone : (ys.filter fun a => rank a = k).Pairwise fun a b => rank a < rank b := h.filter _
  have hrank : ∀ a ∈ ys.filter fun a => rank a = k, rank a = k := by simp
  match hys : ys.filter fun a => rank a = k with
  | [] => rfl
  | [a] => rfl
  | a :: b :: more =>
    rw [hys] at hone hrank
    have hab : rank a < rank b := (List.pairwise_cons.mp hone).1 b List.mem_cons_self
    rw [hrank a (by simp), hrank b (by simp)] at hab
    exact absurd hab (lt_irrefl k)

/-- The leading run is put in order, whichever way it goes, and the items behind it are inserted. -/
theorem exists_byInsertion_eq {more : List α}
    (hbefore : ∀ a ∈ x :: y :: more, ∀ b ∈ x :: y :: more,
      before a b = .ok (decide (rank a < rank b))) :
    ∃ run items rest, run ++ rest = x :: y :: more ∧ IsByRank rank run items ∧
      byInsertion before (x :: y :: more) =
        (insertAll before rest items.toArray).map Array.toList := by
  have hmap (z : Except ε (Array α)) : (do return (← z).toList) = z.map Array.toList := by
    cases z <;> rfl
  rw [byInsertion, hbefore y (by simp) x (by simp)]
  by_cases hyx : rank y < rank x
  · have hpair : [y, x].Pairwise fun a b => rank a < rank b := by simpa using hyx
    have hfollows : ∀ a ∈ y :: more, ∀ b ∈ y :: more,
        before b a = .ok (decide (rank b < rank a)) :=
      fun a ha b hb => hbefore b (List.mem_cons_of_mem x hb) a (List.mem_cons_of_mem x ha)
    obtain ⟨front, rest, hleading, hfront⟩ := exists_leadingRun_eq
      (fun a b c (hab : rank a < rank b) (hbc : rank b < rank c) => hab.trans hbc) hfollows hpair
    refine ⟨front.reverse, front, rest, ?_, isByRank_reverse hfront, ?_⟩
    · simpa using append_of_leadingRun hleading
    · rw [← hmap]
      simp [hyx, hleading, bind, Except.bind, insertAll]
  · have hpair : [y, x].Pairwise fun a b => rank b ≤ rank a := by simpa using hyx
    have hfollows : ∀ a ∈ y :: more, ∀ b ∈ y :: more,
        (!·) <$> before b a = .ok (decide (rank a ≤ rank b)) := by
      intro a ha b hb
      rw [hbefore b (List.mem_cons_of_mem x hb) a (List.mem_cons_of_mem x ha)]
      simp [Functor.map, Except.map, ← not_lt]
    obtain ⟨front, rest, hleading, hfront⟩ := exists_leadingRun_eq
      (fun a b c (hab : rank b ≤ rank a) (hbc : rank c ≤ rank b) => hbc.trans hab) hfollows hpair
    refine ⟨front.reverse, front.reverse, rest, ?_,
      ⟨List.pairwise_reverse.mpr hfront, fun _ => rfl⟩, ?_⟩
    · simpa using append_of_leadingRun hleading
    · rw [← hmap]
      simp [hyx, hleading, bind, Except.bind, pure, Except.pure, insertAll]

/-- **Items that have ranks** are put in the order of these, and those of one rank keep the order in
which they stand. -/
theorem byInsertion_eq_mergeSort
    (hbefore : ∀ a ∈ xs, ∀ b ∈ xs, before a b = .ok (decide (rank a < rank b))) :
    byInsertion before xs = .ok (xs.mergeSort fun a b => rank a ≤ rank b) := by
  match xs with
  | [] => simp [byInsertion]
  | [x] => simp [byInsertion]
  | x :: y :: more =>
    obtain ⟨run, items, rest, happend, hrun, heq⟩ := exists_byInsertion_eq hbefore
    rw [heq]
    rw [← happend] at hbefore ⊢
    have hitems : IsByRank rank run items.toArray.toList := hrun
    obtain ⟨all, hall, hranked⟩ := exists_insertAll_eq hbefore hitems
    rw [hall, ← hranked.eq (isByRank_mergeSort rank _)]
    rfl

end Assay.Ordered
