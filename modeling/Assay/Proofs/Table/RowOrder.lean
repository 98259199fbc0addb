import Assay.Proofs.Table.Gates
import Assay.Proofs.Table.Summaries

/-!
# The order of the rows

The rows of a table can come in another order. A column counts and compares its values, so that
most of what it says of them does not change: how many there are and are missing, how many differ,
how often each kind occurs, how many are numbers, how long they are, and whether a gate lets them
pass. What can change are samples, sums that are rounded on the way, and which kind is dominant
where several occur equally often.

## Main definitions

* `Column.Agrees` — two columns say the same, apart from what depends on the order

## Main results

* `ofLengths?_perm`, `dominant_perm` — ranges of lengths and dominant kinds
* `agrees_of_perm` — the same values in another order have a column that agrees
-/

namespace Assay

theorem Table.present_perm {vs vs' : List Document} (h : vs.Perm vs') :
    (Table.present vs).Perm (Table.present vs') :=
  h.filter _

theorem Table.distinctCount_perm {ss ss' : List String} (h : ss.Perm ss') :
    distinctCount ss = distinctCount ss' := by
  rw [distinctCount_eq, distinctCount_eq, h.dedup.length_eq]

theorem NumberSummary.map_count_ofNumbers? (xs : List Float) :
    (ofNumbers? xs).map NumberSummary.count = if xs.length = 0 then none else some xs.length := by
  cases xs <;> rfl

/-- The range of lengths does not depend on their order. -/
theorem LengthSummary.ofLengths?_perm {ns ns' : List Nat} (h : ns.Perm ns') :
    ofLengths? ns = ofLengths? ns' := by
  induction h with
  | nil => rfl
  | cons n h _ => rw [ofLengths?, ofLengths?, h.foldl_eq, h.foldl_eq]
  | swap m n ns =>
    simp only [ofLengths?, List.foldl_cons]
    rw [min_comm, max_comm]
  | trans _ _ ih ih' => exact ih.trans ih'

theorem Column.lengthsOf_perm {vs vs' : List Document} {ss ss' : List String}
    (h : (vs.zip ss).Perm (vs'.zip ss')) : (lengthsOf vs ss).Perm (lengthsOf vs' ss') :=
  (h.filter _).map _

namespace Histogram

variable {ks ks' : List Kind} {h h' : Histogram}

/-- How often each kind occurs does not depend on the order. -/
theorem lookup_ofKinds_perm (hperm : ks.Perm ks') (k : Kind) :
    (ofKinds ks).lookup k = (ofKinds ks').lookup k := by
  rw [lookup_ofKinds_eq_ite, lookup_ofKinds_eq_ite, hperm.count_eq]
  simp only [hperm.mem_iff]

/-- The kinds that occur are listed in another order, with the same counts. -/
theorem ofKinds_perm (hperm : ks.Perm ks') : (ofKinds ks).Perm (ofKinds ks') := by
  have hcount : (fun k => (k, ks.count k)) = fun k => (k, ks'.count k) :=
    funext fun k => by rw [hperm.count_eq]
  have hkinds : ks.eraseDups.Perm ks'.eraseDups :=
    (List.perm_ext_iff_of_nodup (nodup_eraseDups ks) (nodup_eraseDups ks')).mpr fun k => by
      rw [List.mem_eraseDups, List.mem_eraseDups, hperm.mem_iff]
  rw [ofKinds_eq, ofKinds_eq, hcount]
  exact hkinds.map _

/-- The dominant kind occurs most often. -/
theorem exists_mem_dominant (hne : h ≠ []) : ∃ n, (dominant h, n) ∈ h ∧ ∀ e ∈ h, e.2 ≤ n := by
  obtain ⟨before, n, after, heq, hbefore, hafter⟩ := exists_dominant hne
  generalize dominant h = k at heq ⊢
  subst heq
  refine ⟨n, List.mem_append_right _ List.mem_cons_self, fun e he => ?_⟩
  rcases List.mem_append.mp he with he | he
  · exact (hbefore e he).le
  · rcases List.mem_cons.mp he with rfl | he
    · exact le_rfl
    · exact hafter e he

/-- The dominant kind does not depend on the order of a histogram, unless several kinds occur
equally often and most often. -/
theorem dominant_perm (hperm : h.Perm h') :
    dominant h = dominant h' ∨
      ∃ k l n, k ≠ l ∧ (k, n) ∈ h ∧ (l, n) ∈ h ∧ ∀ e ∈ h, e.2 ≤ n := by
  by_cases hne : h = []
  · subst hne
    rw [hperm.nil_eq]
    exact .inl rfl
  have hne' : h' ≠ [] := fun hnil => hne (by rw [hnil] at hperm; exact hperm.eq_nil)
  obtain ⟨n, hmem, hmax⟩ := exists_mem_dominant hne
  obtain ⟨m, hmem', hmax'⟩ := exists_mem_dominant hne'
  have hmemh : (dominant h', m) ∈ h := hperm.mem_iff.mpr hmem'
  -- Each of the two counts is at most the other.
  obtain rfl : m = n := le_antisymm (hmax _ hmemh) (hmax' _ (hperm.mem_iff.mp hmem))
  by_cases hdominant : dominant h = dominant h'
  · exact .inl hdominant
  · exact .inr ⟨_, _, m, hdominant, hmem, hmemh, hmax⟩

end Histogram

namespace Column

variable {name name' : String} {sampleSize sampleSize' : Int} {values values' : List Document}
  {c c' : Column}

/-- Two columns say the same of their values, apart from what depends on the order of these. -/
structure Agrees (c c' : Column) : Prop where
  total : c.total = c'.total
  missing : c.missing = c'.missing
  rate : c.missingRate = c'.missingRate
  unique : c.unique = c'.unique
  kinds : ∀ k, c.kinds.lookup k = c'.kinds.lookup k
  /-- There are numbers in both columns or in none, and equally many. -/
  numbers : c.numbers.map NumberSummary.count = c'.numbers.map NumberSummary.count
  lengths : c.lengths = c'.lengths
  gates : ∀ g : Gate, g.passes c = g.passes c'
  /-- The dominant kinds are the same, unless several kinds have the greatest count. -/
  dominant : c.dominant = c'.dominant ∨
    ∃ k l n, k ≠ l ∧ (k, n) ∈ c.kinds ∧ (l, n) ∈ c.kinds ∧ ∀ e ∈ c.kinds, e.2 ≤ n

/-- Values in another order have a column when they have one. -/
theorem exists_ofValues_of_perm (hperm : values.Perm values')
    (h : ofValues name sampleSize values = .ok c) :
    ∃ c', ofValues name' sampleSize' values' = .ok c' := by
  obtain ⟨texts, kinds, numbers, htexts, hkinds, hnumbers, -⟩ := exists_of_ofValues h
  have hpresent := Table.present_perm hperm
  obtain ⟨texts', htexts'⟩ := exists_mapM_eq_ok_of_perm hpresent htexts
  obtain ⟨kinds', hkinds'⟩ := exists_mapM_eq_ok_of_perm hperm hkinds
  obtain ⟨numbers', hnumbers'⟩ := exists_mapM_eq_ok_of_perm hpresent hnumbers
  rw [Table.present] at htexts' hnumbers'
  rw [ofValues, htexts', hkinds', hnumbers']
  exact ⟨_, rfl⟩

/-- Columns of the same values in two orders agree. -/
theorem agrees_of_ofValues (hperm : values.Perm values')
    (h : ofValues name sampleSize values = .ok c)
    (h' : ofValues name' sampleSize' values' = .ok c') : c.Agrees c' := by
  obtain ⟨-, htotal, hmissing, hrate⟩ := totals_of_ofValues h
  obtain ⟨-, htotal', hmissing', hrate'⟩ := totals_of_ofValues h'
  obtain ⟨texts, kinds, numbers, htexts, hkinds, hnumbers, hunique, hhistogram, hdominant, -,
    hsummary, hlengths⟩ := exists_of_ofValues h
  obtain ⟨texts', kinds', numbers', htexts', hkinds', hnumbers', hunique', hhistogram',
    hdominant', -, hsummary', hlengths'⟩ := exists_of_ofValues h'
  have hpresent := Table.present_perm hperm
  have hsametotal : c.total = c'.total := by rw [htotal, htotal', hperm.length_eq]
  have hsamemissing : c.missing = c'.missing := by rw [hmissing, hmissing', hperm.countP_eq]
  have hsamerate : c.missingRate = c'.missingRate := by
    rw [hrate, hrate', hsametotal, hsamemissing]
  have hkindsPerm : kinds.Perm kinds' := perm_of_mapM hperm hkinds hkinds'
  have hnumbersPerm := (perm_of_mapM hpresent hnumbers hnumbers').filterMap id
  exact {
    total := hsametotal
    missing := hsamemissing
    rate := hsamerate
    unique := by
      rw [hunique, hunique', Table.distinctCount_perm (perm_of_mapM hpresent htexts htexts')]
    kinds := by
      rw [hhistogram, hhistogram']
      exact Histogram.lookup_ofKinds_perm hkindsPerm
    numbers := by
      rw [hsummary, hsummary', NumberSummary.map_count_ofNumbers?,
        NumberSummary.map_count_ofNumbers?, hnumbersPerm.length_eq]
    lengths := by
      rw [hlengths, hlengths']
      exact LengthSummary.ofLengths?_perm
        (lengthsOf_perm (zip_perm_of_mapM hpresent htexts htexts'))
    gates := fun g => by rw [Gate.passes, Gate.passes, hsamerate]
    dominant := by
      rw [hdominant, hdominant', hhistogram]
      exact Histogram.dominant_perm (Histogram.ofKinds_perm hkindsPerm) }

/-- **Rows in another order.** The values of a column in another order have a column when they have
one, and it agrees: the same counts, the same kinds, equally many numbers, the same lengths, the
same decision at every gate, and the same dominant kind unless several kinds have the greatest
count. -/
theorem agrees_of_perm (hperm : values.Perm values')
    (h : ofValues name sampleSize values = .ok c) :
    ∃ c', ofValues name' sampleSize' values' = .ok c' ∧ c.Agrees c' := by
  obtain ⟨c', h'⟩ := exists_ofValues_of_perm hperm h
  exact ⟨c', h', agrees_of_ofValues hperm h h'⟩

/-- Two kinds occur twice, and the order of the values decides which one of them is dominant. -/
theorem agrees_of_perm_mixed_values :
    ∃ c c', ofValues "size" 2 [.null, .text "12kg", .int 12, .text " ", .text "x"] = .ok c ∧
      ofValues "size" 2 [.text "x", .text " ", .int 12, .text "12kg", .null] = .ok c' ∧
      c.Agrees c' ∧ c.dominant = .empty ∧ c'.dominant = .string := by
  have hprofile : ((ofValues "size" 2 [.null, .text "12kg", .int 12, .text " ",
      .text "x"]).toOption.map Column.dominant) = some .empty := by
    decide +kernel
  have hprofile' : ((ofValues "size" 2 [.text "x", .text " ", .int 12, .text "12kg",
      .null]).toOption.map Column.dominant) = some .string := by
    decide +kernel
  obtain ⟨c, hc, hdominant⟩ := exists_of_map_toOption_eq_some hprofile
  obtain ⟨c', hc', hdominant'⟩ := exists_of_map_toOption_eq_some hprofile'
  obtain ⟨d, hd, hagrees⟩ := agrees_of_perm (List.reverse_perm _).symm hc
  obtain rfl : d = c' := Except.ok.inj (hd.symm.trans hc')
  exact ⟨c, d, hc, hc', hagrees, hdominant, hdominant'⟩

end Column

end Assay
