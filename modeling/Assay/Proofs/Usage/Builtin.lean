import Assay.Proofs.Usage.Analyses

/-!
# Analyses with the built-in rules

With the built-in rules alone there is an analysis of every text. Each match of a rule gives a
finding, and of the findings with one path, mode and line the earliest one is a usage.

## Main results

* `exists_analyze_builtin` — there is an analysis, and it covers what is found
* `exists_finding_of_mem` — each match has its finding
* `mem_usages_of_head` — what is found first is a usage
-/

namespace Assay

/-- Every item has its result among the results. -/
theorem exists_result_of_mapM_eq_ok {α β ε : Type} {f : α → Except ε β} {xs : List α}
    {ys : List β} (h : xs.mapM f = .ok ys) {x : α} (hx : x ∈ xs) : ∃ y ∈ ys, f x = .ok y := by
  have hall := mapM_eq_ok_iff.mp h
  clear h
  induction hall with
  | nil => cases hx
  | cons hy _ ih =>
    rcases List.mem_cons.mp hx with rfl | hx
    · exact ⟨_, List.mem_cons_self, hy⟩
    · obtain ⟨y, hmem, hy⟩ := ih hx
      exact ⟨y, List.mem_cons_of_mem _ hmem, hy⟩

namespace Rules

/-- The findings of the built-in rules in a text. -/
def FindsBuiltin (source : List Char) (found : List Finding) : Prop :=
  (builtin.allMatches source).mapM (fun p => p.1.finding p.2) = .ok found

/-- **There is an analysis of every text** with the built-in rules. -/
theorem exists_analyze_builtin (source : List Char) (name : Option String) :
    ∃ found, FindsBuiltin source found ∧
      (builtin.analyze source name).result = .ok (.ofFindings source name found) := by
  have hfitted : ∀ r ∈ builtin, r.IsFitted := fun r hr => Rule.isFitted_of_mem_builtin hr
  obtain ⟨found, hfound⟩ := (exists_findings_iff hfitted source).mpr ofOctets_of_mem_builtin
  refine ⟨found, ?_, ?_⟩
  · rw [FindsBuiltin, ← findings_eq_mapM ofOctets_of_mem_builtin]
    exact hfound
  · rw [result_analyze]
    change (builtin.findings source).map _ = _
    rw [hfound]
    rfl

variable {source : List Char} {found : List Finding} {r : Rule} {m : Match} {f : Finding}
  {x : Extraction}

theorem finding_of_extract (h : r.extractor.extract m = .ok x) :
    r.finding m = .ok ⟨r.name, r.category, m.line, String.ofList m.text, x⟩ :=
  Rule.finding_eq_ok_iff.mpr ⟨rfl, rfl, rfl, rfl, h⟩

/-- Each match of a built-in rule has its finding. -/
theorem FindsBuiltin.exists_finding_of_mem (h : FindsBuiltin source found) (hr : r ∈ builtin)
    (hm : m ∈ r.pattern.body.findAll source) : ∃ f ∈ found, r.finding m = .ok f :=
  exists_result_of_mapM_eq_ok h (mem_allMatches_iff.mpr ⟨hr, hm⟩)

/-- There is a usage for each match of a built-in rule. -/
theorem FindsBuiltin.identity_mem (h : FindsBuiltin source found) (hr : r ∈ builtin)
    (hm : m ∈ r.pattern.body.findAll source) (hf : r.finding m = .ok f) (name : Option String) :
    f.usage.identity ∈ (Analysis.ofFindings source name found).usages.map Usage.identity := by
  obtain ⟨f', hmem, hf'⟩ := h.exists_finding_of_mem hr hm
  obtain rfl : f = f' := Except.ok.inj (hf.symm.trans hf')
  obtain ⟨u, hu, hidentity, -⟩ := (covers_ofFindings h name).complete f hmem
  exact List.mem_map.mpr ⟨u, hu, hidentity⟩

/-- Each usage is what a built-in rule finds in one of its matches. -/
theorem FindsBuiltin.exists_of_mem_usages (h : FindsBuiltin source found) {name : Option String}
    {u : Usage} (hu : u ∈ (Analysis.ofFindings source name found).usages) :
    ∃ r ∈ builtin, ∃ m ∈ r.pattern.body.findAll source, ∃ f, r.finding m = .ok f ∧ u = f.usage := by
  obtain ⟨f, hf, rfl⟩ := (covers_ofFindings h name).sound u hu
  obtain ⟨r, hr, m, hm, hfinding⟩ := exists_of_mem_found h hf
  exact ⟨r, hr, m, hm, f, hfinding, rfl⟩

/-- What is found first is a usage. -/
theorem FindsBuiltin.mem_usages_of_head (h : FindsBuiltin source found)
    (hm : (r, m) ∈ (builtin.allMatches source).head?) (hf : r.finding m = .ok f)
    (name : Option String) : f.usage ∈ (Analysis.ofFindings source name found).usages := by
  obtain ⟨ps, hps⟩ := List.head?_eq_some_iff.mp hm
  rw [FindsBuiltin, hps] at h
  obtain ⟨f', fs, hf', -, rfl⟩ := List.forall₂_cons_left_iff.mp (mapM_eq_ok_iff.mp h)
  obtain rfl : f = f' := Except.ok.inj (hf.symm.trans hf')
  exact Usage.mem_tidy_iff.mpr (Usage.isFirstIn_cons_iff.mpr (.inl rfl))

end Rules

end Assay
