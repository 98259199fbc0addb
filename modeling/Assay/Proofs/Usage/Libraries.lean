import Assay.Proofs.Usage.Analyses

/-!
# Scans with the rules of a library

A scan should report what the rules of a library find, and nothing else: every match of the
first rule, then those of the second, and so on. Two things get in the way. A library without
rules is taken for none at all, and the built-in rules are applied in its place. And a rule of a
definition may have a pattern over bytes, which breaks off the scan of every text. Otherwise the
scan is what it should be, and for two libraries one behind the other it is the scan of the
first, followed by that of the second.

## Main definitions

* `Rules.Finds` — what rules report, rule by rule and each from left to right
* `Rule.Applies` — a rule has findings in a text

## Main results

* `finds_of_findings` — what rules find is what they should report
* `scan_finds_iff` — when a scan reports what the rules of its library find
-/

namespace Assay

variable {source : List Char} {found : List Finding}

/-- A rule has findings in a text: its pattern can be looked for, and its extractor reads every
match. -/
def Rule.Applies (r : Rule) (source : List Char) : Prop := ∃ fs, r.findings source = .ok fs

/-- Rules that are built in or come from a definition apply unless their pattern is one over
bytes. -/
theorem Rule.applies_iff {r : Rule} (hr : r ∈ Rules.builtin ∨ ∃ d, ofDefinition d = .ok r)
    (source : List Char) : r.Applies source ↔ r.pattern.ofOctets = false := by
  have hfitted : r.IsFitted := by
    rcases hr with hr | ⟨d, hd⟩
    · exact isFitted_of_mem_builtin hr
    · exact isFitted_of_ofDefinition hd
  exact hfitted.exists_findings_iff source

theorem Rule.Applies.ofOctets_eq_false {r : Rule} (h : r.Applies source) :
    r.pattern.ofOctets = false := by
  obtain ⟨fs, hfs⟩ := h
  cases hoctets : r.pattern.ofOctets with
  | false => rfl
  | true =>
    rw [findings_of_ofOctets hoctets] at hfs
    cases hfs

namespace Rules

variable {rules rules' : Rules}

/-- What rules should report in a text: one finding for each match, rule by rule and each rule
from left to right. -/
structure Finds (rules : Rules) (source : List Char) (found : List Finding) : Prop where
  reports : List.Forall₂ (fun p f => Finding.Reports f p.1 p.2) (rules.allMatches source) found
  in_order : ∀ r ∈ rules, (r.pattern.body.findAll source).Pairwise
    fun m n => m.start.offset ≤ n.start.offset
  rule_mem_names : ∀ f ∈ found, f.rule ∈ rules.names

/-! ## Findings of rules -/

theorem findings_append (rules rules' : Rules) (source : List Char) :
    (rules ++ rules').findings source =
      do return (← rules.findings source) ++ (← rules'.findings source) := by
  induction rules with
  | nil =>
    change rules'.findings source = do return [] ++ (← rules'.findings source)
    cases rules'.findings source <;> rfl
  | cons r rules ih =>
    rw [List.cons_append, findings, findings, ih]
    cases r.findings source with
    | error f => rfl
    | ok fs =>
      cases findings source rules with
      | error f => rfl
      | ok gs =>
        cases rules'.findings source with
        | error f => rfl
        | ok hs => exact congrArg Except.ok (List.append_assoc fs gs hs).symm

/-- What rules find is what they should report. -/
theorem finds_of_findings (h : rules.findings source = .ok found) : rules.Finds source found := by
  have happlies : ∀ r ∈ rules, r.Applies source := exists_findings_iff_forall.mp ⟨found, h⟩
  rw [findings_eq_mapM fun r hr => (happlies r hr).ofOctets_eq_false] at h
  refine ⟨(mapM_eq_ok_iff.mp h).imp fun _ _ hf => Rule.finding_eq_ok_iff.mp hf,
    fun r _ => Regex.pairwise_findAll _ _, fun f hf => ?_⟩
  obtain ⟨⟨r, m⟩, hmatch, hfinding⟩ := exists_of_mem_of_mapM_eq_ok h hf
  rw [(Rule.finding_eq_ok_iff.mp hfinding).rule_eq]
  exact List.mem_map_of_mem (mem_allMatches_iff.mp hmatch).1

theorem Finds.eq_nil_iff (h : rules.Finds source found) :
    found = [] ↔ rules.allMatches source = [] := by
  rw [← List.length_eq_zero_iff, ← h.reports.length_eq, List.length_eq_zero_iff]

/-! ## Scans -/

theorem applies_of_mem_builtin (source : List Char) : ∀ r ∈ builtin, r.Applies source :=
  fun r hr => (Rule.applies_iff (.inl hr) source).mpr (ofOctets_of_mem_builtin r hr)

theorem orBuiltin_of_ne_nil (h : rules ≠ []) : rules.orBuiltin = rules := by
  cases rules with
  | nil => exact absurd rfl h
  | cons r rules => rfl

/-- There is a scan when every rule of the library applies. -/
theorem exists_scan_iff :
    (∃ found, (rules.scan source).result = .ok found) ↔ ∀ r ∈ rules, r.Applies source := by
  rw [result_scan, exists_findings_iff_forall]
  cases rules with
  | nil => exact iff_of_true (applies_of_mem_builtin source) (by simp)
  | cons r rules => rfl

/-- A scan with rules reports what these find; a scan without rules does so when the built-in
ones find nothing. -/
theorem finds_of_scan_iff (h : (rules.scan source).result = .ok found) :
    rules.Finds source found ↔ (rules = [] → builtin.allMatches source = []) := by
  rw [result_scan] at h
  have hfinds := finds_of_findings h
  by_cases hrules : rules = []
  · subst hrules
    have hnil : found = [] ↔ builtin.allMatches source = [] := hfinds.eq_nil_iff
    rw [← hnil]
    constructor
    · intro h _
      exact h.eq_nil_iff.mpr rfl
    · intro h
      rw [h rfl]
      exact ⟨.nil, by simp, by simp⟩
  · rw [orBuiltin_of_ne_nil hrules] at hfinds
    exact iff_of_true hfinds fun hnil => absurd hnil hrules

/-- The scans of two libraries come one behind the other when both have rules, and otherwise
when the built-in ones find nothing. -/
theorem scan_append_iff {fs gs : List Finding} (hfs : (rules.scan source).result = .ok fs)
    (hgs : (rules'.scan source).result = .ok gs) :
    ((rules ++ rules').scan source).result = .ok (fs ++ gs) ↔
      (rules = [] ∨ rules' = [] → builtin.allMatches source = []) := by
  -- Without rules on one side the whole is the scan of the other side, and the built-in rules
  -- must not have added anything.
  by_cases hrules : rules = []
  · subst hrules
    have hnil := Finds.eq_nil_iff (finds_of_findings ((result_scan [] source).symm.trans hfs))
    rw [List.nil_append, hgs, Except.ok.injEq, List.self_eq_append_left, hnil]
    exact ⟨fun h _ => h, fun h => h (.inl rfl)⟩
  by_cases hrules' : rules' = []
  · subst hrules'
    have hnil := Finds.eq_nil_iff (finds_of_findings ((result_scan [] source).symm.trans hgs))
    rw [List.append_nil, hfs, Except.ok.injEq, List.self_eq_append_right, hnil]
    exact ⟨fun h _ => h, fun h => h (.inr rfl)⟩
  rw [result_scan, orBuiltin_of_ne_nil hrules] at hfs
  rw [result_scan, orBuiltin_of_ne_nil hrules'] at hgs
  rw [result_scan, orBuiltin_of_ne_nil (by simp [hrules]), findings_append, hfs, hgs]
  exact iff_of_true rfl fun h => (h.elim hrules hrules').elim

/-- **A scan applies the rules of its library.** It reports the matches of the rules, rule by
rule and each rule from left to right, if and only if every rule applies and there is a rule, or
else nothing for the built-in ones to find. The scan of two libraries one behind the other is the
scan of the first followed by that of the second if and only if every rule applies and both have
rules, or else there is nothing for the built-in ones to find. A rule that is built in or comes
from a definition applies if and only if its pattern is not one over bytes. -/
theorem scan_finds_iff (rules rules' : Rules) (source : List Char) :
    ((∃ found, (rules.scan source).result = .ok found ∧ rules.Finds source found) ↔
        (∀ r ∈ rules, r.Applies source) ∧ (rules = [] → builtin.allMatches source = [])) ∧
      ((∃ fs gs, (rules.scan source).result = .ok fs ∧ (rules'.scan source).result = .ok gs ∧
          ((rules ++ rules').scan source).result = .ok (fs ++ gs)) ↔
        (∀ r ∈ rules ++ rules', r.Applies source) ∧
          (rules = [] ∨ rules' = [] → builtin.allMatches source = [])) ∧
      ∀ r, (r ∈ builtin ∨ ∃ d, Rule.ofDefinition d = .ok r) →
        (r.Applies source ↔ r.pattern.ofOctets = false) := by
  refine ⟨?_, ?_, fun r hr => Rule.applies_iff hr source⟩
  · rw [← exists_scan_iff, ← exists_and_right]
    exact exists_congr fun found => and_congr_right finds_of_scan_iff
  · rw [List.forall_mem_append, ← exists_scan_iff, ← exists_scan_iff]
    constructor
    · rintro ⟨fs, gs, hfs, hgs, happend⟩
      exact ⟨⟨⟨fs, hfs⟩, gs, hgs⟩, (scan_append_iff hfs hgs).mp happend⟩
    · rintro ⟨⟨⟨fs, hfs⟩, gs, hgs⟩, hnone⟩
      exact ⟨fs, gs, hfs, hgs, (scan_append_iff hfs hgs).mpr hnone⟩

/-- A rule of a definition on its own, and in front of the built-in ones. -/
theorem scan_finds_open_rule :
    ∃ r, Rule.ofDefinition (Rule.openDefinition (.text "(open)")) = .ok r ∧
      r.pattern.ofOctets = false ∧ r.Applies "f = open(\"in.csv\")\n".toList ∧
      (∃ found, (scan [r] "f = open(\"in.csv\")\n".toList).result = .ok found ∧
        Finds [r] "f = open(\"in.csv\")\n".toList found) ∧
      ∃ fs gs, (scan [r] "f = open(\"in.csv\")\n".toList).result = .ok fs ∧
        (scan builtin "f = open(\"in.csv\")\n".toList).result = .ok gs ∧
        (scan ([r] ++ builtin) "f = open(\"in.csv\")\n".toList).result = .ok (fs ++ gs) := by
  obtain ⟨r, hr, hoctets⟩ := exists_of_map_toOption_eq_some
    (x := Rule.ofDefinition (Rule.openDefinition (.text "(open)")))
    (g := fun r => r.pattern.ofOctets) (b := false) (by decide +kernel)
  obtain ⟨hscan, happend, happlies⟩ :=
    scan_finds_iff [r] builtin "f = open(\"in.csv\")\n".toList
  have hr' : r.Applies "f = open(\"in.csv\")\n".toList :=
    (happlies r (.inr ⟨_, hr⟩)).mpr hoctets
  refine ⟨r, hr, hoctets, hr', hscan.mpr ⟨List.forall_mem_singleton.mpr hr', by simp⟩,
    happend.mpr ⟨List.forall_mem_cons.mpr ⟨hr', applies_of_mem_builtin _⟩, ?_⟩⟩
  simp [builtin]

/-- A library without rules reports a match of a built-in rule, which is none of its own. -/
theorem scan_without_rules :
    ∃ found, (scan [] "f = open(\"in.csv\")\n".toList).result = .ok found ∧
      found.length = 1 ∧ (∀ f ∈ found, f.rule ∉ names []) ∧
      ¬ Finds [] "f = open(\"in.csv\")\n".toList found := by
  obtain ⟨found, hfound, hlength⟩ := exists_of_map_toOption_eq_some
    (x := (scan [] "f = open(\"in.csv\")\n".toList).result) (g := List.length) (b := 1)
    (by decide +kernel)
  refine ⟨found, hfound, hlength, fun f _ => List.not_mem_nil, fun hfinds => ?_⟩
  rw [hfinds.eq_nil_iff.mpr rfl] at hlength
  cases hlength

end Rules

end Assay
