import Assay.Proofs.Regex.Matches
import Assay.Proofs.Usage.Extractors

/-!
# Findings

A scan reports the matches of the rules, rule by rule and each rule from left to right. Rules
that are fitted report all of them, unless a pattern is one over bytes: that breaks the scan
off, and nothing else does.

## Main definitions

* `Finding.Reports` — a finding tells a match of a rule
* `Rules.allMatches` — the matches of rules, in the order in which they are reported
* `Analysis.ofFindings` — the analysis that comes from findings

## Main results

* `findings_eq_mapM` — the findings, one for each match
* `exists_findings_iff`, `eq_patternOfOctets_of_findings` — when a scan breaks off
* `result_scan`, `result_analyze` — what comes out of a scan and of an analysis
-/

namespace Assay

variable {source : List Char} {f : Fault}

/-- A finding tells a match of a rule, with the name and the category of the rule. -/
structure Finding.Reports (x : Finding) (r : Rule) (m : Match) : Prop where
  rule_eq : x.rule = r.name
  category_eq : x.category = r.category
  line_eq : x.line = m.line
  raw_eq : x.raw = String.ofList m.text
  extract_eq : r.extractor.extract m = .ok x.extraction

/-! ## One rule -/

namespace Rule

variable {r : Rule} {m : Match} {x : Finding}

theorem finding_eq_ok_iff : r.finding m = .ok x ↔ x.Reports r m := by
  constructor
  · intro h
    obtain ⟨e, he, h⟩ := bind_eq_ok_iff.mp h
    cases h
    exact ⟨rfl, rfl, rfl, rfl, he⟩
  · rintro ⟨hrule, hcategory, hline, hraw, hextract⟩
    rw [finding, hextract, ← hrule, ← hcategory, ← hline, ← hraw]
    rfl

theorem IsFitted.exists_finding (h : r.IsFitted) (hm : m ∈ r.pattern.body.findAll source) :
    ∃ x, r.finding m = .ok x := by
  rw [finding, exists_bind_eq_ok_iff]
  · exact h.exists_extract hm
  · exact fun e => ⟨_, rfl⟩

theorem findings_of_ofOctets (h : r.pattern.ofOctets = true) (source : List Char) :
    r.findings source = .error .patternOfOctets := by
  rw [findings, if_pos h]

theorem findings_of_not_ofOctets (h : r.pattern.ofOctets = false) (source : List Char) :
    r.findings source = (r.pattern.body.findAll source).mapM r.finding := by
  rw [findings, if_neg (Bool.eq_false_iff.mp h)]

theorem IsFitted.exists_findings_iff (h : r.IsFitted) (source : List Char) :
    (∃ fs, r.findings source = .ok fs) ↔ r.pattern.ofOctets = false := by
  cases hoctets : r.pattern.ofOctets with
  | true => simp [findings_of_ofOctets hoctets]
  | false =>
    rw [findings_of_not_ofOctets hoctets, exists_mapM_eq_ok_iff]
    simpa using fun m hm => h.exists_finding hm

theorem IsFitted.eq_patternOfOctets (h : r.IsFitted) (hf : r.findings source = .error f) :
    f = .patternOfOctets := by
  cases hoctets : r.pattern.ofOctets with
  | true =>
    rw [findings_of_ofOctets hoctets] at hf
    cases hf
    rfl
  | false =>
    obtain ⟨fs, hfs⟩ := (h.exists_findings_iff source).mpr hoctets
    rw [hf] at hfs
    cases hfs

end Rule

/-! ## All rules -/

namespace Rules

variable {rules : Rules} {found : List Finding}

/-- The matches of rules in a text, rule by rule and from left to right. -/
def allMatches (rules : Rules) (source : List Char) : List (Rule × Match) :=
  rules.flatMap fun r => (r.pattern.body.findAll source).map fun m => (r, m)

theorem allMatches_cons (r : Rule) (rules : Rules) (source : List Char) :
    allMatches (r :: rules) source =
      ((r.pattern.body.findAll source).map fun m => (r, m)) ++ rules.allMatches source :=
  List.flatMap_cons

theorem allMatches_append (rules rules' : Rules) (source : List Char) :
    (rules ++ rules').allMatches source =
      rules.allMatches source ++ rules'.allMatches source :=
  List.flatMap_append

theorem mem_allMatches_iff {r : Rule} {m : Match} :
    (r, m) ∈ rules.allMatches source ↔ r ∈ rules ∧ m ∈ r.pattern.body.findAll source := by
  simp [allMatches]

/-- The findings are those of the matches, in their order. -/
theorem findings_eq_mapM (h : ∀ r ∈ rules, r.pattern.ofOctets = false) (source : List Char) :
    rules.findings source = (rules.allMatches source).mapM fun p => p.1.finding p.2 := by
  induction rules with
  | nil => rfl
  | cons r rules ih =>
    obtain ⟨hr, hrules⟩ := List.forall_mem_cons.mp h
    rw [findings, Rule.findings_of_not_ofOctets hr, ih hrules, allMatches_cons, List.mapM_append,
      List.mapM_map]
    rfl

/-- There are findings when there are those of every rule. -/
theorem exists_findings_iff_forall :
    (∃ found, rules.findings source = .ok found) ↔
      ∀ r ∈ rules, ∃ fs, r.findings source = .ok fs := by
  induction rules with
  | nil => simp [findings, pure, Except.pure]
  | cons r rules ih =>
    rw [List.forall_mem_cons, ← ih, findings]
    constructor
    · rintro ⟨found, hfound⟩
      obtain ⟨fs, hfs, hfound⟩ := bind_eq_ok_iff.mp hfound
      obtain ⟨more, hmore, -⟩ := bind_eq_ok_iff.mp hfound
      exact ⟨⟨fs, hfs⟩, more, hmore⟩
    · rintro ⟨⟨fs, hfs⟩, more, hmore⟩
      exact ⟨fs ++ more, bind_eq_ok_iff.mpr ⟨fs, hfs, bind_eq_ok_iff.mpr ⟨more, hmore, rfl⟩⟩⟩

theorem exists_findings_iff (h : ∀ r ∈ rules, r.IsFitted) (source : List Char) :
    (∃ found, rules.findings source = .ok found) ↔
      ∀ r ∈ rules, r.pattern.ofOctets = false := by
  rw [exists_findings_iff_forall]
  exact forall₂_congr fun r hr => (h r hr).exists_findings_iff source

/-- A pattern over bytes is all that can break off the findings. -/
theorem eq_patternOfOctets_of_findings (h : ∀ r ∈ rules, r.IsFitted)
    (hf : rules.findings source = .error f) : f = .patternOfOctets := by
  induction rules with
  | nil => cases hf
  | cons r rules ih =>
    obtain ⟨hr, hrules⟩ := List.forall_mem_cons.mp h
    rcases bind_eq_error_iff.mp hf with hf | ⟨fs, -, hf⟩
    · exact hr.eq_patternOfOctets hf
    · exact ih hrules (bind_pure_eq_error_iff.mp hf)

end Rules

/-! ## Scans and analyses -/

/-- The analysis that comes from findings. -/
def Analysis.ofFindings (source : List Char) (name : Option String) (found : List Finding) :
    Analysis :=
  ⟨Usage.tidy (found.map Finding.usage), Usage.imports source, name⟩

namespace Rules

theorem orBuiltin_builtin_append (own : Rules) : (builtin ++ own).orBuiltin = builtin ++ own :=
  rfl

theorem orBuiltin_orBuiltin (rules : Rules) : rules.orBuiltin.orBuiltin = rules.orBuiltin := by
  cases rules <;> rfl

theorem result_scan (rules : Rules) (source : List Char) :
    (rules.scan source).result = rules.orBuiltin.findings source := by
  simp only [scan, Logged.result_bind]
  cases rules.orBuiltin.findings source <;> rfl

/-- An analysis comes from what the rules find. -/
theorem result_analyze (rules : Rules) (source : List Char) (name : Option String) :
    (rules.analyze source name).result =
      (rules.orBuiltin.findings source).map (.ofFindings source name) := by
  simp only [analyze, Logged.result_bind, result_scan, orBuiltin_orBuiltin]
  cases rules.orBuiltin.findings source <;> rfl

end Rules

end Assay
