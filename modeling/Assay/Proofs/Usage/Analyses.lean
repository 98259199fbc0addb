import Mathlib.Algebra.GroupWithZero.Nat
import Assay.Proofs.Usage.Findings
import Assay.Proofs.Usage.Tidy

/-!
# What an analysis says

With the built-in rules and those of definitions, an analysis lists one usage for everything
that the scan finds, on the line and with the text of a match, and files it under one
direction. Rules of definitions add usages behind those of the built-in rules and change none
of these.

There should be an analysis of every text with all rules that have been accepted. A definition
may give its regular expression in bytes, though: it is accepted, and the first text that is
analyzed breaks off on it. Nothing else gets in the way of an analysis.

## Main definitions

* `Usage.StandsIn` — a usage has the text and the line of a place in a text
* `Analysis.Covers` — an analysis agrees with what has been found
* `Analysis.Extends` — an analysis with more rules keeps all of another one

## Main results

* `exists_analyze_iff` — when there is an analysis, and what extractors find in matches
* `analyze_covers_iff` — an analysis agrees with the findings
* `analyze_extends_iff` — rules of definitions take nothing away
-/

namespace Assay

/-! ## Usages and their places -/

/-- A usage has the text of a place in a program text, and the line of that place. -/
def Usage.StandsIn (u : Usage) (source : List Char) : Prop :=
  ∃ o ≤ source.length, (source.drop o).take u.raw.length = u.raw.toList ∧
    u.line = (source.take o).count '\n' + 1

namespace Rule

variable {r : Rule} {m : Match} {f : Finding} {source : List Char}

/-- A usage stands where its match does. -/
theorem standsIn_of_finding (hm : m ∈ r.pattern.body.findAll source)
    (h : r.finding m = .ok f) : f.usage.StandsIn source := by
  have hreports := finding_eq_ok_iff.mp h
  have hstands := Regex.standsIn_of_mem_findAll hm
  refine ⟨m.start.offset, hstands.offset_le, ?_, ?_⟩
  · change (source.drop m.start.offset).take f.raw.length = f.raw.toList
    rw [hreports.raw_eq, String.length_ofList, String.toList_ofList]
    exact hstands.take_drop
  · change (f.line : Int) = _
    rw [hreports.line_eq, hstands.line_eq]
    rfl

end Rule

/-! ## Directions -/

/-- Items are put in order by their keys without loss. -/
theorem perm_flatMap_filter {α κ : Type} [DecidableEq κ] (key : α → κ) {ks : List κ}
    (hks : ks.Nodup) {xs : List α} (hxs : ∀ x ∈ xs, key x ∈ ks) :
    (ks.flatMap fun k => xs.filter fun x => key x = k).Perm xs := by
  induction ks generalizing xs with
  | nil =>
    obtain rfl := List.eq_nil_iff_forall_not_mem.mpr fun x hx => List.not_mem_nil (hxs x hx)
    exact .nil
  | cons k ks ih =>
    obtain ⟨hk, hks⟩ := List.nodup_cons.mp hks
    -- The items of other keys are those that are left when the ones of the first key are taken.
    have hothers : (ks.flatMap fun l => xs.filter fun x => key x = l) =
        ks.flatMap fun l => (xs.filter fun x => !decide (key x = k)).filter fun x => key x = l := by
      refine List.flatMap_congr fun l hl => ?_
      rw [List.filter_filter]
      refine List.filter_congr fun x _ => ?_
      have hlk : l ≠ k := fun h => hk (h ▸ hl)
      by_cases hx : key x = l <;> simp [hx, hlk]
    have hleft : ∀ x ∈ xs.filter (fun x => !decide (key x = k)), key x ∈ ks := by
      intro x hx
      obtain ⟨hx, hxk⟩ := List.mem_filter.mp hx
      exact (List.mem_cons.mp (hxs x hx)).resolve_left (by simpa using hxk)
    rw [List.flatMap_cons, hothers]
    exact ((ih hks hleft).append_left _).trans (List.filter_append_perm _ xs)

namespace Analysis

/-- An analysis agrees with what has been found in a text. -/
structure Covers (a : Analysis) (source : List Char) (found : List Finding) : Prop where
  lines_sorted : a.usages.Pairwise fun u v => u.line ≤ v.line
  identities_nodup : (a.usages.map Usage.identity).Nodup
  stands : ∀ u ∈ a.usages, u.StandsIn source
  direction_eq : ∀ u ∈ a.usages, u.direction = Direction.ofMode u.mode
  /-- Everything found has a usage of its identity, which is that of the earliest such
  finding. -/
  complete : ∀ f ∈ found, ∃ u ∈ a.usages, u.identity = f.usage.identity ∧
    u.IsFirstIn (found.map Finding.usage)
  /-- Nothing else is a usage. -/
  sound : ∀ u ∈ a.usages, ∃ f ∈ found, u = f.usage
  /-- Every usage has one direction. -/
  partition : (Direction.all.flatMap a.ofDirection).Perm a.usages
  ofDirection_sorted : ∀ d, (a.ofDirection d).Pairwise fun u v => u.line ≤ v.line
  counts_eq : ∀ d, a.counts.lookup d = some (a.ofDirection d).length
  counts_sum : (a.counts.map Prod.snd).sum = a.usages.length

/-- An analysis with rules behind those of another one keeps all of it. -/
structure Extends (b a : Analysis) (own : Rules) (source : List Char) : Prop where
  usages_sublist : a.usages.Sublist b.usages
  identities_nodup : (b.usages.map Usage.identity).Nodup
  /-- A usage that is added comes from a match of a rule behind the others, and there was none
  of its identity. -/
  added : ∀ u ∈ b.usages, u ∈ a.usages ∨
    u.identity ∉ a.usages.map Usage.identity ∧
      ∃ r ∈ own, ∃ m ∈ r.pattern.body.findAll source, ∃ f, r.finding m = .ok f ∧ u = f.usage
  imports_eq : b.imports = a.imports

variable (a : Analysis)

theorem perm_flatMap_ofDirection : (Direction.all.flatMap a.ofDirection).Perm a.usages :=
  perm_flatMap_filter Usage.direction (by decide) fun u _ => u.direction.mem_all

theorem lookup_counts (d : Direction) : a.counts.lookup d = some (a.ofDirection d).length := by
  cases d <;> rfl

theorem sum_counts : (a.counts.map Prod.snd).sum = a.usages.length := by
  rw [← a.perm_flatMap_ofDirection.length_eq, List.length_flatMap, counts, List.map_map]
  rfl

end Analysis

/-! ## Configured rules -/

/-- A definition of a rule for calls of `open`, with its regular expression. -/
def Rule.openDefinition (regex : Setting) : Fields Key Setting :=
  [(.text "name", .text "raw_open"), (.text "regex", regex)]

theorem Rule.lookup_regex_openDefinition (regex : Setting) :
    Config.lookup "regex" (openDefinition regex) = some regex := rfl

theorem Rule.not_overOctets_openDefinition (s : String) :
    ∀ d ∈ [openDefinition (.text s)], ¬ OverOctets d := by
  simp [OverOctets, lookup_regex_openDefinition]

theorem Rule.overOctets_openDefinition (bytes : List Nat) :
    OverOctets (openDefinition (.foreign (.datum (.octets bytes)))) :=
  ⟨bytes, lookup_regex_openDefinition _⟩

namespace Rules

variable {ds : List (Fields Key Setting)} {rules : Rules} {found : List Finding}
  {source : List Char}

/-- There are findings just when no definition gives bytes. -/
theorem exists_findings_iff_of_configured (h : (configured ds).result = .ok rules)
    (source : List Char) :
    (∃ found, rules.findings source = .ok found) ↔ ∀ d ∈ ds, ¬ Rule.OverOctets d := by
  rw [exists_findings_iff (isFitted_of_configured h)]
  obtain ⟨own, hown, rfl⟩ := exists_own_of_configured h
  rw [List.forall_mem_append, ← forall_ofOctets_eq_false_iff hown]
  exact and_iff_right ofOctets_of_mem_builtin

theorem result_analyze_of_configured (h : (configured ds).result = .ok rules)
    (source : List Char) (name : Option String) :
    (rules.analyze source name).result =
      (rules.findings source).map (.ofFindings source name) := by
  obtain ⟨own, -, rfl⟩ := exists_own_of_configured h
  rw [result_analyze, orBuiltin_builtin_append]

theorem result_scan_of_configured (h : (configured ds).result = .ok rules)
    (source : List Char) : (rules.scan source).result = rules.findings source := by
  obtain ⟨own, -, rfl⟩ := exists_own_of_configured h
  rw [result_scan, orBuiltin_builtin_append]

/-- Bytes break off every search. -/
theorem findings_of_overOctets (h : (configured ds).result = .ok rules)
    {d : Fields Key Setting} (hd : d ∈ ds) (hoctets : Rule.OverOctets d) (source : List Char) :
    rules.findings source = .error .patternOfOctets := by
  cases hfound : rules.findings source with
  | ok found =>
    exact absurd hoctets ((exists_findings_iff_of_configured h source).mp ⟨found, hfound⟩ d hd)
  | error f => rw [eq_patternOfOctets_of_findings (isFitted_of_configured h) hfound]

/-- A definition is accepted with a regular expression, and with the bytes of it. -/
theorem exists_configured_openDefinition :
    ∃ rules, (configured [Rule.openDefinition (.text "(open)")]).result = .ok rules ∧
      rules.length = 28 :=
  exists_of_map_toOption_eq_some (by decide +kernel)

theorem exists_configured_openDefinition_octets :
    ∃ rules, (configured [Rule.openDefinition
      (.foreign (.datum (.octets [40, 111, 112, 101, 110, 41])))]).result = .ok rules ∧
        rules.length = 28 :=
  exists_of_map_toOption_eq_some (by decide +kernel)

theorem exists_analyze_iff_of_configured (h : (configured ds).result = .ok rules)
    (name : Option String) :
    (∃ a, (rules.analyze source name).result = .ok a) ↔ ∀ d ∈ ds, ¬ Rule.OverOctets d := by
  rw [result_analyze_of_configured h, exists_map_eq_ok_iff, exists_findings_iff_of_configured h]

/-- **Extractors do not fail.** With the built-in rules and those of definitions, every group
that an extractor reads stands in its expression, and those that have to be there take part in
every match, so that every match has its extraction. There is an analysis if and only if no
definition gives bytes as its regular expression, and nothing else breaks it off. -/
theorem exists_analyze_iff (h : (configured ds).result = .ok rules)
    (source name : Option String) :
    ((∃ a, (rules.analyze (source.getD "").toList name).result = .ok a) ↔
        ∀ d ∈ ds, ¬ Rule.OverOctets d) ∧
      (∀ f, (rules.analyze (source.getD "").toList name).result = .error f →
        f = .patternOfOctets) ∧
      ∀ r ∈ rules, (∀ n ∈ r.extractor.groups, r.pattern.HasGroup n) ∧
        ∀ m ∈ r.pattern.body.findAll (source.getD "").toList,
          (∀ n ∈ r.extractor.demanded, (m.group? n).isSome = true) ∧
            ∃ x, r.extractor.extract m = .ok x := by
  have hfitted := isFitted_of_configured h
  refine ⟨exists_analyze_iff_of_configured h name, fun f hf => ?_, fun r hr => ?_⟩
  · rw [result_analyze_of_configured h, map_eq_error_iff] at hf
    exact eq_patternOfOctets_of_findings hfitted hf
  · exact ⟨(hfitted r hr).hasGroup, fun m hm =>
      ⟨fun n hn => (hfitted r hr).isSome_group? hm hn, (hfitted r hr).exists_extract hm⟩⟩

/-- There is an analysis with one more rule. -/
theorem exists_analyze_open_call :
    ∃ rules, (configured [Rule.openDefinition (.text "(open)")]).result = .ok rules ∧
      rules.length = 28 ∧
      ∃ a, (rules.analyze ((some "f = open(\"in.csv\")\n").getD "").toList none).result = .ok a := by
  obtain ⟨rules, h, hlength⟩ := exists_configured_openDefinition
  exact ⟨rules, h, hlength, (exists_analyze_iff h (some "f = open(\"in.csv\")\n") none).1.mpr
    (Rule.not_overOctets_openDefinition _)⟩

/-- A rule with the bytes of the same regular expression is accepted, and breaks off the
analysis of a text. -/
theorem analyze_bytes_regex :
    ∃ rules, (configured [Rule.openDefinition
        (.foreign (.datum (.octets [40, 111, 112, 101, 110, 41])))]).result = .ok rules ∧
      (rules.analyze "f = open(\"in.csv\")\n".toList none).result =
        .error .patternOfOctets := by
  obtain ⟨rules, h, -⟩ := exists_configured_openDefinition_octets
  refine ⟨rules, h, ?_⟩
  rw [result_analyze_of_configured h,
    findings_of_overOctets h List.mem_cons_self (Rule.overOctets_openDefinition _)]
  rfl

/-! ## One analysis -/

theorem exists_of_mem_found
    (h : (rules.allMatches source).mapM (fun p => p.1.finding p.2) = .ok found) {f : Finding}
    (hf : f ∈ found) :
    ∃ r ∈ rules, ∃ m ∈ r.pattern.body.findAll source, r.finding m = .ok f := by
  obtain ⟨⟨r, m⟩, hmem, hfinding⟩ := exists_of_mem_of_mapM_eq_ok h hf
  obtain ⟨hr, hm⟩ := mem_allMatches_iff.mp hmem
  exact ⟨r, hr, m, hm, hfinding⟩

theorem covers_ofFindings
    (h : (rules.allMatches source).mapM (fun p => p.1.finding p.2) = .ok found)
    (name : Option String) : (Analysis.ofFindings source name found).Covers source found := by
  have hsound : ∀ u ∈ Usage.tidy (found.map Finding.usage), ∃ f ∈ found, u = f.usage := by
    intro u hu
    obtain ⟨f, hf, rfl⟩ := List.mem_map.mp (Usage.mem_tidy_iff.mp hu).mem
    exact ⟨f, hf, rfl⟩
  refine ⟨Usage.pairwise_tidy _, Usage.nodup_tidy _, fun u hu => ?_, fun u hu => ?_,
    fun f hf => ?_, hsound, Analysis.perm_flatMap_ofDirection _,
    fun d => (Usage.pairwise_tidy _).filter _, Analysis.lookup_counts _, Analysis.sum_counts _⟩
  · obtain ⟨f, hf, rfl⟩ := hsound u hu
    obtain ⟨r, -, m, hm, hfinding⟩ := exists_of_mem_found h hf
    exact Rule.standsIn_of_finding hm hfinding
  · obtain ⟨f, -, rfl⟩ := hsound u hu
    rfl
  · obtain ⟨u, hu, hidentity⟩ := Usage.exists_isFirstIn_of_mem (List.mem_map_of_mem hf)
    exact ⟨u, Usage.mem_tidy_iff.mpr hu, hidentity, hu⟩

/-- **An analysis agrees with the scan.** The scan reports the matches of the rules, rule by
rule and each from left to right, and the analysis covers what it reports, if and only if no
definition gives bytes as its regular expression. -/
theorem analyze_covers_iff (h : (configured ds).result = .ok rules) (source : List Char)
    (name : Option String) :
    (∃ found a, (rules.scan source).result = .ok found ∧
        (rules.allMatches source).mapM (fun p => p.1.finding p.2) = .ok found ∧
        (∀ r ∈ rules, (r.pattern.body.findAll source).Pairwise
          fun m n => m.start.offset ≤ n.start.offset) ∧
        (rules.analyze source name).result = .ok a ∧ a.Covers source found) ↔
      ∀ d ∈ ds, ¬ Rule.OverOctets d := by
  constructor
  · rintro ⟨found, a, -, -, -, ha, -⟩
    exact (exists_analyze_iff_of_configured h name).mp ⟨a, ha⟩
  · intro hds
    obtain ⟨found, hfound⟩ := (exists_findings_iff_of_configured h source).mpr hds
    have hmatches : (rules.allMatches source).mapM (fun p => p.1.finding p.2) = .ok found := by
      rw [← findings_eq_mapM ((exists_findings_iff (isFitted_of_configured h) source).mp ⟨_, hfound⟩)]
      exact hfound
    refine ⟨found, _, (result_scan_of_configured h source).trans hfound, hmatches,
      fun r _ => Regex.pairwise_findAll _ _, ?_, covers_ofFindings hmatches name⟩
    rw [result_analyze_of_configured h, hfound]
    rfl

/-- A usage that two rules find is found twice and listed once. -/
theorem analyze_covers_open_call :
    ∃ rules, (configured [Rule.openDefinition (.text "(open)")]).result = .ok rules ∧
      ∃ found a, (rules.scan "f = open(\"in.csv\")\n".toList).result = .ok found ∧
        (rules.analyze "f = open(\"in.csv\")\n".toList none).result = .ok a ∧
        a.Covers "f = open(\"in.csv\")\n".toList found := by
  obtain ⟨rules, h, -⟩ := exists_configured_openDefinition
  obtain ⟨found, a, hscan, -, -, ha, hcovers⟩ :=
    (analyze_covers_iff h "f = open(\"in.csv\")\n".toList none).mpr
      (Rule.not_overOctets_openDefinition _)
  exact ⟨rules, h, found, a, hscan, ha, hcovers⟩

/-- With bytes as the regular expression there are neither findings nor usages. -/
theorem scan_bytes_regex :
    ∃ rules, (configured [Rule.openDefinition
        (.foreign (.datum (.octets [40, 111, 112, 101, 110, 41])))]).result = .ok rules ∧
      (∀ found, (rules.scan "f = open(\"in.csv\")\n".toList).result ≠ .ok found) ∧
      ∀ a, (rules.analyze "f = open(\"in.csv\")\n".toList none).result ≠ .ok a := by
  obtain ⟨rules, h, -⟩ := exists_configured_openDefinition_octets
  have hbroken := findings_of_overOctets h List.mem_cons_self (Rule.overOctets_openDefinition _)
  refine ⟨rules, h, fun found hfound => ?_, fun a ha => ?_⟩
  · rw [result_scan_of_configured h, hbroken] at hfound
    cases hfound
  · rw [result_analyze_of_configured h, hbroken] at ha
    cases ha

/-! ## Two analyses -/

theorem extends_ofFindings {own : Rules} {gs : List Finding}
    (hgs : (own.allMatches source).mapM (fun p => p.1.finding p.2) = .ok gs)
    (name : Option String) (fs : List Finding) :
    (Analysis.ofFindings source name (fs ++ gs)).Extends (.ofFindings source name fs) own
      source := by
  rw [Analysis.ofFindings, Analysis.ofFindings, List.map_append]
  refine ⟨Usage.tidy_sublist_tidy_append _ _, Usage.nodup_tidy _, fun u hu => ?_, rfl⟩
  rcases (Usage.mem_tidy_iff.mp hu).of_append with hu | ⟨hu, hother⟩
  · exact .inl (Usage.mem_tidy_iff.mpr hu)
  · refine .inr ⟨fun hmem => ?_, ?_⟩
    · obtain ⟨v, hv, hidentity⟩ := List.mem_map.mp hmem
      exact hother v (Usage.mem_tidy_iff.mp hv).mem hidentity
    · obtain ⟨g, hg, rfl⟩ := List.mem_map.mp hu
      obtain ⟨r, hr, m, hm, hfinding⟩ := exists_of_mem_found hgs hg
      exact ⟨r, hr, m, hm, g, hfinding, rfl⟩

/-- **Rules of definitions take nothing away.** What the built-in rules find is found with
them as well, unchanged and in the same order, and all else comes from a match of one of them,
if and only if no definition gives bytes as its regular expression. -/
theorem analyze_extends_iff (h : (configured ds).result = .ok rules) (source : List Char)
    (name : Option String) :
    (∃ own a b, ds.mapM Rule.ofDefinition = .ok own ∧ rules = builtin ++ own ∧
        (builtin.analyze source name).result = .ok a ∧
        (rules.analyze source name).result = .ok b ∧ b.Extends a own source) ↔
      ∀ d ∈ ds, ¬ Rule.OverOctets d := by
  constructor
  · rintro ⟨own, a, b, -, -, -, hb, -⟩
    exact (exists_analyze_iff_of_configured h name).mp ⟨b, hb⟩
  · intro hds
    obtain ⟨own, hown, rfl⟩ := exists_own_of_configured h
    have hchars := (forall_ofOctets_eq_false_iff hown).mpr hds
    obtain ⟨found, hfound⟩ := (exists_findings_iff_of_configured h source).mpr hds
    have hmatches := hfound
    rw [findings_eq_mapM (List.forall_mem_append.mpr ⟨ofOctets_of_mem_builtin, hchars⟩),
      allMatches_append, List.mapM_append] at hmatches
    -- The findings of the built-in rules come first.
    obtain ⟨fs, hfs, hmatches⟩ := bind_eq_ok_iff.mp hmatches
    obtain ⟨gs, hgs, hmatches⟩ := bind_eq_ok_iff.mp hmatches
    cases hmatches
    refine ⟨own, _, _, hown, rfl, ?_, ?_, extends_ofFindings hgs name fs⟩
    · rw [result_analyze]
      change (builtin.findings source).map _ = _
      rw [findings_eq_mapM ofOctets_of_mem_builtin, hfs]
      rfl
    · rw [result_analyze_of_configured h, hfound]
      rfl

/-- A usage of the built-in rules is kept beside one more rule. -/
theorem analyze_extends_open_call :
    ∃ rules, (configured [Rule.openDefinition (.text "(open)")]).result = .ok rules ∧
      ∃ own a b, rules = builtin ++ own ∧
        (builtin.analyze "f = open(\"in.csv\")\n".toList none).result = .ok a ∧
        (rules.analyze "f = open(\"in.csv\")\n".toList none).result = .ok b ∧
        b.Extends a own "f = open(\"in.csv\")\n".toList := by
  obtain ⟨rules, h, -⟩ := exists_configured_openDefinition
  obtain ⟨own, a, b, -, hrules, ha, hb, hextends⟩ :=
    (analyze_extends_iff h "f = open(\"in.csv\")\n".toList none).mpr
      (Rule.not_overOctets_openDefinition _)
  exact ⟨rules, h, own, a, b, hrules, ha, hb, hextends⟩

/-- The usage that the built-in rules find is lost behind a rule over bytes. -/
theorem analyze_loses_usage :
    ∃ rules a, (builtin.analyze "f = open(\"in.csv\")\n".toList none).result = .ok a ∧
      a.usages.length = 1 ∧
      (configured [Rule.openDefinition
        (.foreign (.datum (.octets [40, 111, 112, 101, 110, 41])))]).result = .ok rules ∧
      ∀ b, (rules.analyze "f = open(\"in.csv\")\n".toList none).result ≠ .ok b := by
  obtain ⟨a, ha, hlength⟩ := exists_of_map_toOption_eq_some
    (x := (builtin.analyze "f = open(\"in.csv\")\n".toList none).result)
    (g := fun a => a.usages.length) (b := 1) (by decide +kernel)
  obtain ⟨rules, h, -⟩ := exists_configured_openDefinition_octets
  refine ⟨rules, a, ha, hlength, h, fun b hb => ?_⟩
  rw [result_analyze_of_configured h,
    findings_of_overOctets h List.mem_cons_self (Rule.overOctets_openDefinition _)] at hb
  cases hb

end Rules

end Assay
