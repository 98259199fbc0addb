import Assay.Proofs.Usage.Builtin

/-!
# Modes that stand for something else

The direction of a usage is told by its mode, and two modes are no modes of files: one stands for
arguments and one for environment variables. The rules for these give them as modes, and all other
rules with a mode of their own have another one. The rules for calls of `open` read the mode from
the text, though, and a text can name any mode.

So a file that is opened with one of the two modes is filed under arguments or under environment
variables. Nothing else is filed wrongly, and where no call names such a mode direction and category
agree.

## Main definitions

* `Usage.Agrees` — direction and category of a usage agree
* `Extractor.ownMode?` — the mode that a rule has of its own
* `Match.NamesTag` — the mode in a match stands for something else
* `Rules.openRules` — the rules for calls of `open`

## Main results

* `ofMode_eq_argument_iff`, `ofMode_eq_environment_iff` — the modes that are no modes of files
* `mode_of_extract` — where the mode of an extraction comes from
* `analyze_agrees_iff` — direction and category agree just when no call names such a mode
-/

namespace Assay

/-! ## Directions -/

namespace Direction

variable {mode : String}

/-- The mode of a file stands for neither. -/
theorem ofMode_ne_of_ne (harg : mode ≠ "arg") (henv : mode ≠ "env") :
    ofMode mode ≠ argument ∧ ofMode mode ≠ environment := by
  rw [ofMode, if_neg harg, if_neg henv]
  split
  · decide
  · split <;> decide

theorem ofMode_eq_argument_iff : ofMode mode = argument ↔ mode = "arg" := by
  refine ⟨fun h => ?_, fun h => h ▸ rfl⟩
  by_contra harg
  by_cases henv : mode = "env"
  · rw [henv] at h
    cases h
  · exact (ofMode_ne_of_ne harg henv).1 h

theorem ofMode_eq_environment_iff : ofMode mode = environment ↔ mode = "env" := by
  refine ⟨fun h => ?_, fun h => h ▸ rfl⟩
  by_contra henv
  by_cases harg : mode = "arg"
  · rw [harg] at h
    cases h
  · exact (ofMode_ne_of_ne harg henv).2 h

end Direction

/-- Direction and category of a usage agree: both or neither tell of an argument, and both or
neither of an environment variable. -/
def Usage.Agrees (u : Usage) : Prop :=
  (u.direction = .argument ↔ u.category = .argument) ∧
    (u.direction = .environment ↔ u.category = .environment)

/-! ## Where modes come from -/

/-- The mode in a match stands for something else: for an argument, or for an environment
variable. -/
def Match.NamesTag (m : Match) : Prop :=
  m.group? Slot.mode.group = some "arg".toList ∨ m.group? Slot.mode.group = some "env".toList

namespace Extractor

variable {e : Extractor} {m : Match} {x : Extraction}

/-- The mode that is the same for all matches, if there is one. -/
def ownMode? : Extractor → Option String
  | openCall _ | openVariable => none
  | pathCall mode _ _ | handleCall _ mode _ _ | literalCall mode _ _ | captured _ mode _ _ _ =>
    some mode
  | option | position => some "arg"
  | environment => some "env"

/-- The mode of an extraction is the rule's own, or what the match names. -/
theorem mode_of_extract (h : e.extract m = .ok x) :
    x.mode = e.ownMode?.getD (orElse m Slot.mode.group "r") := by
  cases e with
  | openCall | openVariable | pathCall | handleCall | literalCall | option | position
  | environment =>
    obtain ⟨_, -, h⟩ := bind_eq_ok_iff.mp h
    cases h
    rfl
  | captured =>
    cases h
    rfl

/-- What is read as a mode is a text that the match names, unless it is the default one. -/
theorem orElse_eq_iff {s default : String} (hs : s ≠ "") (hdefault : s ≠ default) {n : Nat} :
    orElse m n default = s ↔ m.group? n = some s.toList := by
  rw [orElse]
  cases hgroup : m.group? n with
  | none => simpa using hdefault.symm
  | some cs =>
    cases cs with
    | nil =>
      have hne : [] ≠ s.toList := fun h => hs (String.toList_eq_nil_iff.mp h.symm)
      simpa [hne] using hdefault.symm
    | cons c cs =>
      simp [← String.toList_inj]

theorem namesTag_iff :
    m.NamesTag ↔ orElse m Slot.mode.group "r" = "arg" ∨ orElse m Slot.mode.group "r" = "env" := by
  rw [orElse_eq_iff (by decide) (by decide), orElse_eq_iff (by decide) (by decide)]
  rfl

end Extractor

/-! ## Usages of the built-in rules -/

namespace Rules

variable {source : List Char} {found : List Finding} {r : Rule} {m : Match} {f : Finding}

/-- A rule with a mode of its own has the one of its category. -/
theorem agrees_ownMode_of_mem_builtin : ∀ r ∈ builtin, ∀ mode ∈ r.extractor.ownMode?,
    (Direction.ofMode mode = .argument ↔ r.category = .argument) ∧
      (Direction.ofMode mode = .environment ↔ r.category = .environment) := by
  decide +kernel

/-- The rules for calls of `open`, which come before all others. -/
def openRules : Rules := builtin.take 3

/-- The rules behind those for calls of `open`. -/
def otherRules : Rules := builtin.drop 3

theorem openRules_append_otherRules : openRules ++ otherRules = builtin :=
  List.take_append_drop 3 builtin

theorem category_of_mem_openRules : ∀ r ∈ openRules, r.category = .file := by decide

theorem ownMode?_ne_none_of_mem_otherRules : ∀ r ∈ otherRules, r.extractor.ownMode? ≠ none := by
  decide

/-- Only the rules for calls of `open` read the mode. -/
theorem mem_openRules_of_ownMode?_eq_none (hr : r ∈ builtin) (h : r.extractor.ownMode? = none) :
    r ∈ openRules := by
  rw [← openRules_append_otherRules] at hr
  exact (List.mem_append.mp hr).resolve_right fun hr => ownMode?_ne_none_of_mem_otherRules r hr h

/-- The mode of a usage that a match names. -/
theorem mode_usage_of_finding (hf : r.finding m = .ok f) (h : r.extractor.ownMode? = none) :
    f.usage.mode = Extractor.orElse m Slot.mode.group "r" := by
  have hmode := Extractor.mode_of_extract (Rule.finding_eq_ok_iff.mp hf).extract_eq
  rwa [h] at hmode

theorem category_usage_of_finding (hf : r.finding m = .ok f) : f.usage.category = r.category :=
  (Rule.finding_eq_ok_iff.mp hf).category_eq

/-- A usage with a mode that the rule has of its own agrees. -/
theorem agrees_of_ownMode (hr : r ∈ builtin) (hf : r.finding m = .ok f) {mode : String}
    (h : r.extractor.ownMode? = some mode) : f.usage.Agrees := by
  have hmode : f.usage.mode = mode := by
    have hmode := Extractor.mode_of_extract (Rule.finding_eq_ok_iff.mp hf).extract_eq
    rwa [h] at hmode
  have hagrees := agrees_ownMode_of_mem_builtin r hr mode h
  rw [← hmode, ← category_usage_of_finding hf] at hagrees
  exact hagrees

/-- A usage with a mode that is read agrees unless the match names a mode that stands for something
else. -/
theorem agrees_iff_of_ownMode?_eq_none (hr : r ∈ builtin) (hf : r.finding m = .ok f)
    (h : r.extractor.ownMode? = none) : f.usage.Agrees ↔ ¬ m.NamesTag := by
  have hcategory : f.usage.category = .file := by
    rw [category_usage_of_finding hf]
    exact category_of_mem_openRules r (mem_openRules_of_ownMode?_eq_none hr h)
  have hdirection : f.usage.direction = Direction.ofMode f.usage.mode := rfl
  rw [Usage.Agrees, hcategory, hdirection, Direction.ofMode_eq_argument_iff,
    Direction.ofMode_eq_environment_iff, mode_usage_of_finding hf h, Extractor.namesTag_iff]
  simp

/-- What a rule that reads the mode finds is listed with the category of files, though perhaps as
another such rule finds it. -/
theorem FindsBuiltin.exists_usage_of_file (h : FindsBuiltin source found) (hr : r ∈ builtin)
    (hown : r.extractor.ownMode? = none) (hm : m ∈ r.pattern.body.findAll source)
    (hf : r.finding m = .ok f) (name : Option String) :
    ∃ u ∈ (Analysis.ofFindings source name found).usages,
      u.identity = f.usage.identity ∧ u.category = .file := by
  -- The findings of these rules come first, and the first finding of an identity is listed.
  rw [FindsBuiltin, ← openRules_append_otherRules, allMatches_append, List.mapM_append] at h
  obtain ⟨fs, hfs, h⟩ := bind_eq_ok_iff.mp h
  obtain ⟨gs, -, h⟩ := bind_eq_ok_iff.mp h
  cases h
  obtain ⟨f', hmem, hf'⟩ := exists_result_of_mapM_eq_ok hfs
    (mem_allMatches_iff.mpr ⟨mem_openRules_of_ownMode?_eq_none hr hown, hm⟩)
  obtain rfl : f = f' := Except.ok.inj (hf.symm.trans hf')
  obtain ⟨u, hu, hidentity⟩ := Usage.exists_isFirstIn_of_mem (List.mem_map_of_mem hmem)
  refine ⟨u, ?_, hidentity, ?_⟩
  · rw [Analysis.ofFindings, Usage.mem_tidy_iff, List.map_append]
    exact hu.append _
  · obtain ⟨f', hmem, rfl⟩ := List.mem_map.mp hu.mem
    obtain ⟨r', hr', m', -, hf'⟩ := exists_of_mem_found hfs hmem
    rw [category_usage_of_finding hf']
    exact category_of_mem_openRules r' hr'

/-- **Direction and category.** With the built-in rules an argument is filed under arguments, an
environment variable under environment variables, and of all else only files can be filed there,
opened with one of the two modes that stand for these. So direction and category agree if and only
if no call of `open` in the text names such a mode. -/
theorem analyze_agrees_iff (source : List Char) (name : Option String) :
    ∃ a, (builtin.analyze source name).result = .ok a ∧
      (∀ u ∈ a.usages, u.Agrees ∨ u.category = .file ∧ (u.mode = "arg" ∨ u.mode = "env")) ∧
      ((∀ u ∈ a.usages, u.Agrees) ↔
        ∀ r ∈ builtin, r.extractor.ownMode? = none →
          ∀ m ∈ r.pattern.body.findAll source, ¬ m.NamesTag) := by
  obtain ⟨found, hfound, ha⟩ := exists_analyze_builtin source name
  refine ⟨_, ha, fun u hu => ?_, ?_, ?_⟩
  · obtain ⟨r, hr, m, -, f, hf, rfl⟩ := hfound.exists_of_mem_usages hu
    cases hown : r.extractor.ownMode? with
    | some mode => exact .inl (agrees_of_ownMode hr hf hown)
    | none =>
      by_cases htag : m.NamesTag
      · refine .inr ⟨?_, ?_⟩
        · rw [category_usage_of_finding hf]
          exact category_of_mem_openRules r (mem_openRules_of_ownMode?_eq_none hr hown)
        · rw [mode_usage_of_finding hf hown]
          exact Extractor.namesTag_iff.mp htag
      · exact .inl ((agrees_iff_of_ownMode?_eq_none hr hf hown).mpr htag)
  · intro hagrees r hr hown m hm htag
    obtain ⟨f, -, hf⟩ := hfound.exists_finding_of_mem hr hm
    obtain ⟨u, hu, hidentity, hcategory⟩ := hfound.exists_usage_of_file hr hown hm hf name
    have hmode : u.mode = f.usage.mode := congrArg (·.2.1) hidentity
    have hdirection : u.direction = Direction.ofMode u.mode :=
      (covers_ofFindings hfound name).direction_eq u hu
    obtain ⟨hargument, henvironment⟩ := hagrees u hu
    rw [hdirection, hcategory] at hargument henvironment
    rcases Extractor.namesTag_iff.mp htag with hread | hread
    · rw [hmode, mode_usage_of_finding hf hown, hread] at hargument
      cases hargument.mp rfl
    · rw [hmode, mode_usage_of_finding hf hown, hread] at henvironment
      cases henvironment.mp rfl
  · intro hall u hu
    obtain ⟨r, hr, m, hm, f, hf, rfl⟩ := hfound.exists_of_mem_usages hu
    cases hown : r.extractor.ownMode? with
    | some mode => exact agrees_of_ownMode hr hf hown
    | none => exact (agrees_iff_of_ownMode?_eq_none hr hf hown).mpr (hall r hr hown m hm)

/-- A file that is opened with the mode of environment variables is filed under these. -/
theorem analyze_files_under_environment :
    ∃ a, (builtin.analyze "f = open(\"a.txt\", \"env\")\n".toList none).result = .ok a ∧
      (a.ofDirection .environment).map Usage.category = [.file] :=
  exists_of_map_toOption_eq_some
    (g := fun a : Analysis => (a.ofDirection .environment).map Usage.category) (by decide +kernel)

end Rules

end Assay
