import Assay.Proofs.Regex.Captures
import Assay.Proofs.Usage.Rules

/-!
# What extractors read

An extractor reads certain groups of a match. For some of them there is something to put in
their place; the others have to be there. An expression in which the groups that have to be
there take part in every match cannot fail its extractor, and all rules have one: the built-in
rules by their expressions, and those of definitions since they ask for nothing that has to be
there.

## Main definitions

* `Extractor.groups`, `Extractor.demanded` — the groups that are read, and those that have to
  be there
* `Rule.IsFitted` — the extractor of a rule is made for its pattern

## Main results

* `extract_congr`, `exists_extract_iff` — an extraction depends on these groups alone
* `isFitted_of_mem_builtin`, `isFitted_of_configured` — all rules are fitted
* `IsFitted.exists_extract` — a fitted rule reads all its matches
-/

namespace Assay

/-! ## One extractor -/

namespace Extractor

/-- The groups that are read. -/
def groups : Extractor → List Nat
  | openCall _ =>
    [Slot.path.group, Slot.quote.group, Slot.mode.group, Slot.encoding.group]
  | openVariable => [Slot.symbol.group, Slot.mode.group, Slot.encoding.group]
  | pathCall .. => [Slot.path.group, Slot.quote.group]
  | handleCall .. | environment => [Slot.symbol.group]
  | literalCall .. => [Slot.path.group]
  | option => [Slot.flag.group]
  | position => [Slot.index.group]
  | captured group .. => [group]

/-- The groups that have to be there, since nothing can be put in their place. -/
def demanded : Extractor → List Nat
  | openCall _ | pathCall .. | literalCall .. => [Slot.path.group]
  | openVariable | handleCall .. | environment => [Slot.symbol.group]
  | option => [Slot.flag.group]
  | position => [Slot.index.group]
  | captured .. => []

variable {e : Extractor} {m m' : Match} {s : Slot}

theorem required_congr (h : m.group? s.group = m'.group? s.group) :
    required m s = required m' s := by
  rw [required, required, h]

theorem orElse_congr {group : Nat} (h : m.group? group = m'.group? group) (default : String) :
    orElse m group default = orElse m' group default := by
  rw [orElse, orElse, h]

theorem pathOf_congr (hpath : m.group? Slot.path.group = m'.group? Slot.path.group)
    (hquote : m.group? Slot.quote.group = m'.group? Slot.quote.group) :
    pathOf m = pathOf m' := by
  rw [pathOf, pathOf, required_congr hpath, orElse_congr hquote]

/-- Nothing is read but these groups. -/
theorem extract_congr (h : ∀ n ∈ e.groups, m.group? n = m'.group? n) :
    e.extract m = e.extract m' := by
  cases e with
  | openCall =>
    simp only [groups, List.forall_mem_cons] at h
    obtain ⟨hpath, hquote, hmode, hencoding, -⟩ := h
    rw [extract, extract, pathOf_congr hpath hquote, orElse_congr hmode, orElse_congr hencoding]
  | openVariable =>
    simp only [groups, List.forall_mem_cons] at h
    obtain ⟨hsymbol, hmode, hencoding, -⟩ := h
    rw [extract, extract, required_congr hsymbol, orElse_congr hmode, orElse_congr hencoding]
  | pathCall =>
    simp only [groups, List.forall_mem_cons] at h
    obtain ⟨hpath, hquote, -⟩ := h
    rw [extract, extract, pathOf_congr hpath hquote]
  | handleCall | literalCall | option | position | environment =>
    rw [groups, List.forall_mem_singleton] at h
    rw [extract, extract, required_congr h]
  | captured =>
    rw [groups, List.forall_mem_singleton] at h
    rw [extract, extract, orElse_congr h]

theorem exists_required_iff :
    (∃ t, required m s = .ok t) ↔ (m.group? s.group).isSome = true := by
  rw [required]
  cases m.group? s.group <;> simp

theorem exists_pathOf_iff :
    (∃ p, pathOf m = .ok p) ↔ (m.group? Slot.path.group).isSome = true := by
  rw [pathOf, exists_bind_eq_ok_iff, exists_required_iff]
  intro token
  dsimp only
  split <;> exact ⟨_, rfl⟩

/-- There is an extraction just when the groups that have to be there are. -/
theorem exists_extract_iff :
    (∃ x, e.extract m = .ok x) ↔ ∀ n ∈ e.demanded, (m.group? n).isSome = true := by
  cases e with
  | openCall | pathCall =>
    rw [extract, exists_bind_eq_ok_iff, exists_pathOf_iff, demanded, List.forall_mem_singleton]
    exact fun p => ⟨_, rfl⟩
  | openVariable | handleCall | literalCall | option | position | environment =>
    rw [extract, exists_bind_eq_ok_iff, exists_required_iff, demanded, List.forall_mem_singleton]
    exact fun t => ⟨_, rfl⟩
  | captured => simp [extract, demanded]

end Extractor

/-! ## Rules -/

/-- The extractor of a rule is made for its pattern: the groups that it reads stand there, and
those that have to be there take part in every match. -/
structure Rule.IsFitted (r : Rule) : Prop where
  hasGroup : ∀ n ∈ r.extractor.groups, r.pattern.HasGroup n
  sure : ∀ n ∈ r.extractor.demanded, n ∈ r.pattern.body.sure

namespace Rule

variable {r : Rule} {m : Match} {source : List Char}

/-- What has to be there for a fitted rule is there in all its matches. -/
theorem IsFitted.isSome_group? (h : r.IsFitted) (hm : m ∈ r.pattern.body.findAll source)
    {n : Nat} (hn : n ∈ r.extractor.demanded) : (m.group? n).isSome = true :=
  Regex.isSome_group?_of_mem_findAll hm (h.sure n hn)

/-- **A fitted rule reads all its matches.** -/
theorem IsFitted.exists_extract (h : r.IsFitted) (hm : m ∈ r.pattern.body.findAll source) :
    ∃ x, r.extractor.extract m = .ok x :=
  Extractor.exists_extract_iff.mpr fun _ hn => h.isSome_group? hm hn

theorem isFitted_of_ofDefinition {d : Fields Key Setting} (h : ofDefinition d = .ok r) :
    r.IsFitted := by
  obtain ⟨g, mode, method, format, isSymbolic, hextractor, hg⟩ :=
    exists_extractor_of_ofDefinition h
  refine ⟨fun n hn => ?_, fun n hn => ?_⟩
  · rw [hextractor, Extractor.groups, List.mem_singleton] at hn
    exact hn ▸ hg
  · rw [hextractor] at hn
    cases hn

theorem isFitted_of_mem_builtin (hr : r ∈ Rules.builtin) : r.IsFitted where
  hasGroup n hn := by
    have hall : ∀ r ∈ Rules.builtin, ∀ n ∈ r.extractor.groups, n ∈ r.pattern.body.groups := by
      decide +kernel
    exact .inr (hall r hr n hn)
  sure := by
    have hall : ∀ r ∈ Rules.builtin, ∀ n ∈ r.extractor.demanded, n ∈ r.pattern.body.sure := by
      decide +kernel
    exact hall r hr

end Rule

namespace Rules

variable {ds : List (Fields Key Setting)} {rules : Rules}

/-- **All rules are fitted**, built-in ones and those of definitions. -/
theorem isFitted_of_configured (h : (configured ds).result = .ok rules) :
    ∀ r ∈ rules, r.IsFitted := by
  obtain ⟨own, hown, rfl⟩ := exists_own_of_configured h
  intro r hr
  rcases List.mem_append.mp hr with hr | hr
  · exact Rule.isFitted_of_mem_builtin hr
  · obtain ⟨d, -, hd⟩ := exists_of_mem_of_mapM_eq_ok hown hr
    exact Rule.isFitted_of_ofDefinition hd

end Rules

end Assay
