import Assay.Proofs.Regex.Groups
import Assay.Proofs.Sequence
import Assay.Usage.Analysis

/-!
# Rules of definitions

A definition that is accepted gives a rule with its own pattern, whose extractor reads one
group that stands in it. The rules of definitions stand behind the built-in ones, in the order
of the definitions. A definition may give its regular expression in bytes; the pattern is then
one over bytes as well, which cannot be looked for in a text.

## Main definitions

* `Rule.OverOctets` — a definition gives bytes as its regular expression
* `Rule.Writes`, `Rule.WritesPattern` — the expressions that settings write, and their patterns
* `Rule.GivesGroup` — the groups that settings give

## Main results

* `patternOf_eq_ok_iff`, `groupOf_eq_ok_iff` — which patterns and groups are accepted
* `ofOctets_iff_of_ofDefinition` — the rules whose pattern is one over bytes
* `exists_extractor_of_ofDefinition` — what the extractor of a rule reads
* `exists_own_of_configured` — built-in rules come first
-/

namespace Assay

/-- A definition gives bytes as its regular expression. -/
def Rule.OverOctets (d : Fields Key Setting) : Prop :=
  ∃ bytes, Config.lookup "regex" d = some (.foreign (.datum (.octets bytes)))

/-! ## One definition -/

theorem bind_declare_ne_ok {α β ε : Type} {x : Except (Failure ε) α} {e : α → ε} {b : β} :
    (x >>= fun a => declare (e a)) ≠ .ok b := by
  intro h
  obtain ⟨a, -, h⟩ := bind_eq_ok_iff.mp h
  cases h

namespace Rule

variable {d : Fields Key Setting} {r : Rule} {name v w : Setting} {p : Pattern}
  {a : Regex.Alphabet} {cs : List Char} {n : Nat}

theorem refuse_ne_ok {α : Type} {e : Setting → String → RuleError} {x : α} :
    refuse name e ≠ .ok x :=
  bind_declare_ne_ok

theorem refuseValue_ne_ok {α : Type} {e : Setting → String → String → RuleError} {x : α} :
    refuseValue name v e ≠ .ok x := by
  intro h
  obtain ⟨shown, -, h⟩ := bind_eq_ok_iff.mp h
  exact bind_declare_ne_ok h

theorem ofOctets_of_read (h : Pattern.read a cs = .ok p) : p.ofOctets = (a == .octets) := by
  obtain ⟨⟨body, s⟩, -, hp⟩ := bind_eq_ok_iff.mp h
  cases hp
  rfl

theorem readPattern_eq_ok_iff : readPattern a cs = .ok p ↔ Pattern.read a cs = .ok p := by
  rw [readPattern]
  cases Pattern.read a cs <;> simp [Except.mapError]

/-- A setting writes an expression: over characters as a text, and over bytes as bytes. -/
inductive Writes : Setting → Regex.Alphabet → List Char → Prop where
  | text (s : String) : Writes (.text s) .characters s.toList
  | octets (bytes : List Nat) :
    Writes (.foreign (.datum (.octets bytes))) .octets (bytes.map Char.ofNat)

/-- A setting writes the expression of a pattern. -/
def WritesPattern (v : Setting) (p : Pattern) : Prop :=
  ∃ a cs, Writes v a cs ∧ Pattern.read a cs = .ok p

theorem Writes.unique {a' : Regex.Alphabet} {cs' : List Char} (h : Writes v a cs)
    (h' : Writes v a' cs') : a = a' ∧ cs = cs' := by
  cases h <;> cases h' <;> exact ⟨rfl, rfl⟩

theorem expressionOf_of_writes (h : Writes v a cs) : expressionOf v = readPattern a cs := by
  cases h <;> rfl

/-- A setting writes an expression, or it breaks off whatever would be read. -/
theorem expressionOf_cases (v : Setting) :
    (∃ a cs, Writes v a cs) ∨ (∀ a cs, ¬ Writes v a cs) ∧
      ∃ f, expressionOf v = .error (.fault f) ∧ (f = .notARegex ∨ f = .notHashable v.kindName) := by
  by_cases h : ∃ a cs, Writes v a cs
  · exact .inl h
  · have hnot (a : Regex.Alphabet) (cs : List Char) (hv : Writes v a cs) : False := h ⟨a, cs, hv⟩
    refine .inr ⟨hnot, ?_⟩
    rw [expressionOf.eq_def]
    split
    · exact (hnot _ _ (.text _)).elim
    · exact (hnot _ _ (.octets _)).elim
    · exact ⟨_, rfl, .inr rfl⟩
    · exact ⟨_, rfl, .inr rfl⟩
    · exact ⟨_, rfl, .inr rfl⟩
    · exact ⟨_, rfl, .inl rfl⟩

theorem expressionOf_eq_ok_iff : expressionOf v = .ok p ↔ WritesPattern v p := by
  rw [WritesPattern]
  rcases expressionOf_cases v with ⟨a, cs, hv⟩ | ⟨hnot, f, hf, -⟩
  · rw [expressionOf_of_writes hv, readPattern_eq_ok_iff]
    refine ⟨fun hread => ⟨a, cs, hv, hread⟩, ?_⟩
    rintro ⟨a', cs', hv', hread⟩
    obtain ⟨rfl, rfl⟩ := hv.unique hv'
    exact hread
  · rw [hf]
    refine iff_of_false nofun ?_
    rintro ⟨a, cs, hv, -⟩
    exact hnot a cs hv

theorem WritesPattern.unique {p' : Pattern} (h : WritesPattern v p) (h' : WritesPattern v p') :
    p = p' :=
  Except.ok.inj ((expressionOf_eq_ok_iff.mpr h).symm.trans (expressionOf_eq_ok_iff.mpr h'))

theorem WritesPattern.ofOctets_iff (h : WritesPattern v p) :
    p.ofOctets = true ↔ ∃ bytes, v = .foreign (.datum (.octets bytes)) := by
  obtain ⟨a, cs, hv, hread⟩ := h
  rw [ofOctets_of_read hread]
  cases hv <;> simp

theorem patternOf_eq_ok_iff : patternOf name v = .ok p ↔ WritesPattern v p := by
  rw [← expressionOf_eq_ok_iff, patternOf]
  cases expressionOf v with
  | ok p' => simp
  | error e => cases e <;> simp [refuse_ne_ok]

/-- A setting gives a group of a pattern, by its number or by its name. -/
inductive GivesGroup (p : Pattern) : Setting → Nat → Prop where
  | number {n : Nat} (h : n ≤ p.groupCount) : GivesGroup p (.int n) n
  | truth {b : Bool} (h : b.toNat ≤ p.groupCount) : GivesGroup p (.bool b) b.toNat
  | name {s : String} {n : Nat} (h : p.groupNames.lookup s = some n) : GivesGroup p (.text s) n

theorem groupOf_eq_ok_iff : groupOf name p v = .ok n ↔ GivesGroup p v n := by
  constructor
  · intro h
    rw [groupOf.eq_def] at h
    split at h
    · next k =>
      dsimp only at h
      split at h
      · next hk =>
        obtain ⟨m, rfl⟩ := Int.eq_ofNat_of_zero_le hk.1
        cases h
        exact .number (Int.ofNat_le.mp hk.2)
      · exact absurd h refuseValue_ne_ok
    · next b =>
      dsimp only at h
      split at h
      · next hb =>
        cases h
        exact .truth (Int.ofNat_le.mp hb.2)
      · exact absurd h refuseValue_ne_ok
    · split at h
      · next m hlookup =>
        cases h
        exact .name hlookup
      · exact absurd h refuseValue_ne_ok
    · cases h
    · cases h
    · cases h
    · exact absurd h refuseValue_ne_ok
  · intro h
    cases h with
    | number hn => exact if_pos ⟨Int.natCast_nonneg _, Int.ofNat_le.mpr hn⟩
    | truth hb => exact if_pos ⟨Int.natCast_nonneg _, Int.ofNat_le.mpr hb⟩
    | name hname =>
      rw [groupOf]
      simp only [hname]

/-- The group that is asked for is there. -/
theorem GivesGroup.hasGroup (h : GivesGroup p v n) (hp : WritesPattern w p) : p.HasGroup n := by
  obtain ⟨a, cs, -, hread⟩ := hp
  cases h with
  | number hn => exact Pattern.hasGroup_of_read hread hn
  | truth hn => exact Pattern.hasGroup_of_read hread hn
  | name hname =>
    obtain ⟨front, back, hnames, -⟩ := List.lookup_eq_some_iff.mp hname
    exact Pattern.hasGroup_of_mem_groupNames hread
      (hnames ▸ List.mem_append_right _ List.mem_cons_self)

/-- An accepted definition: its name is that of the rule, its regular expression gives the
pattern, and one group of the pattern is read. -/
theorem exists_of_ofDefinition (h : ofDefinition d = .ok r) :
    ∃ v g mode method format isSymbolic,
      r.name = (Config.lookup "name" d).getD .null ∧
      WritesPattern ((Config.lookup "regex" d).getD .null) r.pattern ∧
      GivesGroup r.pattern v g ∧ r.extractor = .captured g mode method format isSymbolic := by
  rw [ofDefinition] at h
  split at h
  · cases h
  · dsimp only at h
    split at h
    · obtain ⟨_, h, -⟩ := bind_eq_ok_iff.mp h
      exact absurd h refuse_ne_ok
    · obtain ⟨pattern, hpattern, h⟩ := bind_eq_ok_iff.mp h
      obtain ⟨category, -, h⟩ := bind_eq_ok_iff.mp h
      obtain ⟨g, hg, h⟩ := bind_eq_ok_iff.mp h
      obtain ⟨mode, -, h⟩ := bind_eq_ok_iff.mp h
      obtain ⟨method, -, h⟩ := bind_eq_ok_iff.mp h
      cases h
      exact ⟨_, g, mode, method, _, _, rfl, patternOf_eq_ok_iff.mp hpattern,
        groupOf_eq_ok_iff.mp hg, rfl⟩

/-- The pattern of a rule is one over bytes just when its definition gives bytes. -/
theorem ofOctets_iff_of_ofDefinition (h : ofDefinition d = .ok r) :
    r.pattern.ofOctets = true ↔ OverOctets d := by
  obtain ⟨-, -, -, -, -, -, -, hpattern, -, -⟩ := exists_of_ofDefinition h
  rw [hpattern.ofOctets_iff, OverOctets]
  cases Config.lookup "regex" d <;> simp

/-- The extractor of a rule reads one group, which its pattern has. -/
theorem exists_extractor_of_ofDefinition (h : ofDefinition d = .ok r) :
    ∃ g mode method format isSymbolic,
      r.extractor = .captured g mode method format isSymbolic ∧ r.pattern.HasGroup g := by
  obtain ⟨v, g, mode, method, format, isSymbolic, -, hpattern, hg, hextractor⟩ :=
    exists_of_ofDefinition h
  exact ⟨g, mode, method, format, isSymbolic, hextractor, hg.hasGroup hpattern⟩

end Rule

/-! ## All definitions -/

namespace Rules

variable {ds : List (Fields Key Setting)} {rules rules' own : Rules}

theorem eq_append_of_add {r : Rule} (h : rules.add r = .ok rules') : rules' = rules ++ [r] := by
  rw [add] at h
  split at h
  · exact absurd h Rule.refuse_ne_ok
  · cases h
    rfl

theorem exists_own_of_withDefinitions (h : rules.withDefinitions ds = .ok rules') :
    ∃ own, ds.mapM Rule.ofDefinition = .ok own ∧ rules' = rules ++ own := by
  induction ds generalizing rules with
  | nil =>
    cases h
    exact ⟨[], rfl, (List.append_nil _).symm⟩
  | cons d ds ih =>
    obtain ⟨r, hr, h⟩ := bind_eq_ok_iff.mp h
    obtain ⟨more, hmore, h⟩ := bind_eq_ok_iff.mp h
    obtain rfl := eq_append_of_add hmore
    obtain ⟨own, hown, rfl⟩ := ih h
    exact ⟨r :: own, mapM_eq_ok_iff.mpr (.cons hr (mapM_eq_ok_iff.mp hown)), by simp⟩

theorem result_configured (ds : List (Fields Key Setting)) :
    (configured ds).result = builtin.withDefinitions ds := by
  rw [configured, Logged.result_bind, Logged.result_ofExcept]
  cases builtin.withDefinitions ds with
  | error e => rfl
  | ok rules => cases ds <;> rfl

/-- The built-in rules come first, and then one rule for each definition. -/
theorem exists_own_of_configured (h : (configured ds).result = .ok rules) :
    ∃ own, ds.mapM Rule.ofDefinition = .ok own ∧ rules = builtin ++ own :=
  exists_own_of_withDefinitions (result_configured ds ▸ h)

/-- Built-in patterns are over characters. -/
theorem ofOctets_of_mem_builtin : ∀ r ∈ builtin, r.pattern.ofOctets = false := by decide

/-- Rules are all over characters just when no definition gives bytes. -/
theorem forall_ofOctets_eq_false_iff (hown : ds.mapM Rule.ofDefinition = .ok own) :
    (∀ r ∈ own, r.pattern.ofOctets = false) ↔ ∀ d ∈ ds, ¬ Rule.OverOctets d := by
  have hall := mapM_eq_ok_iff.mp hown
  clear hown
  induction hall with
  | nil => simp
  | cons hr _ ih =>
    rw [List.forall_mem_cons, List.forall_mem_cons]
    refine and_congr ?_ ih
    rw [← Rule.ofOctets_iff_of_ofDefinition hr, Bool.not_eq_true]

end Rules

end Assay
