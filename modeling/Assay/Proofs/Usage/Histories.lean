import Assay.Proofs.Usage.Analyses
import Assay.Proofs.Usage.Definitions

/-!
# Histories of rules

Rules are added one after the other, and one whose name is taken is not added. Whatever has been
attempted, the names stay distinct, and the rules are those of the beginning with the added ones
behind them, in their order. A taken name is refused where it can be shown; one that has no text
breaks off instead. Either way nothing has changed. Definitions give rules when all of them are
accepted and no name is that of a built-in rule or of an earlier definition.

## Main definitions

* `Setting.Distinct` — values of which none equals an earlier one
* `Rules.HasName` — a name is taken
* `Rules.attempt`, `Rules.attemptAll` — the rules after attempts to add some
* `Rules.accepted` — the rules that are added
* `Rules.Admits` — what an attempt comes to

## Main results

* `makes_add` — what adding a rule checks
* `distinct_attemptAll`, `attemptAll_eq_append` — the rules after a history
* `exists_withDefinitions_iff` — when definitions give rules
* `attempts_accounted` — histories from the beginning on
-/

namespace Assay

/-! ## Distinct values -/

/-- A text equals itself and nothing else. -/
theorem Value.equal_text_iff {s : String} {v : Setting} :
    (Value.text s : Setting).equal v = true ↔ v = .text s := by
  cases v with
  | text t =>
    rw [Value.equal, beq_iff_eq, Value.text.injEq]
    exact eq_comm
  | _ => simp [Value.equal, Value.number?]

/-- No value equals an earlier one. -/
def Setting.Distinct (vs : List Setting) : Prop := vs.Pairwise fun v w => w.equal v = false

namespace Rules

open Setting (Distinct Unshowable)

variable {rules more initial : Rules} {r : Rule} {v : Setting} {ds : List (Fields Key Setting)}

/-! ## Names -/

/-- A value is a name that is taken: it equals the name of a rule. -/
def HasName (rules : Rules) (v : Setting) : Prop := ∃ w ∈ rules.names, v.equal w = true

theorem any_equal_iff : rules.names.any v.equal = true ↔ rules.HasName v := List.any_eq_true

theorem hasName_text_iff {s : String} : rules.HasName (.text s) ↔ .text s ∈ rules.names := by
  simp [HasName, Value.equal_text_iff]

theorem names_concat (rules : Rules) (r : Rule) : names (rules ++ [r]) = rules.names ++ [r.name] :=
  List.map_append

theorem distinct_concat_iff :
    Distinct (rules.names ++ [v]) ↔ Distinct rules.names ∧ ¬ rules.HasName v := by
  simp [Distinct, List.pairwise_append, HasName]

theorem exists_text_of_mem_names_builtin : ∀ v ∈ builtin.names, ∃ s, v = .text s := by
  simp [builtin, names, Builtin.rule]

theorem distinct_names_builtin : Distinct builtin.names := by
  rw [Distinct]
  decide

/-! ## One attempt -/

/-- What is added must have a name that is not taken. A refusal shows the name. -/
theorem makes_add (rules : Rules) (r : Rule) :
    Check.Makes Rule.Escapes (rules.add r)
      [Check.refusing (¬ rules.HasName r.name) (Unshowable r.name)] := by
  rw [add]
  split
  · next h => exact (Rule.makes_refuse _).refused (not_not_intro (any_equal_iff.mp h)) Iff.rfl
  · next h => exact Check.makes_accepted _ (any_equal_iff.not.mp h)

theorem add_eq_ok_iff : rules.add r = .ok more ↔ ¬ rules.HasName r.name ∧ more = rules ++ [r] := by
  constructor
  · intro h
    have haccepts := (makes_add rules r).accepted.mp ⟨more, h⟩
    exact ⟨by simpa [Check.refusing] using haccepts, eq_append_of_add h⟩
  · rintro ⟨hname, rfl⟩
    rw [add, if_neg (any_equal_iff.not.mpr hname)]

/-- The rules after an attempt to add one: it stands behind them, or nothing has changed. -/
def attempt (rules : Rules) (r : Rule) : Rules :=
  match rules.add r with
  | .ok more => more
  | .error _ => rules

theorem attempt_of_hasName (h : rules.HasName r.name) : rules.attempt r = rules := by
  rw [attempt]
  cases hadd : rules.add r with
  | ok more => exact absurd h (add_eq_ok_iff.mp hadd).1
  | error e => rfl

theorem attempt_of_not_hasName (h : ¬ rules.HasName r.name) : rules.attempt r = rules ++ [r] := by
  rw [attempt, add_eq_ok_iff.mpr ⟨h, rfl⟩]

/-- What an attempt to add a rule comes to. The rule is added just when its name is not taken. A
taken name is refused when it can be shown and breaks off when it cannot, and what is not added
changes nothing. -/
structure Admits (rules : Rules) (r : Rule) : Prop where
  adds : rules.add r = .ok (rules ++ [r]) ↔ ¬ rules.HasName r.name
  refuses : (∃ e, rules.add r = .error (.declared e)) ↔
    rules.HasName r.name ∧ ¬ Unshowable r.name
  breaks : (∃ f, rules.add r = .error (.fault f)) ↔ rules.HasName r.name ∧ Unshowable r.name
  keeps : rules.HasName r.name → rules.attempt r = rules

theorem admits (rules : Rules) (r : Rule) : rules.Admits r where
  adds := by simp [add_eq_ok_iff]
  refuses := by
    rw [(makes_add rules r).declared_iff]
    simp only [Check.Orderly, Check.refusing, List.forall_mem_singleton]
    tauto
  breaks := by
    rw [(makes_add rules r).broken]
    simp only [Check.Orderly, Check.refusing]
    tauto
  keeps := attempt_of_hasName

theorem distinct_attempt (h : Distinct rules.names) (r : Rule) :
    Distinct (rules.attempt r).names := by
  by_cases hname : rules.HasName r.name
  · rwa [attempt_of_hasName hname]
  · rw [attempt_of_not_hasName hname, names_concat, distinct_concat_iff]
    exact ⟨h, hname⟩

/-- A rule whose name is a text is refused just when this text is among the names. -/
theorem Admits.refuses_text_iff {s : String} (h : rules.Admits r) (hs : r.name = .text s) :
    (∃ e, rules.add r = .error (.declared e)) ↔ .text s ∈ rules.names := by
  have hshown : ¬ Unshowable (.text s) := fun ⟨f, hf⟩ => by cases hf
  rw [h.refuses, hs, hasName_text_iff]
  exact and_iff_left hshown

/-! ## Histories -/

/-- The rules after attempts to add some, one after the other. -/
def attemptAll (rules : Rules) (attempts : List Rule) : Rules := attempts.foldl attempt rules

/-- The attempted rules that are added, in their order. -/
def accepted (rules : Rules) : List Rule → List Rule
  | [] => []
  | r :: attempts =>
    match rules.add r with
    | .ok more => r :: accepted more attempts
    | .error _ => accepted rules attempts

theorem distinct_attemptAll (h : Distinct rules.names) (attempts : List Rule) :
    Distinct (rules.attemptAll attempts).names := by
  induction attempts generalizing rules with
  | nil => exact h
  | cons r attempts ih => exact ih (distinct_attempt h r)

theorem attemptAll_eq_append (rules : Rules) (attempts : List Rule) :
    rules.attemptAll attempts = rules ++ rules.accepted attempts := by
  induction attempts generalizing rules with
  | nil => exact (List.append_nil rules).symm
  | cons r attempts ih =>
    -- What is added stands behind the rules and in front of those that come later.
    change (rules.attempt r).attemptAll attempts = _
    rw [ih, attempt, accepted]
    cases hadd : rules.add r with
    | ok more => simp [eq_append_of_add hadd]
    | error e => rfl

/-! ## Definitions -/

theorem withDefinitions_cons_eq_ok_iff {d : Fields Key Setting} :
    rules.withDefinitions (d :: ds) = .ok more ↔
      ∃ r, Rule.ofDefinition d = .ok r ∧ ¬ rules.HasName r.name ∧
        withDefinitions (rules ++ [r]) ds = .ok more := by
  simp only [withDefinitions, bind_eq_ok_iff, add_eq_ok_iff, and_assoc, exists_and_left,
    exists_eq_left]

/-- Definitions give rules when all of them are accepted and every name is a new one. -/
theorem exists_withDefinitions_iff (h : Distinct rules.names) :
    (∃ more, rules.withDefinitions ds = .ok more) ↔
      (∀ d ∈ ds, ∀ c ∈ Rule.checks d, c.accepts) ∧
        Distinct (rules.names ++ ds.map Rule.givenName) := by
  -- The rule of the first definition stands in front of the others, so that the names behind which
  -- they have to be new grow by its name.
  induction ds generalizing rules with
  | nil => simpa [withDefinitions, pure, Except.pure] using h
  | cons d ds ih =>
    simp only [withDefinitions_cons_eq_ok_iff]
    rw [List.forall_mem_cons, ← (Rule.makes_ofDefinition d).accepted, List.map_cons,
      List.append_cons]
    constructor
    · rintro ⟨more, r, hr, hname, hmore⟩
      have hdistinct : Distinct (names (rules ++ [r])) := by
        rw [names_concat, distinct_concat_iff]
        exact ⟨h, hname⟩
      obtain ⟨haccepts, hall⟩ := (ih hdistinct).mp ⟨more, hmore⟩
      rw [names_concat, Rule.name_of_ofDefinition hr] at hall
      exact ⟨⟨⟨r, hr⟩, haccepts⟩, hall⟩
    · rintro ⟨⟨⟨r, hr⟩, haccepts⟩, hall⟩
      rw [← Rule.name_of_ofDefinition hr, ← names_concat] at hall
      have hdistinct : Distinct (names (rules ++ [r])) :=
        hall.sublist (List.sublist_append_left _ _)
      obtain ⟨more, hmore⟩ := (ih hdistinct).mpr ⟨haccepts, hall⟩
      rw [names_concat, distinct_concat_iff] at hdistinct
      exact ⟨more, r, hr, hdistinct.2, hmore⟩

/-- **Histories.** From no rules or the built-in ones on, whatever has been attempted, the names are
distinct, and the rules are those of the beginning with the added ones behind them, in their order.
A further rule is then added just when its name is not taken. A taken name is refused when it can be
shown and breaks off otherwise, and the rules stay as they are. Definitions give rules if and only
if all checks of each one accept and no name is that of a built-in rule or of an earlier one. -/
theorem attempts_accounted (hinitial : initial = [] ∨ initial = builtin) (attempts : List Rule)
    (ds : List (Fields Key Setting)) :
    Distinct (initial.attemptAll attempts).names ∧
      initial.attemptAll attempts = initial ++ initial.accepted attempts ∧
      (∀ r, (initial.attemptAll attempts).Admits r) ∧
      ((∃ rules, (configured ds).result = .ok rules) ↔
        (∀ d ∈ ds, ∀ c ∈ Rule.checks d, c.accepts) ∧
          Distinct (builtin.names ++ ds.map Rule.givenName)) := by
  have hdistinct : Distinct initial.names := by
    rcases hinitial with rfl | rfl
    · exact List.Pairwise.nil
    · exact distinct_names_builtin
  refine ⟨distinct_attemptAll hdistinct attempts, attemptAll_eq_append initial attempts,
    admits _, ?_⟩
  rw [result_configured]
  exact exists_withDefinitions_iff distinct_names_builtin

/-- A rule for positions on the command line, under a name of its own. -/
def positionsNamed (name : String) : Rule :=
  Builtin.rule name Builtin.argumentPosition .argument .position

/-- The second of three attempts has the name of a built-in rule, and a further one that of the
first. -/
theorem attempts_accounted_taken_names :
    Distinct (builtin.attemptAll (["fetch", "sys_argv", "store"].map positionsNamed)).names ∧
      builtin.attemptAll (["fetch", "sys_argv", "store"].map positionsNamed) =
        builtin ++ [positionsNamed "fetch", positionsNamed "store"] ∧
      (∃ e, add (builtin ++ [positionsNamed "fetch", positionsNamed "store"])
        (positionsNamed "fetch") = .error (.declared e)) ∧
      (∃ rules, (configured [Rule.openDefinition (.text "(open)")]).result = .ok rules) ∧
      Distinct (builtin.names ++ [.text "raw_open"]) := by
  have hinitial : builtin = [] ∨ builtin = builtin := .inr rfl
  obtain ⟨hdistinct, happend, hadmits, hconfigured⟩ := attempts_accounted hinitial
    (["fetch", "sys_argv", "store"].map positionsNamed) [Rule.openDefinition (.text "(open)")]
  have haccepted : builtin.accepted (["fetch", "sys_argv", "store"].map positionsNamed) =
      [positionsNamed "fetch", positionsNamed "store"] := rfl
  rw [haccepted] at happend
  rw [happend] at hadmits
  obtain ⟨rules, hrules, -⟩ := exists_configured_openDefinition
  refine ⟨hdistinct, happend, ?_, ⟨rules, hrules⟩, (hconfigured.mp ⟨rules, hrules⟩).2⟩
  refine ((hadmits (positionsNamed "fetch")).refuses_text_iff rfl).mpr ?_
  exact List.mem_map_of_mem (List.mem_append_right builtin List.mem_cons_self)

/-! ## Names that have no text -/

/-- Numbers are no names of built-in rules. -/
theorem not_hasName_builtin_int (n : Int) : ¬ builtin.HasName (.int n) := by
  rintro ⟨w, hw, hequal⟩
  obtain ⟨s, rfl⟩ := exists_text_of_mem_names_builtin w hw
  simp [Value.equal, Value.number?] at hequal

theorem hasName_concat_int {n : Int} (h : r.name = .int n) : HasName (rules ++ [r]) r.name := by
  refine ⟨r.name, by simp [names], ?_⟩
  rw [h]
  simp [Value.equal, Value.number?, Scalar.equal]

/-- A definition whose name is a number, the largest one of 3600 hexadecimal digits. -/
def longDefinition : Fields Key Setting :=
  [(.text "name", .int (16 ^ 3600 - 1 : Nat)), (.text "regex", .text "(x)"),
   (.text "method", .text "m")]

/-- The rule of this definition is added behind the built-in ones, so that its name is taken, and
yet it is not refused from then on. -/
theorem add_long_name :
    ∃ r, Rule.ofDefinition longDefinition = .ok r ∧ builtin.attempt r = builtin ++ [r] ∧
      HasName (builtin ++ [r]) r.name ∧ ¬ ∃ e, add (builtin ++ [r]) r = .error (.declared e) := by
  obtain ⟨r, hr, -⟩ := exists_of_map_toOption_eq_some
    (x := Rule.ofDefinition longDefinition) (g := fun r => r.pattern.ofOctets) (b := false)
    (by decide +kernel)
  have hname : r.name = .int (16 ^ 3600 - 1 : Nat) := Rule.name_of_ofDefinition hr
  have hlong : Setting.IsLong (16 ^ 3600 - 1 : Nat) := by
    rw [Setting.IsLong, Int.natAbs_natCast]
    decide +kernel
  have hunshowable : Unshowable (.int (16 ^ 3600 - 1 : Nat)) :=
    (Setting.unshowable_iff (.int _)).mpr (.int hlong)
  refine ⟨r, hr, attempt_of_not_hasName ?_, hasName_concat_int hname, ?_⟩
  · rw [hname]
    exact not_hasName_builtin_int _
  · rw [(admits _ r).refuses, hname]
    exact fun h => h.2 hunshowable

end Rules

end Assay
