import Assay.Proofs.Config.Checks
import Assay.Proofs.Usage.Rules

/-!
# Definitions that are refused

A definition gives a rule, or it is refused with an error that says why. Its values are checked one
after the other. A refusal shows the name of the rule and, from the category on, the value that is
refused, and it breaks off where one of these has no text. What is neither text nor bytes is no
regular expression, and a value that cannot be looked up is no group: these break off as well, and
so does the reading of some texts.

## Main definitions

* `Check.Makes` — the checks that an operation makes, one after the other
* `Check.refusing` — a check whose refusal may break off
* `Rule.Escapes` — the faults that come out of a definition
* `Rule.BreaksReading`, `Rule.IsUnhashable` — what breaks off as an expression and as a group
* `Rule.checks` — the checks of a definition, in their order

## Main results

* `Check.Makes.bind` — one check in front of others
* `makes_patternOf`, `makes_categoryOf`, `makes_groupOf` — the checks one by one
* `makes_ofDefinition` — the checks of a definition decide about it
* `ofDefinition_accounted_iff` — when a definition gives a rule or is refused
-/

namespace Assay

/-! ## Operations that make checks -/

namespace Check

variable {ε α β : Type} {P : Fault → Prop} {x : Except (Failure ε) α}
  {g : α → Except (Failure ε) β} {c : Check} {cs : List Check} {accepts broken : Prop}

/-- An operation makes checks one after the other: it gives a result when all of them accept, and
it breaks off when one does that is reached, with a fault of a kind. -/
structure Makes (P : Fault → Prop) (x : Except (Failure ε) α) (cs : List Check) : Prop where
  accepted : (∃ a, x = .ok a) ↔ ∀ c ∈ cs, c.accepts
  broken : (∃ f, x = .error (.fault f)) ↔ ¬ Orderly True cs
  fault : ∀ f, x = .error (.fault f) → P f

theorem makes_ok (a : α) : Makes P (.ok a : Except (Failure ε) α) [] :=
  ⟨by simp, by simp [Orderly], by simp⟩

theorem Makes.congr {cs' : List Check} (h : Makes P x cs)
    (haccepts : (∀ c ∈ cs, c.accepts) ↔ ∀ c ∈ cs', c.accepts)
    (horderly : Orderly True cs ↔ Orderly True cs') : Makes P x cs' :=
  ⟨h.accepted.trans haccepts, h.broken.trans horderly.not, h.fault⟩

/-- A result or a refusal comes out when no check that is reached breaks off. -/
theorem Makes.accounted_iff (h : Makes P x cs) :
    (∃ a, x = .ok a) ∨ (∃ e, x = .error (.declared e)) ↔ Orderly True cs := by
  rw [← h.broken.not_left]
  match x with
  | .ok a => simp
  | .error (.declared e) => simp
  | .error (.fault f) => simp

/-- A refusal comes out when a check does not accept that is reached without a break. -/
theorem Makes.declared_iff (h : Makes P x cs) :
    (∃ e, x = .error (.declared e)) ↔ Orderly True cs ∧ ¬ ∀ c ∈ cs, c.accepts := by
  rw [← h.accounted_iff, ← h.accepted]
  match x with
  | .ok a => simp
  | .error (.declared e) => simp
  | .error (.fault f) => simp

/-- A check that refuses what it does not accept. The refusal may break off. -/
def refusing (accepts broken : Prop) : Check := ⟨accepts, ¬ accepts ∧ broken⟩

theorem makes_accepted (a : α) (h : accepts) :
    Makes P (.ok a : Except (Failure ε) α) [refusing accepts broken] :=
  ⟨by simp [refusing, h], by simp [Orderly, refusing, h], nofun⟩

theorem makes_fault {f : Fault} (hf : P f) (hnot : ¬ accepts) (hbroken : broken) :
    Makes P (.error (.fault f) : Except (Failure ε) α) [refusing accepts broken] := by
  refine ⟨by simp [refusing, hnot], by simp [Orderly, refusing, hnot, hbroken], fun f' hf' => ?_⟩
  cases hf'
  exact hf

theorem makes_declare (e : ε) : Makes P (declare e : Except (Failure ε) α) [refusing False False] :=
  ⟨by simp [declare, refusing], by simp [declare, Orderly, refusing], nofun⟩

/-- What would have been accepted does not matter to a refusal. -/
theorem Makes.refused {broken' : Prop} (h : Makes P x [refusing False broken])
    (hnot : ¬ accepts) (hbroken : broken ↔ broken') : Makes P x [refusing accepts broken'] :=
  h.congr (by simp [refusing, hnot]) (by simp [Orderly, refusing, hnot, hbroken])

/-- One check in front of others. -/
theorem Makes.bind (hx : Makes P x [c]) (hg : ∀ a, x = .ok a → Makes P (g a) cs) :
    Makes P (x >>= g) (c :: cs) := by
  -- What follows is reached only behind a result, that is, where the check accepts.
  have haccepts : (∃ a, x = .ok a) ↔ c.accepts := by simpa using hx.accepted
  have hbreaks : (∃ f, x = .error (.fault f)) ↔ c.breaks := by simpa [Orderly] using hx.broken
  cases x with
  | ok a =>
    have hok : c.accepts := haccepts.mp ⟨a, rfl⟩
    have hnot : ¬ c.breaks := fun h => by simpa using hbreaks.mpr h
    have hrest := hg a rfl
    change Makes P (g a) (c :: cs)
    exact ⟨by simpa [hok] using hrest.accepted, by simpa [Orderly, hok, hnot] using hrest.broken,
      hrest.fault⟩
  | error e =>
    have hnot : ¬ c.accepts := fun h => by simpa using haccepts.mpr h
    have hfault (f : Fault) (hf : (.error e : Except (Failure ε) β) = .error (.fault f)) : P f :=
      hx.fault f (by simpa using hf)
    change Makes P (.error e) (c :: cs)
    exact ⟨by simp [hnot], by simpa [Orderly, hnot] using hbreaks, hfault⟩

/-- What is not refused goes on as if there had been no check. -/
theorem Makes.guard {b : Bool} {refused : Except (Failure ε) α}
    (hrefused : Makes P refused [refusing False broken]) (hx : Makes P x cs) :
    Makes P (if (!b) = true then refused else x) (refusing (b = true) broken :: cs) := by
  cases b with
  | true =>
    exact ⟨by simpa [refusing] using hx.accepted, by simpa [refusing, Orderly] using hx.broken,
      hx.fault⟩
  | false =>
    exact ⟨by simpa [refusing] using hrefused.accepted,
      by simpa [refusing, Orderly] using hrefused.broken, hrefused.fault⟩

end Check

namespace Rule

open Check (refusing Makes Orderly makes_accepted makes_fault makes_declare)
open Setting (Unshowable)

variable {α : Type} {d : Fields Key Setting} {name v : Setting} {p : Pattern} {f : Fault}

/-! ## Refusals -/

/-- The faults that come out of a definition: an integer that is shown is too long, a value is no
regular expression or cannot be looked up, and what ends the reading of an expression. -/
inductive Escapes : Fault → Prop where
  | integerTooLong : Escapes .integerTooLong
  | notARegex : Escapes .notARegex
  | notHashable (kind : String) : Escapes (.notHashable kind)
  | ofReading {f : Fault} (h : Regex.EndsReading (.fault f)) : Escapes f

/-- A value is shown unless it has no text. -/
theorem makes_plain :
    Makes Escapes (liftM v.plain : Except (Failure RuleError) String)
      [refusing (¬ Unshowable v) True] := by
  rw [← Setting.plain_eq_error_iff]
  cases hplain : v.plain with
  | ok shown => exact makes_accepted shown (by simp)
  | error f =>
    have hf : Escapes f := Setting.eq_integerTooLong_of_plain hplain ▸ .integerTooLong
    exact makes_fault hf (by simp) trivial

/-- A refusal breaks off where the name cannot be shown. -/
theorem makes_refuse (e : Setting → String → RuleError) :
    Makes Escapes (refuse name e : Except (Failure RuleError) α)
      [refusing False (Unshowable name)] := by
  refine (makes_plain.bind fun _ _ => makes_declare _).congr (by simp [refusing]) ?_
  simp [Orderly, refusing]

/-- A refusal of a value breaks off where the name or the value cannot be shown. -/
theorem makes_refuseValue (e : Setting → String → String → RuleError) :
    Makes Escapes (refuseValue name v e : Except (Failure RuleError) α)
      [refusing False (Unshowable name ∨ Unshowable v)] := by
  refine (makes_plain.bind fun _ _ => makes_plain.bind fun _ _ => makes_declare _).congr
    (by simp [refusing]) ?_
  simp only [Orderly, refusing]
  tauto

/-! ## Expressions -/

/-- What a setting writes as an expression cannot be read to its end; this holds of what is no
expression at all. -/
def BreaksReading (v : Setting) : Prop :=
  ∀ a cs, Writes v a cs → ∃ f, Pattern.read a cs = .error (.fault f)

variable {a : Regex.Alphabet} {cs : List Char}

theorem readPattern_eq_fault_iff :
    readPattern a cs = .error (.fault f) ↔ Pattern.read a cs = .error (.fault f) := by
  rw [readPattern]
  cases Pattern.read a cs with
  | ok p => simp [Except.mapError]
  | error e => cases e <;> simp [Except.mapError, Failure.map]

theorem expressionOf_eq_fault_iff :
    (∃ f, expressionOf v = .error (.fault f)) ↔ BreaksReading v := by
  rcases expressionOf_cases v with ⟨a, cs, hv⟩ | ⟨hnot, f, hf, -⟩
  · simp only [expressionOf_of_writes hv, readPattern_eq_fault_iff]
    refine ⟨fun hread a' cs' hv' => ?_, fun h => h a cs hv⟩
    obtain ⟨rfl, rfl⟩ := hv.unique hv'
    exact hread
  · exact iff_of_true ⟨f, hf⟩ fun a cs hv => absurd hv (hnot a cs)

theorem escapes_of_expressionOf (h : expressionOf v = .error (.fault f)) : Escapes f := by
  rcases expressionOf_cases v with ⟨a, cs, hv⟩ | ⟨-, f', hf', hcause⟩
  · rw [expressionOf_of_writes hv] at h
    exact .ofReading (Pattern.endsReading_of_read (readPattern_eq_fault_iff.mp h))
  · obtain rfl : f' = f := by simpa using hf'.symm.trans h
    rcases hcause with rfl | rfl
    · exact .notARegex
    · exact .notHashable _

theorem makes_patternOf :
    Makes Escapes (patternOf name v)
      [refusing (∃ p, WritesPattern v p) (BreaksReading v ∨ Unshowable name)] := by
  simp only [← expressionOf_eq_ok_iff, ← expressionOf_eq_fault_iff]
  rw [patternOf]
  cases h : expressionOf v with
  | ok p => exact makes_accepted p ⟨p, rfl⟩
  | error e =>
    cases e with
    | declared cause => exact (makes_refuse _).refused (by simp) (by simp)
    | fault f => exact makes_fault (escapes_of_expressionOf h) (by simp) (.inl ⟨f, rfl⟩)

/-! ## Categories and groups -/

theorem category?_eq_some_iff {c : Category} : category? v = some c ↔ v = .text c.name := by
  constructor
  · intro h
    rw [category?.eq_def] at h
    split at h
    · next s =>
      have hname := List.find?_some h
      rw [beq_iff_eq] at hname
      rw [hname]
    · cases h
  · rintro rfl
    cases c <;> decide

theorem makes_categoryOf :
    Makes Escapes (categoryOf name v)
      [refusing (∃ c : Category, v = .text c.name) (Unshowable name ∨ Unshowable v)] := by
  simp only [← category?_eq_some_iff]
  rw [categoryOf]
  cases category? v with
  | some c => exact makes_accepted c ⟨c, rfl⟩
  | none => exact (makes_refuseValue _).refused (by simp) Iff.rfl

/-- A value that cannot be looked up in a table. -/
inductive IsUnhashable : Setting → Prop where
  | list (items : List Setting) : IsUnhashable (.list items)
  | record (fields : Fields Key Setting) : IsUnhashable (.record fields)
  | set (members : List Key) : IsUnhashable (.foreign (.set members))

/-- What gives no group is refused, unless it cannot be looked up. -/
theorem exists_groupOf_eq_refuseValue (hnot : ¬ ∃ n, GivesGroup p v n) (hv : ¬ IsUnhashable v) :
    ∃ e, groupOf name p v = refuseValue name v e := by
  -- Numbers and truth values are looked for by number, texts by name; all else is no key.
  cases v with
  | int k =>
    refine ⟨_, if_neg fun hk => hnot ?_⟩
    obtain ⟨n, rfl⟩ := Int.eq_ofNat_of_zero_le hk.1
    exact ⟨n, .number (Int.ofNat_le.mp hk.2)⟩
  | bool b => exact ⟨_, if_neg fun hb => hnot ⟨_, .truth (Int.ofNat_le.mp hb.2)⟩⟩
  | text s =>
    refine ⟨.noGroupNamed, ?_⟩
    rw [groupOf]
    cases hlookup : p.groupNames.lookup s with
    | none => rfl
    | some n => exact absurd ⟨n, .name hlookup⟩ hnot
  | list items => exact absurd (.list items) hv
  | record fields => exact absurd (.record fields) hv
  | foreign l =>
    cases l with
    | set members => exact absurd (.set members) hv
    | _ => exact ⟨_, rfl⟩
  | _ => exact ⟨_, rfl⟩

theorem makes_groupOf :
    Makes Escapes (groupOf name p v) [refusing (∃ n, GivesGroup p v n)
      (IsUnhashable v ∨ Unshowable name ∨ Unshowable v)] := by
  by_cases hgives : ∃ n, GivesGroup p v n
  · obtain ⟨n, hn⟩ := hgives
    rw [groupOf_eq_ok_iff.mpr hn]
    exact makes_accepted n ⟨n, hn⟩
  by_cases hv : IsUnhashable v
  · have hfault : groupOf name p v = .error (.fault (.notHashable v.kindName)) := by
      cases hv <;> rfl
    rw [hfault]
    exact makes_fault (.notHashable _) hgives (.inl hv)
  · obtain ⟨e, he⟩ : ∃ e, groupOf name p v = refuseValue name v e :=
      exists_groupOf_eq_refuseValue hgives hv
    rw [he]
    exact (makes_refuseValue e).refused hgives (or_iff_right hv).symm

/-! ## Whole definitions -/

/-- The value under a key of a definition, or the one by default. -/
def given (d : Fields Key Setting) (key : String) (default : Setting) : Setting :=
  (Config.lookup key d).getD default

/-- The name of a definition, as it is given. -/
def givenName (d : Fields Key Setting) : Setting := given d "name" .null

theorem name_of_ofDefinition {r : Rule} (h : ofDefinition d = .ok r) : r.name = givenName d := by
  obtain ⟨-, -, -, -, -, -, hname, -⟩ := exists_of_ofDefinition h
  exact hname

/-- The regular expression of a definition, as it is given. -/
def givenRegex (d : Fields Key Setting) : Setting := given d "regex" .null

/-- The kind of operation of a definition, as it is given. -/
def givenCategory (d : Fields Key Setting) : Setting :=
  given d "category" (.text Category.file.name)

/-- The group of the path of a definition, as it is given. -/
def givenGroup (d : Fields Key Setting) : Setting := given d "path_group" (.int 1)

/-- The mode of a definition, as it is given. -/
def givenMode (d : Fields Key Setting) : Setting := given d "mode" (.text "r")

/-- The method of a definition, as it is given. -/
def givenMethod (d : Fields Key Setting) : Setting := given d "method" (givenName d)

/-- The checks of a definition, in their order. -/
def checks (d : Fields Key Setting) : List Check :=
  [refusing ((givenName d).isTruthy = true) False,
   refusing ((givenRegex d).isTruthy = true) (Unshowable (givenName d)),
   refusing (∃ p, WritesPattern (givenRegex d) p)
    (BreaksReading (givenRegex d) ∨ Unshowable (givenName d)),
   refusing (∃ c : Category, givenCategory d = .text c.name)
    (Unshowable (givenName d) ∨ Unshowable (givenCategory d)),
   refusing (∃ p n, WritesPattern (givenRegex d) p ∧ GivesGroup p (givenGroup d) n)
    (IsUnhashable (givenGroup d) ∨ Unshowable (givenName d) ∨ Unshowable (givenGroup d)),
   refusing (¬ Unshowable (givenMode d)) True,
   refusing (¬ Unshowable (givenMethod d)) True]

theorem makes_ofDefinition (d : Fields Key Setting) :
    Makes Escapes (ofDefinition d) (checks d) := by
  rw [ofDefinition, checks]
  refine Makes.guard ((makes_declare _).bind fun _ h => by cases h) ?_
  refine Makes.guard ((makes_refuse _).bind fun _ h => absurd h refuse_ne_ok) ?_
  refine makes_patternOf.bind fun p hp => ?_
  refine makes_categoryOf.bind fun c _ => ?_
  -- The pattern is known here, so that the group need not be given for another one.
  have hgives : (∃ p n, WritesPattern (givenRegex d) p ∧ GivesGroup p (givenGroup d) n) =
      ∃ n, GivesGroup p (givenGroup d) n := by
    have hwrites := patternOf_eq_ok_iff.mp hp
    apply propext
    constructor
    · rintro ⟨p', n, hwrites', hn⟩
      exact ⟨n, hwrites'.unique hwrites ▸ hn⟩
    · rintro ⟨n, hn⟩
      exact ⟨p, n, hwrites, hn⟩
  rw [hgives]
  refine makes_groupOf.bind fun n _ => ?_
  refine makes_plain.bind fun mode _ => ?_
  refine makes_plain.bind fun method _ => ?_
  exact Check.makes_ok _

/-- **Definitions.** A rule comes out just when all checks accept, and a rule or a refusal just when
no check that is reached breaks off; otherwise it is one of a few faults. -/
theorem ofDefinition_accounted_iff (d : Fields Key Setting) :
    ((∃ r, ofDefinition d = .ok r) ↔ ∀ c ∈ checks d, c.accepts) ∧
      ((∃ r, ofDefinition d = .ok r) ∨ (∃ e, ofDefinition d = .error (.declared e)) ↔
        Orderly True (checks d)) ∧
      ∀ f, ofDefinition d = .error (.fault f) → Escapes f :=
  have hmakes := makes_ofDefinition d
  ⟨hmakes.accepted, hmakes.accounted_iff, hmakes.fault⟩

/-- A number in place of a regular expression is neither accepted nor refused. -/
theorem ofDefinition_not_accounted_number :
    ¬ ((∃ r, ofDefinition [(.text "name", .text "x"), (.text "regex", .int 5)] = .ok r) ∨
      ∃ e, ofDefinition [(.text "name", .text "x"), (.text "regex", .int 5)] =
        .error (.declared e)) := by
  have hfault : ofDefinition [(.text "name", .text "x"), (.text "regex", .int 5)] =
      .error (.fault .notARegex) := rfl
  rw [hfault]
  simp

end Rule

end Assay
