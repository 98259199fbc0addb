import Assay.Proofs.Regex.Captures
import Mathlib.Data.List.Induction
import Mathlib.Logic.Function.Basic

/-!
# Spelled texts

Which texts an expression matches between given neighbours, and with what texts in its groups,
is described by recursion on the expression, with neither places nor continuations. For a
straight expression this is exact: a run of it spells a text, and where it spells one and what
follows goes on from there, the run succeeds. Which of the spelled texts a run takes is left
open; where there is only one, as for the calls of a rule, nothing is lost by that.

## Main definitions

* `Regex.Texts` — the texts of the groups
* `Regex.Spells` — an expression spells a text
* `Regex.isStraight` — no round but an optional one, no negation and no look behind

## Main results

* `exists_spells_of_run` — a run spells what it consumes
* `exists_run_of_spells` — what is spelled is matched
* `exists_spells_of_mem_findAll` — every match is spelled
* `exists_mem_head?_findAll` — a match begins where a text is spelled
-/

namespace Assay

/-! ## Passed characters -/

namespace Cursor

variable {α : Type} {c : Cursor} {p : Char → Bool} {passed more rest after : List Char}

theorem past_nil (h : c.after = rest) : c.past [] rest = c := by
  cases c
  cases h
  rfl

theorem pass_eq_past (c : Cursor) (x : Char) (rest : List Char) :
    c.pass x rest = c.past [x] rest := rfl

/-- The characters of a set that follow are passed over, and no others. -/
theorem passAll_eq (p : Char → Bool) (count offset : Nat) (before after : List Char) :
    passAll p count offset before after =
      (count + (after.takeWhile p).length,
        past ⟨offset, before, after⟩ (after.takeWhile p) (after.dropWhile p)) := by
  induction after generalizing count offset before with
  | nil => rfl
  | cons x after ih =>
    rw [passAll]
    split
    · next hx =>
      rw [ih, List.takeWhile_cons_of_pos hx, List.dropWhile_cons_of_pos hx]
      simp [past, Nat.add_comm, Nat.add_left_comm]
    · next hx =>
      rw [List.takeWhile_cons_of_neg hx, List.dropWhile_cons_of_neg hx]
      rfl

/-- All characters of a set that follow are passed over, and perhaps more. -/
theorem exists_passAll_append (hall : ∀ x ∈ passed, p x = true) (count offset : Nat)
    (before after : List Char) :
    ∃ more rest, after = more ++ rest ∧
      passAll p count offset before (passed ++ after) =
        (count + (passed ++ more).length,
          past ⟨offset, before, passed ++ after⟩ (passed ++ more) rest) := by
  induction passed generalizing count offset before with
  | nil =>
    obtain ⟨more, rest, hafter, -, heq⟩ := exists_passAll_eq p count offset before after
    exact ⟨more, rest, hafter, heq⟩
  | cons x passed ih =>
    obtain ⟨hx, hall⟩ := List.forall_mem_cons.mp hall
    obtain ⟨more, rest, hafter, heq⟩ := ih hall (count + 1) (offset + 1) (x :: before)
    refine ⟨more, rest, hafter, ?_⟩
    rw [List.cons_append, passAll, if_pos hx, heq]
    simp [past, Nat.add_comm, Nat.add_left_comm]

theorem exists_passUpTo_append (hall : ∀ x ∈ passed, p x = true) {limit : Nat}
    (hlimit : passed.length ≤ limit) (count offset : Nat) (before after : List Char) :
    ∃ more rest, after = more ++ rest ∧
      passUpTo p limit count offset before (passed ++ after) =
        (count + (passed ++ more).length,
          past ⟨offset, before, passed ++ after⟩ (passed ++ more) rest) := by
  induction passed generalizing limit count offset before with
  | nil =>
    obtain ⟨more, rest, hafter, -, heq⟩ := exists_passUpTo_eq p limit count offset before after
    exact ⟨more, rest, hafter, heq⟩
  | cons x passed ih =>
    obtain ⟨hx, hall⟩ := List.forall_mem_cons.mp hall
    obtain ⟨limit, rfl⟩ : ∃ n, limit = n + 1 :=
      Nat.exists_eq_add_one.mpr (Nat.lt_of_lt_of_le (Nat.succ_pos _) hlimit)
    obtain ⟨more, rest, hafter, heq⟩ :=
      ih hall (Nat.le_of_succ_le_succ hlimit) (count + 1) (offset + 1) (x :: before)
    refine ⟨more, rest, hafter, ?_⟩
    rw [List.cons_append, passUpTo, if_pos hx, heq]
    simp [past, Nat.add_comm, Nat.add_left_comm]

/-- As many characters of a set as may be passed over are, and perhaps more. -/
theorem exists_passOver_append {limit : Option Nat} (hall : ∀ x ∈ passed, p x = true)
    (hlimit : ∀ n ∈ limit, passed.length ≤ n) (hafter : c.after = passed ++ after) :
    ∃ more rest, after = more ++ rest ∧
      c.passOver p limit = ((passed ++ more).length, c.past (passed ++ more) rest) := by
  obtain ⟨offset, before, cs⟩ := c
  obtain rfl : cs = passed ++ after := hafter
  cases limit with
  | none => simpa [passOver] using exists_passAll_append hall 0 offset before after
  | some n =>
    simpa [passOver] using exists_passUpTo_append hall (hlimit n rfl) 0 offset before after

theorem fst_passUpTo_le (p : Char → Bool) (limit count offset : Nat) (before after : List Char) :
    (passUpTo p limit count offset before after).1 ≤ count + limit := by
  induction limit generalizing count offset before after with
  | zero => exact Nat.le_refl _
  | succ limit ih =>
    cases after with
    | nil => exact Nat.le_add_right _ _
    | cons x after =>
      rw [passUpTo]
      split
      · exact Nat.le_trans (ih _ _ _ _) (by omega)
      · exact Nat.le_add_right _ _

/-- No more characters are passed over than the limit. -/
theorem fst_passOver_le (c : Cursor) (p : Char → Bool) (n : Nat) :
    (c.passOver p (some n)).1 ≤ n := by
  simpa [passOver] using fst_passUpTo_le p n 0 c.offset c.before c.after

/-- One step of a search back is to the place behind all passed characters but the last. -/
theorem searchBack_succ_past (f : Cursor → Option α) (n : Nat) (c : Cursor)
    (passed rest : List Char) (x : Char) :
    searchBack f (n + 1) (c.past (passed ++ [x]) rest) =
      (f (c.past (passed ++ [x]) rest)).or (searchBack f n (c.past passed (x :: rest))) := by
  have hbefore : (c.past (passed ++ [x]) rest).before = x :: (passed.reverse ++ c.before) := by
    simp [past]
  rw [searchBack, hbefore]
  simp [past, ← Nat.add_assoc]

/-- A search back succeeds when it would at a place that it comes to. -/
theorem isSome_searchBack {f : Cursor → Option α} {n : Nat} (hn : more.length ≤ n)
    (h : (f (c.past passed (more ++ rest))).isSome = true) :
    (searchBack f n (c.past (passed ++ more) rest)).isSome = true := by
  induction more using List.reverseRecOn generalizing n rest with
  | nil =>
    rw [List.append_nil]
    cases n with
    | zero => exact h
    | succ n =>
      rw [searchBack, Option.isSome_or, Bool.or_eq_true]
      exact .inl h
  | append_singleton more x ih =>
    rw [List.length_append, List.length_singleton] at hn
    obtain ⟨n, rfl⟩ : ∃ m, n = m + 1 := Nat.exists_eq_add_one.mpr (by omega)
    rw [← List.append_assoc, searchBack_succ_past, Option.isSome_or, Bool.or_eq_true]
    exact .inr (ih (Nat.le_of_succ_le_succ hn) (by simpa using h))

/-- A text follows when the next characters are its characters. -/
theorem follow?_eq_some_iff {cs : List Char} {d : Cursor} :
    follow? (· == ·) cs c = some d ↔ ∃ rest, c.after = cs ++ rest ∧ d = c.past cs rest := by
  induction cs generalizing c with
  | nil =>
    rw [follow?]
    constructor
    · rintro h
      exact ⟨c.after, rfl, (Option.some.inj h).symm.trans (past_nil rfl).symm⟩
    · rintro ⟨rest, hrest, rfl⟩
      have hrest : c.after = rest := hrest
      rw [past_nil hrest]
  | cons x cs ih =>
    rw [follow?]
    cases hafter : c.after with
    | nil => simp
    | cons y after =>
      by_cases hxy : x = y
      · subst hxy
        have hpast (rest : List Char) :
            (c.pass x after).past cs rest = c.past (x :: cs) rest := by
          simp [past, pass, Nat.add_comm, Nat.add_left_comm]
        simp [ih, pass, ← hpast]
      · simp [hxy, Ne.symm hxy]

end Cursor

namespace Regex

/-! ## Texts of groups -/

/-- The texts of the groups that have been captured. -/
abbrev Texts := Nat → Option (List Char)

/-- No group has been captured. -/
def Texts.none : Texts := fun _ => .none

/-- The texts of the groups that have been captured before a place. -/
def State.texts (s : State) : Texts := fun n => (s.capture? n).map Capture.text

/-- What has been consumed since a place becomes the text of a group. -/
theorem State.texts_close {s : State} {start : Cursor} {w rest : List Char} (n : Nat)
    (hstart : start.after = w ++ rest) (hs : s.cursor = start.past w rest) :
    (s.close n start).texts = Function.update s.texts n (some w) := by
  funext m
  rw [texts, capture?_close, Function.update_apply]
  split
  · simp [Capture.text, hs, hstart, Cursor.past]
  · rfl

/-! ## Spelled texts -/

/-- An expression spells a text, between what stands before it, the nearest character first, and
what stands behind it. The groups have given texts before, and others behind it. -/
def Spells : Regex → Texts → List Char → List Char → List Char → Texts → Prop
  | .empty, e, _, w, _, e' => w = [] ∧ e' = e
  | .one set, e, _, w, _, e' => (∃ x, set.contains x = true ∧ w = [x]) ∧ e' = e
  | .anchor a, e, before, w, rest, e' => a.holds ⟨0, before, rest⟩ = true ∧ w = [] ∧ e' = e
  | .seq r r', e, before, w, rest, e' =>
    ∃ v v' f, w = v ++ v' ∧ Spells r e before v (v' ++ rest) f ∧
      Spells r' f (v.reverse ++ before) v' rest e'
  | .alt r r', e, before, w, rest, e' =>
    Spells r e before w rest e' ∨ Spells r' e before w rest e'
  | .group n r, e, before, w, rest, e' =>
    ∃ f, Spells r e before w rest f ∧ e' = Function.update f n (some w)
  | .oneRepeated set min max _, e, _, w, _, e' =>
    (∀ x ∈ w, set.contains x = true) ∧ min ≤ w.length ∧ (∀ n ∈ max, w.length ≤ n) ∧ e' = e
  | .repeated r _ _ _, e, before, w, rest, e' =>
    Spells r e before w rest e' ∨ w = [] ∧ e' = e
  | .backref n _, e, _, w, _, e' => e n = some w ∧ e' = e
  | .lookahead _ r, e, before, w, rest, e' =>
    (∃ v v', rest = v ++ v' ∧ Spells r e before v v' e') ∧ w = [] ∧ e' = e
  | .lookbehind .., _, _, _, _, _ | .atomic _, _, _, _, _, _ | .ifGroup .., _, _, _, _, _ => False

/-- An expression in which nothing is repeated but single characters, as many as possible, and
optional parts, and which looks at no more than one character ahead. -/
def isStraight : Regex → Bool
  | .empty | .one _ | .anchor _ => true
  | .seq r r' | .alt r r' => r.isStraight && r'.isStraight
  | .group _ r => r.isStraight
  | .oneRepeated _ _ _ greed => greed == .greedy
  | .repeated r min max greed => min == 0 && max == some 1 && greed == .greedy && r.isStraight
  | .backref _ folded => folded.isNone
  | .lookahead negated r => !negated && match r with
    | .one _ => true
    | _ => false
  | .lookbehind .. | .atomic _ | .ifGroup .. => false

/-- Conditions on a place say nothing about how far it is from the beginning. -/
theorem Anchor.holds_congr (a : Anchor) (c : Cursor) :
    a.holds c = a.holds ⟨0, c.before, c.after⟩ := by
  cases a <;> rfl

/-- An optional part is tried first and left out next. -/
theorem run_optional (r : Regex) (s : State) (k : Continuation) :
    run (.repeated r 0 (some 1) .greedy) s k = (run r s k).or (k s) := by
  rw [run, required]
  cases s.cursor.after with
  | nil => simp [rounds, oneRound]
  | cons x after =>
    have hlast (room : List Char) (o : Nat) :
        rounds (run r) (some 1) .greedy k room 1 (some o) = k := by
      funext t
      cases room <;> simp [rounds, oneRound]
    simp [rounds, oneRound, hlast]

/-- A single character is looked at without being captured. -/
theorem run_lookahead_one (set : CharSet) (s : State) (k : Continuation) :
    run (.lookahead false (.one set)) s k =
      if s.cursor.after.head?.any set.contains then k s else none := by
  rw [run, run]
  cases s.cursor.after with
  | nil => simp
  | cons x after =>
    cases hx : set.contains x <;> simp [hx, State.moveTo]

variable {r r' : Regex} {s t u : State} {k : Continuation} {e e' : Texts} {n : Nat}
  {before w rest cs : List Char}

/-! ## What sequences and literals spell -/

theorem spells_sequence_nil :
    Spells (sequence []) e before w rest e' ↔ w = [] ∧ e' = e := Iff.rfl

/-- A sequence spells a text of its first item and then one of the others. -/
theorem spells_sequence_cons (r : Regex) (rs : List Regex) :
    Spells (sequence (r :: rs)) e before w rest e' ↔
      ∃ v v' f, w = v ++ v' ∧ Spells r e before v (v' ++ rest) f ∧
        Spells (sequence rs) f (v.reverse ++ before) v' rest e' := by
  cases rs with
  | nil =>
    constructor
    · intro h
      exact ⟨w, [], e', by simp, h, rfl, rfl⟩
    · rintro ⟨v, v', f, rfl, h, rfl, rfl⟩
      rw [List.append_nil]
      exact h
  | cons r' rs => exact Iff.rfl

theorem spells_char {c : Char} :
    Spells (char c) e before w rest e' ↔ w = [c] ∧ e' = e := by
  simp [char, Spells]

/-- A literal spells its characters. -/
theorem spells_literal {text : String} :
    Spells (literal text) e before w rest e' ↔ w = text.toList ∧ e' = e := by
  rw [literal]
  induction text.toList generalizing before w with
  | nil => exact Iff.rfl
  | cons c cs ih =>
    rw [List.map_cons, spells_sequence_cons]
    constructor
    · rintro ⟨v, v', f, rfl, hv, hv'⟩
      obtain ⟨rfl, rfl⟩ := spells_char.mp hv
      obtain ⟨rfl, rfl⟩ := ih.mp hv'
      exact ⟨rfl, rfl⟩
    · rintro ⟨rfl, rfl⟩
      exact ⟨[c], cs, e', rfl, spells_char.mpr ⟨rfl, rfl⟩, ih.mpr ⟨rfl, rfl⟩⟩

/-- What is optional, and more than a single character, spells the empty text as well. -/
theorem spells_optional (hr : optional r = .repeated r 0 (some 1) .greedy) :
    Spells (optional r) e before w rest e' ↔ Spells r e before w rest e' ∨ w = [] ∧ e' = e := by
  rw [hr]
  exact Iff.rfl

/-! ## Runs along a text -/

theorem run_sequence_cons (r : Regex) (rs : List Regex) (s : State) (k : Continuation) :
    run (sequence (r :: rs)) s k = run r s fun t => run (sequence rs) t k := by
  cases rs <;> rfl

/-- A literal consumes its characters. -/
theorem run_literal {text : String} (h : s.cursor.after = text.toList ++ rest) (k : Continuation) :
    run (literal text) s k = k (s.moveTo (s.cursor.past text.toList rest)) := by
  rw [literal]
  generalize text.toList = cs at h
  induction cs generalizing s with
  | nil =>
    rw [List.nil_append] at h
    rw [Cursor.past_nil h]
    rfl
  | cons c cs ih =>
    have hc : run (char c) s = fun k => k (s.moveTo (s.cursor.pass c (cs ++ rest))) := by
      funext k
      rw [char, run, h]
      simp
    rw [List.map_cons, run_sequence_cons, hc]
    dsimp only
    rw [ih rfl, Cursor.pass_eq_past]
    simp [State.moveTo, Cursor.past, Nat.add_comm, Nat.add_left_comm]

/-- As many characters of a set as follow are consumed, if what comes next succeeds there. -/
theorem run_oneRepeated_of_some {set : CharSet} {min : Nat} (hall : ∀ x ∈ w, set.contains x = true)
    (hrest : ∀ x ∈ rest.head?, set.contains x = false) (hmin : min ≤ w.length)
    (h : s.cursor.after = w ++ rest) (hk : k (s.moveTo (s.cursor.past w rest)) = some u) :
    run (.oneRepeated set min none .greedy) s k = some u := by
  have htake : (w ++ rest).takeWhile set.contains = w := by
    rw [List.takeWhile_append_of_pos hall]
    cases rest with
    | nil => simp
    | cons x rest => simp [hrest x rfl]
  have hdrop : (w ++ rest).dropWhile set.contains = rest := by
    rw [List.dropWhile_append_of_pos hall]
    cases rest with
    | nil => rfl
    | cons x rest => simp [hrest x rfl]
  have hpass : s.cursor.passOver set.contains none = (w.length, s.cursor.past w rest) := by
    rw [Cursor.passOver, Cursor.passAll_eq, h, htake, hdrop, Nat.zero_add, ← h]
  rw [run, hpass]
  dsimp only
  rw [if_neg (Nat.not_lt.mpr hmin)]
  cases w.length - min with
  | zero => exact hk
  | succ n => rw [Cursor.searchBack, hk, Option.some_or]

/-! ## Runs spell -/

/-- A run consumes a text that the expression spells, and goes on behind it. -/
def Spelled (r : Regex) (s : State) (k : Continuation) (u : State) : Prop :=
  ∃ w rest t, s.cursor.after = w ++ rest ∧ Spells r s.texts s.cursor.before w rest t.texts ∧
    t.cursor = s.cursor.past w rest ∧ k t = some u

/-- What consumes nothing leaves the state as it is. -/
theorem Spelled.of_same (h : Spells r s.texts s.cursor.before [] s.cursor.after s.texts)
    (hk : k s = some u) : Spelled r s k u :=
  ⟨[], s.cursor.after, s, rfl, h, (Cursor.past_nil rfl).symm, hk⟩

theorem Spelled.mono (h : Spelled r s k u)
    (hr : ∀ w rest e', Spells r s.texts s.cursor.before w rest e' →
      Spells r' s.texts s.cursor.before w rest e') : Spelled r' s k u := by
  obtain ⟨w, rest, t, hafter, hspells, ht, hk⟩ := h
  exact ⟨w, rest, t, hafter, hr _ _ _ hspells, ht, hk⟩

theorem spelled_of_oneRepeated {set : CharSet} {min : Nat} {max : Option Nat}
    (h : run (.oneRepeated set min max .greedy) s k = some u) :
    Spelled (.oneRepeated set min max .greedy) s k u := by
  obtain ⟨passed, rest, hafter, hall, hpass⟩ :=
    Cursor.exists_passOver_eq s.cursor set.contains max
  have hmax : ∀ n ∈ max, passed.length ≤ n := by
    rintro n rfl
    simpa [hpass] using Cursor.fst_passOver_le s.cursor set.contains n
  rw [run, hpass] at h
  dsimp only at h
  split at h
  · cases h
  · next hmin =>
    -- The search goes back over no more characters than are not required.
    obtain ⟨front, back, rfl, hback, hk⟩ := Cursor.exists_past_of_searchBack h (Nat.sub_le _ _)
    rw [List.length_append] at hback hmin
    refine ⟨front, back ++ rest, s.moveTo (s.cursor.past front (back ++ rest)),
      by rw [hafter, List.append_assoc], ⟨?_, by omega, ?_, rfl⟩, rfl, hk⟩
    · exact fun x hx => hall x (List.mem_append_left back hx)
    · exact fun n hn => Nat.le_trans (by simp) (hmax n hn)

/-- **A run spells what it consumes.** When a straight expression and what follows it match, the
expression spells the text from the state on to one from which what follows gives the result. -/
theorem exists_spells_of_run (hr : r.isStraight = true) (h : run r s k = some u) :
    Spelled r s k u := by
  induction r generalizing s k u with
  | empty => exact .of_same ⟨rfl, rfl⟩ h
  | one set =>
    rw [run] at h
    split at h
    · cases h
    · next x rest hafter =>
      split at h
      · next hx =>
        exact ⟨[x], rest, s.moveTo (s.cursor.past [x] rest), hafter, ⟨⟨x, hx, rfl⟩, rfl⟩, rfl, h⟩
      · cases h
  | anchor a =>
    rw [run] at h
    split at h
    · next ha => exact .of_same ⟨a.holds_congr s.cursor ▸ ha, rfl, rfl⟩ h
    · cases h
  | seq r r' ih ih' =>
    obtain ⟨hr, hr'⟩ := Bool.and_eq_true_iff.mp hr
    obtain ⟨v, rest, t, hafter, hv, ht, hrun⟩ := ih hr h
    obtain ⟨v', rest', t', hafter', hv', ht', hk⟩ := ih' hr' hrun
    obtain rfl : rest = v' ++ rest' := by simpa [ht] using hafter'
    refine ⟨v ++ v', rest', t', by rw [hafter, List.append_assoc], ⟨v, v', _, rfl, hv, ?_⟩, ?_,
      hk⟩
    · simpa [ht, Cursor.past] using hv'
    · rw [ht', ht, Cursor.past_append]
  | alt r r' ih ih' =>
    obtain ⟨hr, hr'⟩ := Bool.and_eq_true_iff.mp hr
    rcases Option.or_eq_some_iff.mp h with h | ⟨-, h⟩
    · exact (ih hr h).mono fun _ _ _ => .inl
    · exact (ih' hr' h).mono fun _ _ _ => .inr
  | group n r ih =>
    obtain ⟨w, rest, t, hafter, hw, ht, hk⟩ := ih hr h
    exact ⟨w, rest, t.close n s.cursor, hafter, ⟨t.texts, hw, State.texts_close n hafter ht⟩,
      ht, hk⟩
  | oneRepeated set min max greed =>
    obtain rfl : greed = .greedy := by simpa [isStraight] using hr
    exact spelled_of_oneRepeated h
  | repeated r min max greed ih =>
    simp only [isStraight, Bool.and_eq_true, beq_iff_eq] at hr
    obtain ⟨⟨⟨rfl, rfl⟩, rfl⟩, hr⟩ := hr
    rw [run_optional] at h
    rcases Option.or_eq_some_iff.mp h with h | ⟨-, h⟩
    · exact (ih hr h).mono fun _ _ _ => .inl
    · exact .of_same (.inr ⟨rfl, rfl⟩) h
  | backref n folded =>
    obtain rfl : folded = none := by simpa [isStraight] using hr
    rw [run] at h
    split at h
    · cases h
    · next capture hcapture =>
      split at h
      · cases h
      · next c hfollow =>
        obtain ⟨rest, hafter, rfl⟩ := Cursor.follow?_eq_some_iff.mp hfollow
        exact ⟨capture.text, rest, s.moveTo (s.cursor.past capture.text rest), hafter,
          ⟨by simp [State.texts, hcapture], rfl⟩, rfl, h⟩
  | lookahead negated r =>
    cases negated with
    | true => cases hr
    | false =>
      cases r with
      | one set =>
        rw [run_lookahead_one] at h
        split at h
        · next hx =>
          obtain ⟨x, hhead, hx⟩ := (Option.any_eq_true _ _).mp hx
          obtain ⟨rest, hafter⟩ := List.head?_eq_some_iff.mp hhead
          exact .of_same ⟨⟨[x], rest, hafter, ⟨x, hx, rfl⟩, rfl⟩, rfl, rfl⟩ h
        · cases h
      | _ => cases hr
  | lookbehind | atomic | ifGroup => cases hr

/-! ## What is spelled is matched -/

/-- A state behind a spelled text, from which what follows can go on so that the expression and
what follows match. -/
def Reaches (r : Regex) (s : State) (w rest : List Char) (e' : Texts) : Prop :=
  ∃ t : State, t.cursor = s.cursor.past w rest ∧ t.texts = e' ∧
    ∀ k : Continuation, (k t).isSome = true → (run r s k).isSome = true

theorem Reaches.of_same (hafter : s.cursor.after = rest)
    (h : ∀ k : Continuation, (k s).isSome = true → (run r s k).isSome = true) :
    Reaches r s [] rest s.texts :=
  ⟨s, (Cursor.past_nil hafter).symm, rfl, h⟩

theorem reaches_oneRepeated {set : CharSet} {min : Nat} {max : Option Nat}
    (hall : ∀ x ∈ w, set.contains x = true) (hmin : min ≤ w.length)
    (hmax : ∀ n ∈ max, w.length ≤ n) (hafter : s.cursor.after = w ++ rest) :
    Reaches (.oneRepeated set min max .greedy) s w rest s.texts := by
  refine ⟨s.moveTo (s.cursor.past w rest), rfl, rfl, fun k hk => ?_⟩
  obtain ⟨more, rest', rfl, hpass⟩ := Cursor.exists_passOver_append hall hmax hafter
  rw [run, hpass]
  dsimp only
  rw [List.length_append, if_neg (by omega)]
  exact Cursor.isSome_searchBack (by omega) hk

/-- **What is spelled is matched.** Where a straight expression spells a text and what follows
goes on behind it, a run succeeds; it may take another way, though. -/
theorem exists_run_of_spells (hr : r.isStraight = true) (hafter : s.cursor.after = w ++ rest)
    (h : Spells r s.texts s.cursor.before w rest e') : Reaches r s w rest e' := by
  induction r generalizing s w rest e' with
  | empty =>
    obtain ⟨rfl, rfl⟩ := h
    exact .of_same hafter fun k hk => hk
  | one set =>
    obtain ⟨⟨x, hx, rfl⟩, rfl⟩ := h
    refine ⟨s.moveTo (s.cursor.past [x] rest), rfl, rfl, fun k hk => ?_⟩
    rw [run, hafter]
    simpa [hx, Cursor.pass_eq_past] using hk
  | anchor a =>
    obtain ⟨ha, rfl, rfl⟩ := h
    refine .of_same hafter fun k hk => ?_
    rw [run, a.holds_congr, hafter, List.nil_append, if_pos ha]
    exact hk
  | seq r r' ih ih' =>
    obtain ⟨hr, hr'⟩ := Bool.and_eq_true_iff.mp hr
    obtain ⟨v, v', f, rfl, hv, hv'⟩ := h
    rw [List.append_assoc] at hafter
    obtain ⟨t, ht, rfl, hrun⟩ := ih hr hafter hv
    obtain ⟨t', ht', rfl, hrun'⟩ :=
      ih' hr' (s := t) (by rw [ht]; rfl) (by rw [ht]; exact hv')
    refine ⟨t', ?_, rfl, fun k hk => hrun _ (hrun' k hk)⟩
    rw [ht', ht, Cursor.past_append]
  | alt r r' ih ih' =>
    obtain ⟨hr, hr'⟩ := Bool.and_eq_true_iff.mp hr
    rcases h with h | h
    · obtain ⟨t, ht, he, hrun⟩ := ih hr hafter h
      refine ⟨t, ht, he, fun k hk => ?_⟩
      rw [run, Option.isSome_or, hrun k hk, Bool.true_or]
    · obtain ⟨t, ht, he, hrun⟩ := ih' hr' hafter h
      refine ⟨t, ht, he, fun k hk => ?_⟩
      rw [run, Option.isSome_or, hrun k hk, Bool.or_true]
  | group n r ih =>
    obtain ⟨f, h, rfl⟩ := h
    obtain ⟨t, ht, rfl, hrun⟩ := ih hr hafter h
    exact ⟨t.close n s.cursor, ht, State.texts_close n hafter ht, fun k hk => hrun _ hk⟩
  | oneRepeated set min max greed =>
    obtain rfl : greed = .greedy := by simpa [isStraight] using hr
    obtain ⟨hall, hmin, hmax, rfl⟩ := h
    exact reaches_oneRepeated hall hmin hmax hafter
  | repeated r min max greed ih =>
    simp only [isStraight, Bool.and_eq_true, beq_iff_eq] at hr
    obtain ⟨⟨⟨rfl, rfl⟩, rfl⟩, hr⟩ := hr
    rcases h with h | ⟨rfl, rfl⟩
    · obtain ⟨t, ht, he, hrun⟩ := ih hr hafter h
      refine ⟨t, ht, he, fun k hk => ?_⟩
      rw [run_optional, Option.isSome_or, hrun k hk, Bool.true_or]
    · refine .of_same hafter fun k hk => ?_
      rw [run_optional, Option.isSome_or, hk, Bool.or_true]
  | backref n folded =>
    obtain rfl : folded = none := by simpa [isStraight] using hr
    obtain ⟨hn, rfl⟩ := h
    obtain ⟨capture, hcapture, rfl⟩ := Option.map_eq_some_iff.mp hn
    refine ⟨s.moveTo (s.cursor.past capture.text rest), rfl, rfl, fun k hk => ?_⟩
    have hfollow := Cursor.follow?_eq_some_iff.mpr ⟨rest, hafter, rfl⟩
    rw [run, hcapture]
    dsimp only [sameIn]
    rw [hfollow]
    exact hk
  | lookahead negated r =>
    cases negated with
    | true => cases hr
    | false =>
      cases r with
      | one set =>
        obtain ⟨⟨v, v', rfl, ⟨⟨x, hx, rfl⟩, -⟩⟩, rfl, rfl⟩ := h
        refine .of_same hafter fun k hk => ?_
        rw [run_lookahead_one, hafter, if_pos (by simp [hx])]
        exact hk
      | _ => cases hr
  | lookbehind | atomic | ifGroup => cases hr

/-! ## Matches -/

variable {m : Match} {c : Cursor}

/-- The group of a match, other than the whole of it, is what has been captured. -/
theorem group?_eq_texts {start : Cursor} (hn : n ≠ 0) :
    Match.group? n ⟨start, w, s.captures⟩ = s.texts n := by
  rw [Match.group?, if_neg hn]
  rfl

/-- A match at a place is spelled from there on. -/
theorem exists_spells_of_mem_matchesAt (hr : r.isStraight = true) (h : m ∈ matchesAt r c) :
    m.start = c ∧ ∃ rest e, c.after = m.text ++ rest ∧
      Spells r Texts.none c.before m.text rest e ∧ ∀ n ≠ 0, m.group? n = e n := by
  obtain ⟨proper, h⟩ := exists_matchAt?_of_mem_matchesAt h
  obtain ⟨u, hrun, rfl⟩ := Option.map_eq_some_iff.mp h
  obtain ⟨w, rest, t, hafter, hspells, ht, hk⟩ := exists_spells_of_run hr hrun
  obtain rfl : t = u := by
    dsimp only at hk
    split at hk
    · cases hk
    · exact Option.some.inj hk
  have htext : c.after.take (t.cursor.offset - c.offset) = w := by
    change c.after = w ++ rest at hafter
    rw [hafter, ht]
    simp [Cursor.past]
  dsimp only
  rw [htext]
  exact ⟨rfl, rest, t.texts, hafter, hspells, fun n hn => group?_eq_texts hn⟩

/-- **Every match is spelled**, from where it begins and with the texts of its groups. -/
theorem exists_spells_of_mem_findAll (hr : r.isStraight = true) (h : m ∈ findAll r cs) :
    ∃ rest e, m.start.after = m.text ++ rest ∧
      Spells r Texts.none m.start.before m.text rest e ∧ ∀ n ≠ 0, m.group? n = e n := by
  obtain ⟨passed, rest, -, hm⟩ := exists_past_of_mem_matchesFrom h
  obtain ⟨hstart, hspells⟩ := exists_spells_of_mem_matchesAt hr hm
  exact hstart ▸ hspells

/-- Where a text is spelled there is a match. -/
theorem matchesAt_ne_nil_of_spells (hr : r.isStraight = true) (hafter : c.after = w ++ rest)
    (h : Spells r Texts.none c.before w rest e) : matchesAt r c ≠ [] := by
  obtain ⟨t, -, -, hrun⟩ := exists_run_of_spells (s := ⟨c, []⟩) hr hafter h
  obtain ⟨u, hu⟩ := Option.isSome_iff_exists.mp (hrun some rfl)
  have hmatch : matchAt? r false c =
      some ⟨c, c.after.take (u.cursor.offset - c.offset), u.captures⟩ := by
    simp [matchAt?, hu]
  rw [matchesAt, hmatch]
  dsimp only
  split <;> simp

/-- Where no match begins the search goes on. -/
theorem matchesFrom_append {front : List Char}
    (hfront : ∀ a b, front = a ++ b → b ≠ [] →
      matchesAt r (Cursor.past ⟨n, before, front ++ rest⟩ a (b ++ rest)) = []) :
    matchesFrom r 0 n before (front ++ rest) =
      matchesFrom r 0 (n + front.length) (front.reverse ++ before) rest := by
  induction front generalizing n before with
  | nil => simp
  | cons x front ih =>
    have hx : matchesAt r ⟨n, before, x :: (front ++ rest)⟩ = [] :=
      hfront [] (x :: front) rfl (by simp)
    have hbehind : matchesFrom r 0 (n + 1) (x :: before) (front ++ rest) =
        matchesFrom r 0 (n + 1 + front.length) (front.reverse ++ x :: before) rest :=
      ih fun a b hab hb => by
        simpa [Cursor.past, Nat.add_comm, Nat.add_left_comm] using
          hfront (x :: a) b (by rw [hab]; rfl) hb
    rw [List.cons_append, matchesFrom, hx, List.nil_append, List.getLast?_nil]
    simpa [Nat.add_comm, Nat.add_left_comm] using hbehind

/-- Within a match the search goes on. -/
theorem matchesFrom_length_append (r : Regex) (n : Nat) (before w rest : List Char) :
    matchesFrom r w.length n before (w ++ rest) =
      matchesFrom r 0 (n + w.length) (w.reverse ++ before) rest := by
  induction w generalizing n before with
  | nil => rfl
  | cons x w ih =>
    rw [List.cons_append, List.length_cons, matchesFrom, ih]
    simp [Nat.add_comm, Nat.add_left_comm]

/-- Behind a match the search goes on. -/
theorem matchesFrom_eq_cons (hw : w ≠ []) (hm : m.text = w)
    (h : matchesAt r ⟨n, before, w ++ rest⟩ = [m]) :
    matchesFrom r 0 n before (w ++ rest) =
      m :: matchesFrom r 0 (n + w.length) (w.reverse ++ before) rest := by
  obtain ⟨x, w, rfl⟩ := List.exists_cons_of_ne_nil hw
  have hbehind := matchesFrom_length_append r (n + 1) (x :: before) w rest
  rw [List.cons_append] at h ⊢
  rw [matchesFrom, h]
  simpa [hm, Nat.add_comm, Nat.add_left_comm] using hbehind

theorem head?_matchesFrom_of_ne_nil (h : matchesAt r ⟨n, before, rest⟩ ≠ []) :
    (matchesFrom r 0 n before rest).head? = (matchesAt r ⟨n, before, rest⟩).head? := by
  cases rest with
  | nil => rfl
  | cons x rest =>
    obtain ⟨m, ms, hms⟩ := List.exists_cons_of_ne_nil h
    rw [matchesFrom, hms]
    rfl

/-- **A match begins where a text is spelled**, when all texts that are spelled begin with a
character that does not occur before it, and no match is found before it. -/
theorem exists_mem_head?_findAll (front : List Char) (hr : r.isStraight = true)
    (hfirst : ∀ before w rest e, Spells r Texts.none before w rest e → ∃ x ∈ w.head?, x ∉ front)
    (hw : Spells r Texts.none front.reverse w rest e) :
    ∃ m ∈ (findAll r (front ++ (w ++ rest))).head?,
      m.start = ⟨front.length, front.reverse, w ++ rest⟩ := by
  have hskip : findAll r (front ++ (w ++ rest)) =
      matchesFrom r 0 front.length front.reverse (w ++ rest) := by
    rw [findAll, matchesFrom_append, Nat.zero_add, List.append_nil]
    intro a b hab hb
    refine List.eq_nil_iff_forall_not_mem.mpr fun m hm => ?_
    obtain ⟨-, rest', e', hafter, hspells, -⟩ := exists_spells_of_mem_matchesAt hr hm
    obtain ⟨x, hx, hnot⟩ := hfirst _ _ _ _ hspells
    obtain ⟨v, hv⟩ := List.head?_eq_some_iff.mp hx
    obtain ⟨y, b, rfl⟩ := List.exists_cons_of_ne_nil hb
    have hxy : x = y := by
      rw [hv] at hafter
      exact (List.cons.inj hafter).1.symm
    exact hnot (hab ▸ hxy ▸ by simp)
  have hat := matchesAt_ne_nil_of_spells (c := ⟨front.length, front.reverse, w ++ rest⟩) hr rfl hw
  obtain ⟨m, ms, hms⟩ := List.exists_cons_of_ne_nil hat
  refine ⟨m, ?_, ?_⟩
  · rw [hskip, head?_matchesFrom_of_ne_nil hat, hms]
    rfl
  · exact (exists_spells_of_mem_matchesAt hr (hms ▸ List.mem_cons_self)).1

end Regex

end Assay
