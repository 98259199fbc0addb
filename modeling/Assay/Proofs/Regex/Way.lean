import Assay.Regex.Match

/-!
# Ways through a regular expression

`Regex.run` tries the ways on which an expression can match one after the other and gives
what follows to each as a continuation. A way is described here on its own, by one rule for
each kind of expression, without the order in which ways are tried: from a state, an
expression leads to another state. What holds along every way holds of every match.

Ways over-approximate: that something must not follow, that only the first way counts and
that a repetition has a greatest count is left out, since it only rules ways out.

## Main definitions

* `Cursor.past` — the place behind a text that follows
* `Regex.Way` — an expression leads from one state to another

## Main results

* `exists_past_of_searchBack`, `exists_past_of_searchOn` — where a search for repeated
  characters succeeds
* `exists_way_of_run` — a run goes along a way
-/

namespace Assay

/-! ## Places -/

namespace Cursor

/-- The place behind a text that follows, in front of the rest. -/
def past (c : Cursor) (passed rest : List Char) : Cursor :=
  ⟨c.offset + passed.length, passed.reverse ++ c.before, rest⟩

@[simp] theorem past_after (c : Cursor) (passed rest : List Char) :
    (c.past passed rest).after = rest := rfl

theorem past_append (c : Cursor) (front back rest : List Char) :
    (c.past front (back ++ rest)).past back rest = c.past (front ++ back) rest := by
  simp [past, Nat.add_assoc]

variable {α : Type} {c d : Cursor} {p : Char → Bool} {count offset : Nat}
  {before after passed rest : List Char} {f : Cursor → Option α} {a : α}

/-- The characters of a set that follow are passed over, up to the first other one. -/
theorem exists_passAll_eq (p : Char → Bool) (count offset : Nat) (before after : List Char) :
    ∃ passed rest, after = passed ++ rest ∧ (∀ x ∈ passed, p x = true) ∧
      passAll p count offset before after =
        (count + passed.length, past ⟨offset, before, after⟩ passed rest) := by
  induction after generalizing count offset before with
  | nil => exact ⟨[], [], rfl, by simp, rfl⟩
  | cons x after ih =>
    rw [passAll]
    split
    · next hx =>
      obtain ⟨passed, rest, rfl, hall, heq⟩ := ih (count + 1) (offset + 1) (x :: before)
      refine ⟨x :: passed, rest, rfl, List.forall_mem_cons.mpr ⟨hx, hall⟩, ?_⟩
      rw [heq]
      simp [past, Nat.add_comm, Nat.add_left_comm]
    · exact ⟨[], x :: after, rfl, by simp, rfl⟩

theorem exists_passUpTo_eq (p : Char → Bool) (limit count offset : Nat)
    (before after : List Char) :
    ∃ passed rest, after = passed ++ rest ∧ (∀ x ∈ passed, p x = true) ∧
      passUpTo p limit count offset before after =
        (count + passed.length, past ⟨offset, before, after⟩ passed rest) := by
  induction limit generalizing count offset before after with
  | zero => exact ⟨[], after, rfl, by simp, rfl⟩
  | succ limit ih =>
    cases after with
    | nil => exact ⟨[], [], rfl, by simp, rfl⟩
    | cons x after =>
      rw [passUpTo]
      split
      · next hx =>
        obtain ⟨passed, rest, rfl, hall, heq⟩ := ih (count + 1) (offset + 1) (x :: before) after
        refine ⟨x :: passed, rest, rfl, List.forall_mem_cons.mpr ⟨hx, hall⟩, ?_⟩
        rw [heq]
        simp [past, Nat.add_comm, Nat.add_left_comm]
      · exact ⟨[], x :: after, rfl, by simp, rfl⟩

/-- However many characters of a set may be passed over, those that are stand next. -/
theorem exists_passOver_eq (c : Cursor) (p : Char → Bool) (limit : Option Nat) :
    ∃ passed rest, c.after = passed ++ rest ∧ (∀ x ∈ passed, p x = true) ∧
      c.passOver p limit = (passed.length, c.past passed rest) := by
  cases limit with
  | none => simpa [passOver] using exists_passAll_eq p 0 c.offset c.before c.after
  | some n => simpa [passOver] using exists_passUpTo_eq p n 0 c.offset c.before c.after

/-- A search back over passed characters succeeds behind some of them. -/
theorem exists_past_of_searchBack {n : Nat} (h : searchBack f n (c.past passed rest) = some a)
    (hn : n ≤ passed.length) :
    ∃ front back, passed = front ++ back ∧ back.length ≤ n ∧
      f (c.past front (back ++ rest)) = some a := by
  induction n generalizing passed rest with
  | zero => exact ⟨passed, [], by simp, by simp, h⟩
  | succ n ih =>
    rw [searchBack, Option.or_eq_some_iff] at h
    rcases h with h | ⟨-, h⟩
    · exact ⟨passed, [], by simp, by simp, h⟩
    · obtain ⟨init, x, rfl⟩ : ∃ init x, passed = init ++ [x] := by
        rcases List.eq_nil_or_concat passed with rfl | ⟨init, x, hinit⟩
        · simp at hn
        · exact ⟨init, x, by simpa using hinit⟩
      -- One step back is the place behind all passed characters but the last.
      have hback : (c.past (init ++ [x]) rest).before = x :: (init.reverse ++ c.before) := by
        simp [past]
      rw [hback] at h
      have hinit : searchBack f n (c.past init (x :: rest)) = some a := by simpa [past] using h
      obtain ⟨front, back, rfl, hlength, hf⟩ := ih hinit (by simpa using hn)
      exact ⟨front, back ++ [x], by simp, by simpa using hlength, by simpa using hf⟩

/-- A search on over characters of a set succeeds behind some of them. -/
theorem exists_past_of_searchOn {limit : Option Nat}
    (h : searchOn f p limit offset before after = some a) :
    ∃ passed rest, after = passed ++ rest ∧ (∀ x ∈ passed, p x = true) ∧
      f (past ⟨offset, before, after⟩ passed rest) = some a := by
  induction after generalizing limit offset before with
  | nil => exact ⟨[], [], rfl, by simp, h⟩
  | cons x after ih =>
    rw [searchOn, Option.or_eq_some_iff] at h
    rcases h with h | ⟨-, h⟩
    · exact ⟨[], x :: after, rfl, by simp, h⟩
    · split at h
      · next hx =>
        obtain ⟨passed, rest, rfl, hall, hf⟩ := ih h
        have hx : p x = true := (Bool.and_eq_true_iff.mp hx).2
        refine ⟨x :: passed, rest, rfl, List.forall_mem_cons.mpr ⟨hx, hall⟩, ?_⟩
        simpa [past, Nat.add_comm, Nat.add_left_comm] using hf
      · cases h

end Cursor

/-! ## Ways -/

namespace Regex

/-- An expression leads from one state to another. -/
inductive Way : Regex → State → State → Prop where
  | empty (s : State) : Way .empty s s
  | one {set : CharSet} {s : State} {x : Char} {rest : List Char}
      (hafter : s.cursor.after = x :: rest) (hx : set.contains x = true) :
      Way (.one set) s (s.moveTo (s.cursor.pass x rest))
  | anchor {a : Anchor} {s : State} (h : a.holds s.cursor = true) : Way (.anchor a) s s
  | seq {r r' : Regex} {s t u : State} (h : Way r s t) (h' : Way r' t u) : Way (.seq r r') s u
  | altFirst {r r' : Regex} {s t : State} (h : Way r s t) : Way (.alt r r') s t
  | altSecond {r r' : Regex} {s t : State} (h : Way r' s t) : Way (.alt r r') s t
  | group {n : Nat} {r : Regex} {s t : State} (h : Way r s t) :
      Way (.group n r) s (t.close n s.cursor)
  | oneRepeated {set : CharSet} {min : Nat} {max : Option Nat} {greed : Greed} {s : State}
      {passed rest : List Char} (hafter : s.cursor.after = passed ++ rest)
      (hall : ∀ x ∈ passed, set.contains x = true) (hmin : min ≤ passed.length) :
      Way (.oneRepeated set min max greed) s (s.moveTo (s.cursor.past passed rest))
  /-- No more rounds are needed. -/
  | repeatedDone {r : Regex} {max : Option Nat} {greed : Greed} (s : State) :
      Way (.repeated r 0 max greed) s s
  /-- One round, and then one less is needed. -/
  | repeatedRound {r : Regex} {min : Nat} {max : Option Nat} {greed : Greed} {s t u : State}
      (h : Way r s t) (h' : Way (.repeated r (min - 1) max greed) t u) :
      Way (.repeated r min max greed) s u
  | backref {n : Nat} {folded : Option Scope} {s : State} {capture : Capture} {c : Cursor}
      (hcapture : s.capture? n = some capture)
      (hfollow : Cursor.follow? (sameIn folded) capture.text s.cursor = some c) :
      Way (.backref n folded) s (s.moveTo c)
  | lookahead {r : Regex} {s t : State} (h : Way r s t) :
      Way (.lookahead false r) s (t.moveTo s.cursor)
  | notAhead {r : Regex} (s : State) : Way (.lookahead true r) s s
  | lookbehind {width : Nat} {r : Regex} {s t : State} {c : Cursor}
      (hback : Cursor.back? width s.cursor = some c) (h : Way r (s.moveTo c) t) :
      Way (.lookbehind false width r) s (t.moveTo s.cursor)
  | notBehind {width : Nat} {r : Regex} (s : State) : Way (.lookbehind true width r) s s
  | atomic {r : Regex} {s t : State} (h : Way r s t) : Way (.atomic r) s t
  | ifGroup {n : Nat} {r r' : Regex} {s t : State} (hn : (s.capture? n).isSome = true)
      (h : Way r s t) : Way (.ifGroup n r r') s t
  | ifNotGroup {n : Nat} {r r' : Regex} {s t : State} (hn : (s.capture? n).isSome = false)
      (h : Way r' s t) : Way (.ifGroup n r r') s t

/-! ## Runs -/

variable {r : Regex} {s t : State} {k : Continuation} {min : Nat} {max : Option Nat}
  {greed : Greed}

/-- A run of an expression goes along a way of it, whatever follows. -/
def Sound (r : Regex) : Prop :=
  ∀ ⦃s : State⦄ ⦃k : Continuation⦄ ⦃t : State⦄, run r s k = some t → ∃ u, Way r s u ∧ k u = some t

theorem exists_way_of_oneRound {done : Nat} {last : Option Nat} {next : Continuation}
    (hr : Sound r)
    (hnext : ∀ s, next s = some t → ∃ u, Way (.repeated r 0 max greed) s u ∧ k u = some t)
    (h : oneRound (run r) max greed k done last next s = some t) :
    ∃ u, Way (.repeated r 0 max greed) s u ∧ k u = some t := by
  have hround (h : run r s next = some t) :
      ∃ u, Way (.repeated r 0 max greed) s u ∧ k u = some t := by
    obtain ⟨v, hv, hnextv⟩ := hr h
    obtain ⟨u, hu, hk⟩ := hnext v hnextv
    exact ⟨u, .repeatedRound hv hu, hk⟩
  rw [oneRound.eq_def] at h
  split at h
  · exact ⟨s, .repeatedDone s, h⟩
  · cases greed with
    | greedy =>
      rcases Option.or_eq_some_iff.mp h with h | ⟨-, h⟩
      · exact hround h
      · exact ⟨s, .repeatedDone s, h⟩
    | lazy =>
      rcases Option.or_eq_some_iff.mp h with h | ⟨-, h⟩
      · exact ⟨s, .repeatedDone s, h⟩
      · exact hround h

theorem exists_way_of_rounds {room : List Char} {done : Nat} {last : Option Nat}
    (hr : Sound r) (h : rounds (run r) max greed k room done last s = some t) :
    ∃ u, Way (.repeated r 0 max greed) s u ∧ k u = some t := by
  induction room generalizing done last s with
  | nil => exact exists_way_of_oneRound hr (fun s hs => ⟨s, .repeatedDone s, hs⟩) h
  | cons x room ih => exact exists_way_of_oneRound hr (fun s hs => ih hs) h

/-- The rounds that are required come first. -/
theorem exists_way_of_required {next : Continuation} (hr : Sound r)
    (hnext : ∀ s, next s = some t → ∃ u, Way (.repeated r 0 max greed) s u ∧ k u = some t)
    (h : required (run r) next min s = some t) :
    ∃ u, Way (.repeated r min max greed) s u ∧ k u = some t := by
  induction min generalizing s with
  | zero => exact hnext s h
  | succ min ih =>
    obtain ⟨v, hv, hrest⟩ := hr h
    obtain ⟨u, hu, hk⟩ := ih hrest
    exact ⟨u, .repeatedRound hv hu, hk⟩

theorem exists_way_of_oneRepeated {set : CharSet}
    (h : run (.oneRepeated set min max greed) s k = some t) :
    ∃ u, Way (.oneRepeated set min max greed) s u ∧ k u = some t := by
  cases greed with
  | greedy =>
    obtain ⟨passed, rest, hafter, hall, hpass⟩ :=
      Cursor.exists_passOver_eq s.cursor set.contains max
    rw [run, hpass] at h
    dsimp only at h
    split at h
    · cases h
    · next hmin =>
      -- The search goes back over no more characters than are not required.
      obtain ⟨front, back, rfl, hback, hk⟩ :=
        Cursor.exists_past_of_searchBack h (Nat.sub_le _ _)
      have hfront : ∀ x ∈ front, set.contains x = true :=
        fun x hx => hall x (List.mem_append_left back hx)
      rw [List.length_append] at hback hmin
      rw [List.append_assoc] at hafter
      exact ⟨_, .oneRepeated hafter hfront (by omega), hk⟩
  | lazy =>
    obtain ⟨near, rest, hafter, hall, hpass⟩ :=
      Cursor.exists_passOver_eq s.cursor set.contains (some min)
    rw [run, hpass] at h
    dsimp only at h
    split at h
    · cases h
    · next hmin =>
      obtain ⟨passed, rest', hrest, hall', hk⟩ := Cursor.exists_past_of_searchOn h
      rw [Cursor.past_after] at hrest
      subst hrest
      rw [Cursor.past_append] at hk
      rw [← List.append_assoc] at hafter
      have hmin : min ≤ (near ++ passed).length := by
        rw [List.length_append]
        omega
      exact ⟨_, .oneRepeated hafter (List.forall_mem_append.mpr ⟨hall, hall'⟩) hmin, hk⟩

/-- **Every run goes along a way.** When an expression and what follows it match, the
expression leads to a state from which what follows gives the result. -/
theorem exists_way_of_run (r : Regex) : Sound r := by
  induction r with
  | empty => exact fun s k t h => ⟨s, .empty s, h⟩
  | one set =>
    intro s k t h
    rw [run] at h
    split at h
    · cases h
    · next x rest hafter =>
      split at h
      · next hx => exact ⟨_, .one hafter hx, h⟩
      · cases h
  | anchor a =>
    intro s k t h
    rw [run] at h
    split at h
    · next ha => exact ⟨s, .anchor ha, h⟩
    · cases h
  | seq r r' ih ih' =>
    intro s k t h
    obtain ⟨v, hv, hrest⟩ := ih h
    obtain ⟨u, hu, hk⟩ := ih' hrest
    exact ⟨u, .seq hv hu, hk⟩
  | alt r r' ih ih' =>
    intro s k t h
    rcases Option.or_eq_some_iff.mp h with h | ⟨-, h⟩
    · obtain ⟨u, hu, hk⟩ := ih h
      exact ⟨u, .altFirst hu, hk⟩
    · obtain ⟨u, hu, hk⟩ := ih' h
      exact ⟨u, .altSecond hu, hk⟩
  | group n r ih =>
    intro s k t h
    obtain ⟨u, hu, hk⟩ := ih h
    exact ⟨_, .group hu, hk⟩
  | oneRepeated set min max greed => exact fun s k t h => exists_way_of_oneRepeated h
  | repeated r min max greed ih =>
    exact fun s k t h => exists_way_of_required ih (fun s hs => exists_way_of_rounds ih hs) h
  | backref n folded =>
    intro s k t h
    rw [run] at h
    split at h
    · cases h
    · next capture hcapture =>
      split at h
      · cases h
      · next c hfollow => exact ⟨_, .backref hcapture hfollow, h⟩
  | lookahead negated r ih =>
    intro s k t h
    rw [run] at h
    cases negated with
    | false =>
      split at h
      · next v hv =>
        obtain ⟨u, hu, hsome⟩ := ih hv
        cases hsome
        exact ⟨_, .lookahead hu, h⟩
      · cases h
    | true =>
      split at h
      · cases h
      · exact ⟨s, .notAhead s, h⟩
  | lookbehind negated width r ih =>
    intro s k t h
    rw [run] at h
    cases negated with
    | false =>
      split at h
      · next v hv =>
        obtain ⟨c, hback, hrun⟩ := Option.bind_eq_some_iff.mp hv
        obtain ⟨u, hu, hsome⟩ := ih hrun
        cases hsome
        exact ⟨_, .lookbehind hback hu, h⟩
      · cases h
    | true =>
      split at h
      · cases h
      · exact ⟨s, .notBehind s, h⟩
  | atomic r ih =>
    intro s k t h
    rw [run] at h
    split at h
    · next v hv =>
      obtain ⟨u, hu, hsome⟩ := ih hv
      cases hsome
      exact ⟨_, .atomic hu, h⟩
    · cases h
  | ifGroup n r r' ih ih' =>
    intro s k t h
    rw [run] at h
    split at h
    · next hn =>
      obtain ⟨u, hu, hk⟩ := ih h
      exact ⟨u, .ifGroup hn hu, hk⟩
    · next hn =>
      obtain ⟨u, hu, hk⟩ := ih' h
      exact ⟨u, .ifNotGroup (Bool.eq_false_iff.mpr hn) hu, hk⟩

end Regex

end Assay
