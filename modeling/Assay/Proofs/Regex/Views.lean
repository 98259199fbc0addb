import Assay.Proofs.Regex.Spelling

/-!
# What a match can see

A run goes forward from the place where it begins. Unless the expression looks back, it sees the
characters behind that place and nothing of those in front of it, apart from what the conditions in
the expression tell about the place itself. So two runs from places with the same text behind them
go the same way when these conditions do not tell the places apart, and the matches of a text are
found again when another text is put in front of it.

## Main definitions

* `Regex.isForward`, `Regex.anchors` — an expression does not look back; its conditions
* `Regex.Alike` — two states that have gone the same way from two places
* `Cursor.behind`, `Match.behind` — a place, and a match, with a text in front
* `Regex.firsts`, `Regex.Refuses` — with which characters a match can begin, and with which not

## Main results

* `rel_run` — runs from places that look the same go the same way
* `matchesAt_behind`, `matchesFrom_behind` — matches with a text in front
* `findAll_append` — the matches of a text behind one in which no match begins
-/

namespace Assay

/-! ## Passed characters -/

namespace Cursor

variable {p : Char → Bool} {c : Cursor}

theorem passUpTo_eq (p : Char → Bool) (limit count offset : Nat) (before after : List Char) :
    passUpTo p limit count offset before after =
      (count + ((after.take limit).takeWhile p).length,
        past ⟨offset, before, after⟩ ((after.take limit).takeWhile p)
          (after.drop ((after.take limit).takeWhile p).length)) := by
  induction limit generalizing count offset before after with
  | zero => simp [passUpTo, past]
  | succ limit ih =>
    cases after with
    | nil => rfl
    | cons x after =>
      rw [passUpTo, List.take_succ_cons]
      split
      · next hx =>
        rw [ih, List.takeWhile_cons_of_pos hx]
        simp [past, Nat.add_comm, Nat.add_left_comm]
      · next hx =>
        rw [List.takeWhile_cons_of_neg hx]
        rfl

/-- How far characters are passed over depends on what follows alone. -/
theorem exists_passOver_forall (p : Char → Bool) (limit : Option Nat) (after : List Char) :
    ∃ passed rest, after = passed ++ rest ∧
      ∀ c : Cursor, c.after = after → c.passOver p limit = (passed.length, c.past passed rest) := by
  cases limit with
  | none =>
    refine ⟨after.takeWhile p, after.dropWhile p, List.takeWhile_append_dropWhile.symm, ?_⟩
    rintro c rfl
    rw [passOver, passAll_eq, Nat.zero_add]
  | some n =>
    have hprefix : (after.take n).takeWhile p <+: after :=
      (List.takeWhile_prefix p).trans (List.take_prefix n after)
    refine ⟨(after.take n).takeWhile p, after.drop ((after.take n).takeWhile p).length,
      ?_, ?_⟩
    · exact (List.prefix_iff_eq_append.mp hprefix).symm
    · rintro c rfl
      rw [passOver, passUpTo_eq, Nat.zero_add]

/-- Whether a text follows, and up to where, depends on what follows alone. -/
theorem exists_follow?_forall (same : Char → Char → Bool) (cs after : List Char) :
    (∀ c : Cursor, c.after = after → follow? same cs c = none) ∨
      ∃ passed rest, after = passed ++ rest ∧
        ∀ c : Cursor, c.after = after → follow? same cs c = some (c.past passed rest) := by
  induction cs generalizing after with
  | nil => exact .inr ⟨[], after, rfl, fun c hc => congrArg some (past_nil hc).symm⟩
  | cons x cs ih =>
    cases after with
    | nil =>
      refine .inl fun c hc => ?_
      rw [follow?, hc]
    | cons y after =>
      by_cases hxy : same x y = true
      · have hstep (c : Cursor) (hc : c.after = y :: after) :
            follow? same (x :: cs) c = follow? same cs (c.pass y after) := by
          rw [follow?, hc]
          exact if_pos hxy
        rcases ih after with hnone | ⟨passed, rest, rfl, hsome⟩
        · exact .inl fun c hc => (hstep c hc).trans (hnone _ rfl)
        · refine .inr ⟨y :: passed, rest, rfl, fun c hc => ?_⟩
          rw [hstep c hc, hsome _ rfl, pass_eq_past, past_append]
          rfl
      · refine .inl fun c hc => ?_
        rw [follow?, hc]
        exact if_neg hxy

end Cursor

namespace Regex

/-! ## Places that look the same -/

/-- An expression does not look back. -/
def isForward : Regex → Bool
  | .empty | .one _ | .anchor _ | .oneRepeated .. | .backref .. => true
  | .seq r r' | .alt r r' | .ifGroup _ r r' => r.isForward && r'.isForward
  | .group _ r | .repeated r _ _ _ | .lookahead _ r | .atomic r => r.isForward
  | .lookbehind .. => false

/-- The conditions on places in an expression. -/
def anchors : Regex → List Anchor
  | .empty | .one _ | .oneRepeated .. | .backref .. => []
  | .anchor a => [a]
  | .seq r r' | .alt r r' | .ifGroup _ r r' => r.anchors ++ r'.anchors
  | .group _ r | .repeated r _ _ _ | .lookahead _ r | .lookbehind _ _ r | .atomic r => r.anchors

variable {c c' : Cursor} {a : Anchor} {passed rest : List Char}

/-- Behind the same characters a condition holds from two places alike. -/
theorem Anchor.holds_past_congr (ha : a.holds c = a.holds c') (hafter : c.after = c'.after)
    (hc : c.after = passed ++ rest) : a.holds (c.past passed rest) = a.holds (c'.past passed rest) := by
  rcases List.eq_nil_or_concat passed with rfl | ⟨front, x, rfl⟩
  · rw [List.nil_append] at hc
    have hc' : c'.after = rest := hafter.symm.trans hc
    rw [Cursor.past_nil hc, Cursor.past_nil hc', ha]
  · -- The nearest character before the place is one of those that have been passed.
    cases a <;> simp [holds, Cursor.past]

/-- Two states that have gone the same way from two places. -/
structure Alike (c c' : Cursor) (s s' : State) : Prop where
  exists_past : ∃ passed rest, c.after = passed ++ rest ∧ s.cursor = c.past passed rest ∧
    s'.cursor = c'.past passed rest
  captures_eq : s.captures = s'.captures

/-- What follows goes the same way from states that have done so. -/
abbrev Continuation.Alike (c c' : Cursor) (k k' : Continuation) : Prop :=
  ∀ ⦃s s' : State⦄, Regex.Alike c c' s s' → Option.Rel (Regex.Alike c c') (k s) (k' s')

theorem Continuation.alike_some (c c' : Cursor) : Continuation.Alike c c' some some :=
  fun _ _ hs => .some hs

namespace Alike

variable {s s' : State}

theorem after_eq (h : Alike c c' s s') : s.cursor.after = s'.cursor.after := by
  obtain ⟨passed, rest, -, hs, hs'⟩ := h.exists_past
  rw [hs, hs']
  rfl

theorem capture?_eq (h : Alike c c' s s') (n : Nat) : s.capture? n = s'.capture? n := by
  rw [State.capture?, State.capture?, h.captures_eq]

theorem offset_eq_iff {t t' : State} (h : Alike c c' s s') (ht : Alike c c' t t') :
    s.cursor.offset = t.cursor.offset ↔ s'.cursor.offset = t'.cursor.offset := by
  obtain ⟨passed, rest, -, hs, hs'⟩ := h.exists_past
  obtain ⟨passed', rest', -, ht, ht'⟩ := ht.exists_past
  rw [hs, hs', ht, ht']
  simp [Cursor.past]

/-- Both states go on over characters that follow. -/
theorem moveTo_past (h : Alike c c' s s') (hs : s.cursor.after = passed ++ rest) :
    Alike c c' (s.moveTo (s.cursor.past passed rest)) (s'.moveTo (s'.cursor.past passed rest)) := by
  obtain ⟨front, rest', hc, hcursor, hcursor'⟩ := h.exists_past
  obtain rfl : rest' = passed ++ rest := by
    rw [hcursor] at hs
    exact hs
  refine ⟨⟨front ++ passed, rest, by rw [hc, List.append_assoc], ?_, ?_⟩, h.captures_eq⟩
  · rw [hcursor, Cursor.past_append]
    rfl
  · rw [hcursor', Cursor.past_append]
    rfl

/-- Both states go back to where two others are. -/
theorem moveTo {t t' : State} (h : Alike c c' s s') (ht : Alike c c' t t') :
    Alike c c' (t.moveTo s.cursor) (t'.moveTo s'.cursor) :=
  ⟨h.exists_past, ht.captures_eq⟩

/-- What has been passed since two states becomes the text of a group. -/
theorem close {t t' : State} (h : Alike c c' s s') (ht : Alike c c' t t') (n : Nat) :
    Alike c c' (t.close n s.cursor) (t'.close n s'.cursor) := by
  refine ⟨ht.exists_past, ?_⟩
  obtain ⟨passed, rest, -, hs, hs'⟩ := h.exists_past
  obtain ⟨passed', rest', -, hcursor, hcursor'⟩ := ht.exists_past
  have hlength : t.cursor.offset - s.cursor.offset = t'.cursor.offset - s'.cursor.offset := by
    rw [hs, hs', hcursor, hcursor']
    simp only [Cursor.past]
    omega
  rw [State.close, State.close, hlength, h.after_eq, ht.captures_eq]

end Alike

/-! ## Searches -/

theorem rel_or {α β : Type} {R : α → β → Prop} {x y : Option α} {x' y' : Option β}
    (hx : Option.Rel R x x') (hy : Option.Rel R y y') : Option.Rel R (x.or y) (x'.or y') := by
  cases hx with
  | some h => exact .some h
  | none => exact hy

variable {s s' : State} {k k' : Continuation} {p : Char → Bool}

/-- A search back over characters that both states have passed. -/
theorem rel_searchBack (hk : Continuation.Alike c c' k k') (hs : Alike c c' s s')
    (hafter : s.cursor.after = passed ++ rest) {n : Nat} (hn : n ≤ passed.length) :
    Option.Rel (Alike c c')
      (Cursor.searchBack (fun d => k (s.moveTo d)) n (s.cursor.past passed rest))
      (Cursor.searchBack (fun d => k' (s'.moveTo d)) n (s'.cursor.past passed rest)) := by
  induction n generalizing passed rest with
  | zero => exact hk (hs.moveTo_past hafter)
  | succ n ih =>
    -- One step back gives up the last of the passed characters.
    obtain ⟨front, x, rfl⟩ : ∃ front x, passed = front ++ [x] := by
      rcases List.eq_nil_or_concat passed with rfl | ⟨front, x, hfront⟩
      · simp at hn
      · exact ⟨front, x, by simpa using hfront⟩
    rw [Cursor.searchBack_succ_past, Cursor.searchBack_succ_past]
    refine rel_or (hk (hs.moveTo_past hafter)) (ih ?_ (by simpa using hn))
    rw [hafter, List.append_assoc, List.singleton_append]

/-- A search on over characters that follow both states. -/
theorem rel_searchOn (hk : Continuation.Alike c c' k k') (hs : Alike c c' s s')
    (hafter : s.cursor.after = passed ++ rest) (limit : Option Nat) :
    Option.Rel (Alike c c')
      (Cursor.searchOn (fun d => k (s.moveTo d)) p limit (s.cursor.past passed rest).offset
        (s.cursor.past passed rest).before rest)
      (Cursor.searchOn (fun d => k' (s'.moveTo d)) p limit (s'.cursor.past passed rest).offset
        (s'.cursor.past passed rest).before rest) := by
  induction rest generalizing passed limit with
  | nil => exact hk (hs.moveTo_past hafter)
  | cons x rest ih =>
    rw [Cursor.searchOn, Cursor.searchOn]
    refine rel_or (hk (hs.moveTo_past hafter)) ?_
    split
    · have hmore : s.cursor.after = (passed ++ [x]) ++ rest := by simpa using hafter
      simpa [Cursor.past, ← Nat.add_assoc] using ih hmore (limit.map (· - 1))
    · exact .none

/-! ## Runs -/

theorem rel_oneRepeated {set : CharSet} {min : Nat} {max : Option Nat} {greed : Greed}
    (hk : Continuation.Alike c c' k k') (hs : Alike c c' s s') :
    Option.Rel (Alike c c') (run (.oneRepeated set min max greed) s k)
      (run (.oneRepeated set min max greed) s' k') := by
  cases greed with
  | greedy =>
    obtain ⟨passed, rest, hafter, hpass⟩ :=
      Cursor.exists_passOver_forall set.contains max s.cursor.after
    rw [run, run, hpass _ rfl, hpass _ hs.after_eq.symm]
    dsimp only
    split
    · exact .none
    · exact rel_searchBack hk hs hafter (Nat.sub_le _ _)
  | lazy =>
    obtain ⟨passed, rest, hafter, hpass⟩ :=
      Cursor.exists_passOver_forall set.contains (some min) s.cursor.after
    rw [run, run, hpass _ rfl, hpass _ hs.after_eq.symm]
    dsimp only
    split
    · exact .none
    · exact rel_searchOn hk hs hafter _

/-- A run goes the same way from states that have done so, whatever follows. -/
def RunsAlike (c c' : Cursor) (r : Regex) : Prop :=
  ∀ ⦃s s' : State⦄ ⦃k k' : Continuation⦄, Alike c c' s s' → Continuation.Alike c c' k k' →
    Option.Rel (Alike c c') (run r s k) (run r s' k')

/-- Two records of where the latest round began. -/
def LastAlike (c c' : Cursor) : Option Nat → Option Nat → Prop :=
  Option.Rel fun o o' => ∃ t t' : State, Alike c c' t t' ∧ o = t.cursor.offset ∧ o' = t'.cursor.offset

variable {r : Regex} {max : Option Nat} {greed : Greed} {last last' : Option Nat}

theorem LastAlike.beq_eq (h : LastAlike c c' last last') (hs : Alike c c' s s') :
    (last == some s.cursor.offset) = (last' == some s'.cursor.offset) := by
  cases h with
  | none => rfl
  | some h =>
    obtain ⟨t, t', ht, rfl, rfl⟩ := h
    rw [Bool.eq_iff_iff, beq_iff_eq, beq_iff_eq, Option.some.injEq, Option.some.injEq]
    exact ht.offset_eq_iff hs

theorem rel_oneRound {next next' : Continuation} (hr : RunsAlike c c' r)
    (hk : Continuation.Alike c c' k k') (hnext : Continuation.Alike c c' next next')
    (hlast : LastAlike c c' last last') (hs : Alike c c' s s') (done : Nat) :
    Option.Rel (Alike c c') (oneRound (run r) max greed k done last next s)
      (oneRound (run r) max greed k' done last' next' s') := by
  rw [oneRound.eq_def, oneRound.eq_def, hlast.beq_eq hs]
  split
  · exact hk hs
  · cases greed with
    | greedy => exact rel_or (hr hs hnext) (hk hs)
    | lazy => exact rel_or (hk hs) (hr hs hnext)

theorem rel_rounds (hr : RunsAlike c c' r) (hk : Continuation.Alike c c' k k')
    (hlast : LastAlike c c' last last') (hs : Alike c c' s s') (room : List Char) (done : Nat) :
    Option.Rel (Alike c c') (rounds (run r) max greed k room done last s)
      (rounds (run r) max greed k' room done last' s') := by
  induction room generalizing s s' done last last' with
  | nil => exact rel_oneRound hr hk hk hlast hs done
  | cons x room ih =>
    -- For the rounds behind it, the round that begins here is the latest one in both runs.
    refine rel_oneRound hr hk (fun t t' ht => ih ?_ ht (done + 1)) hlast hs done
    exact .some ⟨s, s', hs, rfl, rfl⟩

theorem rel_required (hr : RunsAlike c c' r) (hk : Continuation.Alike c c' k k')
    (hs : Alike c c' s s') (n : Nat) :
    Option.Rel (Alike c c') (required (run r) k n s) (required (run r) k' n s') := by
  induction n generalizing s s' with
  | zero => exact hk hs
  | succ n ih => exact hr hs fun t t' ht => ih ht

/-- **A run sees what is behind its place.** Runs of an expression that does not look back go the
same way from two places with the same text behind them, when its conditions do not tell the places
apart. -/
theorem rel_run (hr : r.isForward = true) (ha : ∀ a ∈ r.anchors, a.holds c = a.holds c')
    (hafter : c.after = c'.after) : RunsAlike c c' r := by
  induction r with
  | empty => exact fun s s' k k' hs hk => hk hs
  | one set =>
    intro s s' k k' hs hk
    rw [run, run, ← hs.after_eq]
    split
    · exact .none
    · next x rest hrest =>
      split
      · exact hk (hs.moveTo_past (show s.cursor.after = [x] ++ rest from hrest))
      · exact .none
  | anchor a =>
    intro s s' k k' hs hk
    obtain ⟨passed, rest, hc, hcursor, hcursor'⟩ := hs.exists_past
    have hholds : a.holds s.cursor = a.holds s'.cursor := by
      rw [hcursor, hcursor']
      exact Anchor.holds_past_congr (ha a (by simp [anchors])) hafter hc
    rw [run, run, hholds]
    split
    · exact hk hs
    · exact .none
  | seq r r' ih ih' =>
    obtain ⟨hr, hr'⟩ := Bool.and_eq_true_iff.mp hr
    rw [anchors, List.forall_mem_append] at ha
    exact fun s s' k k' hs hk => ih hr ha.1 hs fun t t' ht => ih' hr' ha.2 ht hk
  | alt r r' ih ih' =>
    obtain ⟨hr, hr'⟩ := Bool.and_eq_true_iff.mp hr
    rw [anchors, List.forall_mem_append] at ha
    exact fun s s' k k' hs hk => rel_or (ih hr ha.1 hs hk) (ih' hr' ha.2 hs hk)
  | group n r ih =>
    exact fun s s' k k' hs hk => ih hr ha hs fun t t' ht => hk (hs.close ht n)
  | oneRepeated set min max greed => exact fun s s' k k' hs hk => rel_oneRepeated hk hs
  | repeated r min max greed ih =>
    intro s s' k k' hs hk
    rw [run, run, ← hs.after_eq]
    exact rel_required (ih hr ha) (fun t t' ht => rel_rounds (ih hr ha) hk .none ht _ min) hs min
  | backref n folded =>
    intro s s' k k' hs hk
    rw [run, run, ← hs.capture?_eq n]
    split
    · exact .none
    · next capture _ =>
      rcases Cursor.exists_follow?_forall (sameIn folded) capture.text s.cursor.after with
        hnone | ⟨passed, rest, hrest, hsome⟩
      · rw [hnone _ rfl, hnone _ hs.after_eq.symm]
        exact .none
      · rw [hsome _ rfl, hsome _ hs.after_eq.symm]
        exact hk (hs.moveTo_past hrest)
  | lookahead negated r ih =>
    -- What is seen ahead may be captured, but the place stays where it is.
    intro s s' k k' hs hk
    have hfirst := ih hr ha hs (Continuation.alike_some c c')
    rw [run, run]
    generalize run r s some = o at hfirst ⊢
    generalize run r s' some = o' at hfirst ⊢
    cases hfirst with
    | none =>
      dsimp only
      split
      · exact hk hs
      · exact .none
    | some ht =>
      dsimp only
      split
      · exact .none
      · exact hk (hs.moveTo ht)
  | lookbehind => cases hr
  | atomic r ih =>
    intro s s' k k' hs hk
    have hfirst := ih hr ha hs (Continuation.alike_some c c')
    rw [run, run]
    generalize run r s some = o at hfirst ⊢
    generalize run r s' some = o' at hfirst ⊢
    cases hfirst with
    | none => exact .none
    | some ht => exact hk ht
  | ifGroup n r r' ih ih' =>
    obtain ⟨hr, hr'⟩ := Bool.and_eq_true_iff.mp hr
    rw [anchors, List.forall_mem_append] at ha
    intro s s' k k' hs hk
    rw [run, run, hs.capture?_eq n]
    split
    · exact ih hr ha.1 hs hk
    · exact ih' hr' ha.2 hs hk

/-! ## Matches at a place -/

/-- The matches at a place are found again at one that looks the same. -/
theorem matchAt?_congr (hr : r.isForward = true) (ha : ∀ a ∈ r.anchors, a.holds c = a.holds c')
    (hafter : c.after = c'.after) (proper : Bool) :
    matchAt? r proper c' = (matchAt? r proper c).map fun m => { m with start := c' } := by
  have hstart : Alike c c' ⟨c, []⟩ ⟨c', []⟩ :=
    ⟨⟨[], c.after, rfl, (Cursor.past_nil rfl).symm, (Cursor.past_nil hafter.symm).symm⟩, rfl⟩
  have hend : Continuation.Alike c c'
      (fun s => if proper && s.cursor.offset == c.offset then none else some s)
      (fun s => if proper && s.cursor.offset == c'.offset then none else some s) := by
    intro s s' hs
    have hoffset : (s.cursor.offset == c.offset) = (s'.cursor.offset == c'.offset) := by
      rw [Bool.eq_iff_iff, beq_iff_eq, beq_iff_eq]
      exact hs.offset_eq_iff hstart
    dsimp only
    rw [hoffset]
    split
    · exact .none
    · exact .some hs
  have hrun := rel_run hr ha hafter hstart hend
  rw [matchAt?, matchAt?, Option.map_map]
  generalize run r ⟨c, []⟩ _ = o at hrun ⊢
  generalize run r ⟨c', []⟩ _ = o' at hrun ⊢
  cases hrun with
  | none => rfl
  | @some s s' hs =>
    obtain ⟨passed, rest, -, hcursor, hcursor'⟩ := hs.exists_past
    simp [hcursor, hcursor', hs.captures_eq, hafter, Cursor.past]

theorem matchesAt_congr (hr : r.isForward = true) (ha : ∀ a ∈ r.anchors, a.holds c = a.holds c')
    (hafter : c.after = c'.after) :
    matchesAt r c' = (matchesAt r c).map fun m => { m with start := c' } := by
  rw [matchesAt, matchesAt, matchAt?_congr hr ha hafter, matchAt?_congr hr ha hafter]
  cases matchAt? r false c with
  | none => rfl
  | some m =>
    cases hm : m.text.isEmpty with
    | false => simp [hm]
    | true => cases matchAt? r true c <;> simp [hm]

end Regex

/-! ## A text in front -/

/-- The same place when a text stands in front. -/
def Cursor.behind (front : List Char) (c : Cursor) : Cursor :=
  ⟨c.offset + front.length, c.before ++ front.reverse, c.after⟩

/-- The same match when a text stands in front. -/
def Match.behind (front : List Char) (m : Match) : Match :=
  { m with start := m.start.behind front }

namespace Regex

variable {r : Regex} {c : Cursor} {front before after cs : List Char} {offset : Nat} {x : Char}

/-- A text farther off does not change a condition. -/
theorem Anchor.holds_behind (a : Anchor) (front : List Char) (hc : c.before ≠ []) :
    a.holds c = a.holds (c.behind front) := by
  obtain ⟨x, before, hbefore⟩ := List.exists_cons_of_ne_nil hc
  cases a <;> simp [holds, Cursor.behind, hbefore]

theorem matchesAt_behind (hr : r.isForward = true)
    (ha : ∀ a ∈ r.anchors, a.holds c = a.holds (c.behind front)) :
    matchesAt r (c.behind front) = (matchesAt r c).map (Match.behind front) := by
  rw [matchesAt_congr hr ha rfl]
  refine List.map_congr_left fun m hm => ?_
  rw [Match.behind, (exists_way_of_mem_matchesAt hm).1]

/-- The matches from a place on are found again when a text stands in front that the conditions
in the expression do not see there. -/
theorem matchesFrom_behind (hr : r.isForward = true)
    (ha : ∀ a ∈ r.anchors, a.holds ⟨offset, before, after⟩ =
      a.holds (Cursor.behind front ⟨offset, before, after⟩)) (skip : Nat) :
    matchesFrom r skip (offset + front.length) (before ++ front.reverse) after =
      (matchesFrom r skip offset before after).map (Match.behind front) := by
  induction after generalizing skip offset before with
  | nil =>
    cases skip with
    | zero => exact matchesAt_behind (c := ⟨offset, before, []⟩) hr ha
    | succ skip => rfl
  | cons x after ih =>
    have hnext (skip : Nat) :
        matchesFrom r skip (offset + front.length + 1) (x :: (before ++ front.reverse)) after =
          (matchesFrom r skip (offset + 1) (x :: before) after).map (Match.behind front) := by
      -- From here on the nearest character in front is one of the text itself.
      have hseen : ∀ a ∈ r.anchors, a.holds ⟨offset + 1, x :: before, after⟩ =
          a.holds (Cursor.behind front ⟨offset + 1, x :: before, after⟩) :=
        fun a _ => a.holds_behind front (List.cons_ne_nil x before)
      rw [Nat.add_right_comm]
      exact ih hseen skip
    cases skip with
    | zero =>
      have hat : matchesAt r ⟨offset + front.length, before ++ front.reverse, x :: after⟩ =
          (matchesAt r ⟨offset, before, x :: after⟩).map (Match.behind front) :=
        matchesAt_behind (c := ⟨offset, before, x :: after⟩) hr ha
      rw [matchesFrom, matchesFrom, hat, hnext, List.map_append, List.getLast?_map,
        Option.map_map]
      rfl
    | succ skip => exact hnext skip

/-! ## First characters -/

/-- Nothing is consumed by a condition. -/
def isAnchor : Regex → Bool
  | .anchor _ => true
  | _ => false

/-- The sets one of which the first character of every match belongs to, if they can be told. -/
def firsts : Regex → Option (List CharSet)
  | .one set | .oneRepeated set (_ + 1) _ _ => some [set]
  | .seq r r' => if r.isAnchor then r'.firsts else r.firsts
  | .alt r r' => r.firsts.bind fun sets => r'.firsts.map fun sets' => sets ++ sets'
  | .group _ r | .repeated r (_ + 1) _ _ | .atomic r => r.firsts
  | _ => none

/-- A run fails where none of these sets has the next character. -/
theorem run_eq_none_of_firsts {sets : List CharSet} (h : r.firsts = some sets)
    (hsets : ∀ set ∈ sets, set.contains x = false) {s : State}
    (hs : s.cursor.after = x :: after) (k : Continuation) : run r s k = none := by
  induction r generalizing sets s k with
  | one set =>
    cases h
    rw [run, hs]
    simp [hsets set List.mem_cons_self]
  | seq r r' ih ih' =>
    cases hanchor : r.isAnchor with
    | false =>
      rw [firsts, hanchor] at h
      exact ih h hsets hs _
    | true =>
      -- A condition consumes nothing, so that the first character is one of what follows it.
      rw [firsts, hanchor] at h
      cases r with
      | anchor a =>
        rw [run, run]
        split
        · exact ih' h hsets hs k
        · rfl
      | _ => cases hanchor
  | alt r r' ih ih' =>
    obtain ⟨front, hfront, h⟩ := Option.bind_eq_some_iff.mp h
    obtain ⟨back, hback, rfl⟩ := Option.map_eq_some_iff.mp h
    obtain ⟨hsets, hsets'⟩ := List.forall_mem_append.mp hsets
    rw [run, ih hfront hsets hs, ih' hback hsets' hs]
    rfl
  | group n r ih => exact ih h hsets hs _
  | oneRepeated set min max greed =>
    cases min with
    | zero => cases h
    | succ min =>
      cases h
      -- Not even the first of the characters that are required is there.
      have hnone (limit : Option Nat) :
          (s.cursor.passOver set.contains limit).1 < min + 1 := by
        obtain ⟨passed, rest, hafter, hall, hpass⟩ :=
          Cursor.exists_passOver_eq s.cursor set.contains limit
        cases passed with
        | nil => simp [hpass]
        | cons y passed =>
          rw [hs] at hafter
          obtain ⟨rfl, -⟩ := List.cons.inj hafter
          have hx := hsets set List.mem_cons_self
          rw [hall x List.mem_cons_self] at hx
          cases hx
      cases greed with
      | greedy =>
        rw [run]
        exact if_pos (hnone max)
      | lazy =>
        rw [run]
        exact if_pos (hnone (some (min + 1)))
  | repeated r min max greed ih =>
    cases min with
    | zero => cases h
    | succ min =>
      rw [run, required]
      exact ih h hsets hs _
  | atomic r ih => rw [run, ih h hsets hs]
  | empty | anchor | backref | lookahead | lookbehind | ifGroup => cases h

/-- No match of an expression begins with a character. -/
def Refuses (r : Regex) (x : Char) : Prop :=
  ∃ sets, r.firsts = some sets ∧ ∀ set ∈ sets, set.contains x = false

theorem Refuses.matchesAt_eq_nil (h : r.Refuses x) (hc : c.after = x :: after) :
    matchesAt r c = [] := by
  obtain ⟨sets, hr, hsets⟩ := h
  rw [matchesAt, matchAt?, run_eq_none_of_firsts hr hsets hc]
  rfl

/-- **The matches of a text are found again behind another one**, when none begins in that one and
the conditions in the expression do not tell the beginning of a text from the place behind it. -/
theorem findAll_append (hr : r.isForward = true)
    (ha : ∀ a ∈ r.anchors, a.holds (.ofText cs) = a.holds (Cursor.behind front (.ofText cs)))
    (hfront : ∀ x ∈ front, r.Refuses x) :
    findAll r (front ++ cs) = (findAll r cs).map (Match.behind front) := by
  rw [findAll, findAll, matchesFrom_append, ← matchesFrom_behind hr ha, List.append_nil,
    List.nil_append]
  rintro a b hab hb
  obtain ⟨x, b, rfl⟩ := List.exists_cons_of_ne_nil hb
  exact (hfront x (by simp [hab])).matchesAt_eq_nil rfl

end Regex

end Assay
