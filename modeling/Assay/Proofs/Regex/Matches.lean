import Assay.Proofs.Regex.Way

/-!
# The matches of a text

Every match that is found in a text stands there: what is before it and what begins with it
are the text, and a way of the expression leads on from its first character. Matches are found
from left to right.

## Main definitions

* `Match.StandsIn` — a match stands in a text

## Main results

* `standsIn_of_mem_findAll` — every match stands in the text
* `exists_way_of_mem_findAll` — every match comes from a way of the expression
* `pairwise_findAll` — no match begins before an earlier one
-/

namespace Assay

/-- A match stands in a text, where it says that it does. -/
structure Match.StandsIn (cs : List Char) (m : Match) : Prop where
  text_start : m.start.text = cs
  offset_start : m.start.offset = m.start.before.length
  text_prefix : m.text <+: m.start.after

namespace Regex

variable {r : Regex} {m : Match} {c : Cursor} {skip offset : Nat} {before after cs : List Char}

/-! ## Matches at a place -/

theorem exists_matchAt?_of_mem_matchesAt (h : m ∈ matchesAt r c) :
    ∃ proper, matchAt? r proper c = some m := by
  rw [matchesAt] at h
  split at h
  · simp at h
  · next m' hm' =>
    split at h
    · rcases List.mem_cons.mp h with rfl | h
      · exact ⟨false, hm'⟩
      · exact ⟨true, Option.mem_toList.mp h⟩
    · obtain rfl := List.mem_singleton.mp h
      exact ⟨false, hm'⟩

/-- A match at a place begins there, with characters that follow, and has the captures of a
way. -/
theorem exists_way_of_mem_matchesAt (h : m ∈ matchesAt r c) :
    m.start = c ∧ m.text <+: c.after ∧ ∃ t, Way r ⟨c, []⟩ t ∧ m.captures = t.captures := by
  obtain ⟨proper, h⟩ := exists_matchAt?_of_mem_matchesAt h
  obtain ⟨t, hrun, rfl⟩ := Option.map_eq_some_iff.mp h
  obtain ⟨u, hu, hk⟩ := exists_way_of_run r hrun
  have hut : u = t := by
    split at hk
    · cases hk
    · exact Option.some.inj hk
  exact ⟨rfl, List.take_prefix _ _, t, hut ▸ hu, rfl⟩

/-! ## Matches from a place on -/

/-- A match that is found from a place on is found at a place behind it. -/
theorem exists_past_of_mem_matchesFrom (h : m ∈ matchesFrom r skip offset before after) :
    ∃ passed rest, after = passed ++ rest ∧
      m ∈ matchesAt r (Cursor.past ⟨offset, before, after⟩ passed rest) := by
  induction after generalizing skip offset before with
  | nil =>
    cases skip with
    | zero => exact ⟨[], [], rfl, h⟩
    | succ skip => simp [matchesFrom] at h
  | cons x after ih =>
    -- A match behind the first character, seen from in front of it.
    have hbehind {skip : Nat} (h : m ∈ matchesFrom r skip (offset + 1) (x :: before) after) :
        ∃ passed rest, x :: after = passed ++ rest ∧
          m ∈ matchesAt r (Cursor.past ⟨offset, before, x :: after⟩ passed rest) := by
      obtain ⟨passed, rest, rfl, hm⟩ := ih h
      refine ⟨x :: passed, rest, rfl, ?_⟩
      simpa [Cursor.past, Nat.add_comm, Nat.add_left_comm] using hm
    cases skip with
    | zero =>
      rw [matchesFrom] at h
      rcases List.mem_append.mp h with h | h
      · exact ⟨[], x :: after, rfl, h⟩
      · exact hbehind h
    | succ skip => exact hbehind h

theorem offset_le_of_mem_matchesFrom (h : m ∈ matchesFrom r skip offset before after) :
    offset ≤ m.start.offset := by
  obtain ⟨passed, rest, -, hm⟩ := exists_past_of_mem_matchesFrom h
  rw [(exists_way_of_mem_matchesAt hm).1]
  exact Nat.le_add_right _ _

theorem pairwise_matchesAt (r : Regex) (c : Cursor) :
    (matchesAt r c).Pairwise fun m n => m.start.offset ≤ n.start.offset := by
  refine List.pairwise_of_forall_mem_list fun m hm n hn => ?_
  have hm := (exists_way_of_mem_matchesAt hm).1
  have hn := (exists_way_of_mem_matchesAt hn).1
  exact (hm.trans hn.symm) ▸ Nat.le_refl _

theorem pairwise_matchesFrom (r : Regex) (skip offset : Nat) (before after : List Char) :
    (matchesFrom r skip offset before after).Pairwise
      fun m n => m.start.offset ≤ n.start.offset := by
  induction after generalizing skip offset before with
  | nil =>
    cases skip with
    | zero => exact pairwise_matchesAt r _
    | succ skip => exact .nil
  | cons x after ih =>
    cases skip with
    | zero =>
      rw [matchesFrom]
      refine List.pairwise_append.mpr ⟨pairwise_matchesAt r _, ih _ _ _, fun m hm n hn => ?_⟩
      rw [(exists_way_of_mem_matchesAt hm).1]
      exact Nat.le_of_succ_le (offset_le_of_mem_matchesFrom hn)
    | succ skip => exact ih _ _ _

/-! ## Matches of a text -/

/-- **Matches stand in the text.** -/
theorem standsIn_of_mem_findAll (h : m ∈ findAll r cs) : m.StandsIn cs := by
  obtain ⟨passed, rest, rfl, hm⟩ := exists_past_of_mem_matchesFrom h
  obtain ⟨hstart, htext, -⟩ := exists_way_of_mem_matchesAt hm
  refine ⟨?_, ?_, hstart ▸ htext⟩
  · simp [hstart, Cursor.past, Cursor.text]
  · simp [hstart, Cursor.past]

/-- A way of the expression leads on from the beginning of a match, and captures what the
match has captured. -/
theorem exists_way_of_mem_findAll (h : m ∈ findAll r cs) :
    ∃ t, Way r ⟨m.start, []⟩ t ∧ m.captures = t.captures := by
  obtain ⟨passed, rest, -, hm⟩ := exists_past_of_mem_matchesFrom h
  obtain ⟨hstart, -, hway⟩ := exists_way_of_mem_matchesAt hm
  exact hstart ▸ hway

/-- Matches are found from left to right. -/
theorem pairwise_findAll (r : Regex) (cs : List Char) :
    (findAll r cs).Pairwise fun m n => m.start.offset ≤ n.start.offset :=
  pairwise_matchesFrom r 0 0 [] cs

end Regex

namespace Match.StandsIn

variable {cs : List Char} {m : Match}

/-- The text from the offset of a match on. -/
theorem drop_eq (h : m.StandsIn cs) : cs.drop m.start.offset = m.start.after := by
  rw [← h.text_start, h.offset_start, Cursor.text, List.drop_left' (by simp)]

/-- The text before the offset of a match. -/
theorem take_eq (h : m.StandsIn cs) : cs.take m.start.offset = m.start.before.reverse := by
  rw [← h.text_start, h.offset_start, Cursor.text, List.take_left' (by simp)]

/-- The text from the offset of a match on begins with what was matched. -/
theorem take_drop (h : m.StandsIn cs) :
    (cs.drop m.start.offset).take m.text.length = m.text := by
  rw [h.drop_eq]
  exact (List.prefix_iff_eq_take.mp h.text_prefix).symm

/-- The line of a match counts the line feeds before its offset. -/
theorem line_eq (h : m.StandsIn cs) : m.line = (cs.take m.start.offset).count '\n' + 1 := by
  rw [h.take_eq, List.count_reverse]
  rfl

theorem offset_le (h : m.StandsIn cs) : m.start.offset ≤ cs.length := by
  rw [← h.text_start, h.offset_start, Cursor.text, List.length_append, List.length_reverse]
  exact Nat.le_add_right _ _

end Match.StandsIn

end Assay
