import Assay.Proofs.Regex.Spelling

/-!
# Characters that cannot be captured

Which characters a text can have that an expression spells is told by the sets it is made of. So
a group holds no character that is left out by all sets within it, whatever else the match holds.

## Main definitions

* `Regex.excludes` — the sets of an expression leave a character out
* `Regex.excludesIn` — so do the sets within a group

## Main results

* `not_mem_of_spells` — what is spelled does not have the character
* `not_mem_of_group?` — nor does what a match has captured
-/

namespace Assay.Regex

/-- A character cannot stand in what an expression spells, since its sets leave it out. -/
def excludes (c : Char) : Regex → Bool
  | .empty | .anchor _ | .lookahead .. | .lookbehind .. => true
  | .one set | .oneRepeated set _ _ _ => !set.contains c
  | .seq r r' | .alt r r' | .ifGroup _ r r' => r.excludes c && r'.excludes c
  | .group _ r | .repeated r _ _ _ | .atomic r => r.excludes c
  | .backref .. => false

/-- A character cannot stand in what a group captures. -/
def excludesIn (c : Char) (n : Nat) : Regex → Bool
  | .empty | .one _ | .anchor _ | .oneRepeated .. | .backref .. => true
  | .seq r r' | .alt r r' | .ifGroup _ r r' => r.excludesIn c n && r'.excludesIn c n
  | .group k r => (k != n || r.excludes c) && r.excludesIn c n
  | .repeated r _ _ _ | .lookahead _ r | .lookbehind _ _ r | .atomic r => r.excludesIn c n

variable {r : Regex} {c : Char} {n : Nat} {e e' : Texts} {before w rest cs v : List Char}
  {m : Match}

/-- A character of no set of an expression is in no text that it spells. -/
theorem not_mem_of_spells (hr : r.excludes c = true) (h : Spells r e before w rest e') :
    c ∉ w := by
  induction r generalizing e before w rest e' with
  | empty => simp [h.1]
  | one set =>
    obtain ⟨⟨x, hx, rfl⟩, -⟩ := h
    rw [List.mem_singleton]
    rintro rfl
    simp [excludes, hx] at hr
  | anchor a => simp [h.2.1]
  | seq r r' ih ih' =>
    obtain ⟨hr, hr'⟩ := Bool.and_eq_true_iff.mp hr
    obtain ⟨v, v', f, rfl, hv, hv'⟩ := h
    rw [List.mem_append, not_or]
    exact ⟨ih hr hv, ih' hr' hv'⟩
  | alt r r' ih ih' =>
    obtain ⟨hr, hr'⟩ := Bool.and_eq_true_iff.mp hr
    exact h.elim (ih hr) (ih' hr')
  | group k r ih =>
    obtain ⟨f, hf, -⟩ := h
    exact ih hr hf
  | oneRepeated set min max greed =>
    intro hc
    simp [excludes, h.1 c hc] at hr
  | repeated r min max greed ih =>
    rcases h with h | ⟨rfl, -⟩
    · exact ih hr h
    · exact List.not_mem_nil
  | backref k folded => cases hr
  | lookahead negated r => simp [h.2.1]
  -- Nothing is said about what these spell.
  | lookbehind | atomic | ifGroup => exact h.elim

/-- A character of no set within a group does not come into its text. -/
theorem not_mem_of_excludesIn (hr : r.excludesIn c n = true) (h : Spells r e before w rest e')
    (he : ∀ v, e n = some v → c ∉ v) : ∀ v, e' n = some v → c ∉ v := by
  induction r generalizing e before w rest e' with
  | empty | one | backref => exact h.2 ▸ he
  | anchor a => exact h.2.2 ▸ he
  | oneRepeated set min max greed => exact h.2.2.2 ▸ he
  | seq r r' ih ih' =>
    obtain ⟨hr, hr'⟩ := Bool.and_eq_true_iff.mp hr
    obtain ⟨v, v', f, rfl, hv, hv'⟩ := h
    exact ih' hr' hv' (ih hr hv he)
  | alt r r' ih ih' =>
    obtain ⟨hr, hr'⟩ := Bool.and_eq_true_iff.mp hr
    exact h.elim (fun h => ih hr h he) fun h => ih' hr' h he
  | group k r ih =>
    obtain ⟨hk, hr⟩ := Bool.and_eq_true_iff.mp hr
    obtain ⟨f, hf, rfl⟩ := h
    rw [Function.update_apply]
    split
    · next hn =>
      -- The group itself: its text is what stands within it.
      rintro v ⟨⟩
      rw [hn] at hk
      exact not_mem_of_spells (by simpa using hk) hf
    · exact ih hr hf he
  | repeated r min max greed ih =>
    rcases h with h | ⟨-, rfl⟩
    · exact ih hr h he
    · exact he
  | lookahead negated r ih =>
    -- It spells nothing, but groups within it are captured.
    obtain ⟨⟨v, v', -, hv⟩, -⟩ := h
    exact ih hr hv he
  | lookbehind | atomic | ifGroup => exact h.elim

/-- **What a match has captured** in a group has no character that the sets within it leave out. -/
theorem not_mem_of_group? (hstraight : r.isStraight = true) (hr : r.excludesIn c n = true)
    (hn : n ≠ 0) (hm : m ∈ findAll r cs) (hv : m.group? n = some v) : c ∉ v := by
  obtain ⟨rest, e, -, hspells, hgroups⟩ := exists_spells_of_mem_findAll hstraight hm
  exact not_mem_of_excludesIn hr hspells (fun v hv => nomatch hv) v ((hgroups n hn).symm.trans hv)

end Assay.Regex
