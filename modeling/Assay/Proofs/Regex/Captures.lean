import Assay.Proofs.Regex.Matches

/-!
# Groups that take part in every match

A group that stands in an expression can be passed by: in an optional part, in one of two
alternatives, behind a negation. The groups that every way goes through are told from the
expression alone, and each match has captured them.

## Main definitions

* `Regex.sure` — the groups that take part in every match

## Main results

* `isSome_capture?_of_way` — what a way captures
* `isSome_group?_of_mem_findAll` — what every match has captured
-/

namespace Assay.Regex

/-- The groups that every way through an expression goes through. -/
def sure : Regex → List Nat
  | .empty | .one _ | .anchor _ | .oneRepeated .. | .backref .. => []
  | .lookahead true _ | .lookbehind true _ _ | .repeated _ 0 _ _ => []
  | .seq r r' => r.sure ++ r'.sure
  | .alt r r' | .ifGroup _ r r' => r.sure.filter r'.sure.contains
  | .group n r => n :: r.sure
  | .repeated r (_ + 1) _ _ | .lookahead false r | .lookbehind false _ r | .atomic r => r.sure

variable {r : Regex} {s t : State} {n : Nat}

theorem capture?_close (start : Cursor) (m n : Nat) (s : State) :
    (s.close m start).capture? n =
      if n = m then some ⟨s.cursor.offset - start.offset, start.after⟩ else s.capture? n := by
  rw [State.capture?, State.close, List.lookup_cons]
  by_cases h : n = m
  · simp [h]
  · rw [beq_false_of_ne h, if_neg h]
    rfl

/-- A way keeps the groups that have been captured, and captures the groups that are sure. -/
theorem isSome_capture?_of_way (h : Way r s t)
    (hn : (s.capture? n).isSome = true ∨ n ∈ r.sure) : (t.capture? n).isSome = true := by
  induction h with
  | empty | one | anchor | oneRepeated | backref | notAhead | notBehind | repeatedDone =>
    exact hn.resolve_right List.not_mem_nil
  | seq _ _ ih ih' =>
    rcases hn with hn | hn
    · exact ih' (.inl (ih (.inl hn)))
    · rcases List.mem_append.mp hn with hn | hn
      · exact ih' (.inl (ih (.inr hn)))
      · exact ih' (.inr hn)
  | altFirst _ ih | ifGroup _ _ ih => exact ih (hn.imp_right fun hn => (List.mem_filter.mp hn).1)
  | altSecond _ ih | ifNotGroup _ _ ih =>
    -- What is sure of both is what is sure of the first and occurs in the second.
    exact ih (hn.imp_right fun hn => by simpa using (List.mem_filter.mp hn).2)
  | @group m r s t _ ih =>
    rw [capture?_close]
    by_cases hm : n = m
    · simp [hm]
    · rw [if_neg hm]
      exact ih (hn.imp_right fun hn => (List.mem_cons.mp hn).resolve_left hm)
  | @repeatedRound r min max greed s t u _ _ ih ih' =>
    refine ih' (.inl (ih ?_))
    cases min with
    | zero => exact .inl (hn.resolve_right List.not_mem_nil)
    | succ min => exact hn
  | lookahead _ ih | lookbehind _ _ ih | atomic _ ih => exact ih hn

/-- **Sure groups take part.** Every match of an expression has captured the groups that are
sure. -/
theorem isSome_group?_of_mem_findAll {m : Match} {cs : List Char} (h : m ∈ findAll r cs)
    (hn : n ∈ r.sure) : (m.group? n).isSome = true := by
  obtain ⟨t, hway, hcaptures⟩ := exists_way_of_mem_findAll h
  have hsome : (m.captures.lookup n).isSome = true := by
    rw [hcaptures]
    exact isSome_capture?_of_way hway (.inr hn)
  rw [Match.group?]
  split
  · rfl
  · rw [Option.isSome_map]
    exact hsome

end Assay.Regex
