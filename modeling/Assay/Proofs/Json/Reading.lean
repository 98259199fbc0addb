import Mathlib.Data.List.TakeWhile
import Assay.Json.Reader
import Assay.Proofs.FirstSeen
import Assay.Proofs.Sequence
import Assay.Proofs.Text.Ends

/-!
# What is read from a JSON text

A reader of the beginning of a text either gives something and a rest that the text ends
with, or stops. Whatever reading a text comes to has been found in it: every integer of the
document has few enough digits to be written again, no leaf is foreign to documents, and
reading stops without a problem only at a row of more than `digitLimit` digits.

## Main definitions

* `Json.IsPlain` — a document whose integers can be written, with distinct keys and without
  foreign leaves
* `Json.Stop.IsIn` — a stop that a text gives reason for
* `Json.Reads` — a reader gives something good and a rest, or stops with a reason

## Main results

* `reads_readValue` — the reader of values does
* `isPlain_of_read` — what is read is plain
* `exists_digits_of_read_eq_fault` — reading breaks off only at a long row of digits
* `read_of_isAllBlank` — a blank text is refused
-/

namespace Assay.Json

/-- A document whose integers have at most `digitLimit` digits, whose records have distinct keys,
and that has no leaves of no common kind. -/
inductive IsPlain : Document → Prop where
  | null : IsPlain .null
  | bool (b : Bool) : IsPlain (.bool b)
  | int {n : Int} (h : n.natAbs < 10 ^ digitLimit) : IsPlain (.int n)
  | float (x : Float) : IsPlain (.float x)
  | text (s : String) : IsPlain (.text s)
  | list {items : List Document} (h : ∀ v ∈ items, IsPlain v) : IsPlain (.list items)
  | record {fields : Fields String Document} (hkeys : (Fields.keys fields).Nodup)
    (h : ∀ f ∈ fields, IsPlain f.2) : IsPlain (.record fields)

/-- A stop that a text gives reason for: an integer that is too long is a row of digits in
it. -/
def Stop.IsIn (cs : List Char) : Stop → Prop
  | .problem _ _ => True
  | .tooLong n =>
    digitLimit < n ∧ ∃ ds, ds <:+: cs ∧ (∀ d ∈ ds, d.isDigit = true) ∧ ds.length = n

/-- What is read from the beginning of a text is good, and the rest is what the text ends
with; or reading stops for a reason that lies in the text. -/
def Reads {α : Type} (good : α → Prop) (cs : List Char) : Except Stop (α × List Char) → Prop
  | .ok (a, rest) => good a ∧ rest <:+ cs
  | .error e => e.IsIn cs

variable {α β : Type} {good : α → Prop} {good' : β → Prop} {cs cs' rest : List Char}
  {x : Except Stop (α × List Char)} {v : Document} {e : Stop} {f : Fault}
  {fs : Fields String Document} {vs : List Document} {i : Int}

/-! ## Plain documents by their parts -/

theorem isPlain_record_iff :
    IsPlain (.record fs) ↔ (Fields.keys fs).Nodup ∧ ∀ f ∈ fs, IsPlain f.2 := by
  constructor
  · intro h
    cases h with
    | record hkeys h => exact ⟨hkeys, h⟩
  · exact fun h => .record h.1 h.2

theorem isPlain_list_iff : IsPlain (.list vs) ↔ ∀ v ∈ vs, IsPlain v := by
  constructor
  · intro h
    cases h with
    | list h => exact h
  · exact .list

theorem isPlain_int_iff : IsPlain (.int i) ↔ i.natAbs < 10 ^ digitLimit := by
  constructor
  · intro h
    cases h with
    | int h => exact h
  · exact .int

/-! ## Readers -/

theorem Stop.IsIn.mono (h : e.IsIn cs) (hcs : cs <:+ cs') : e.IsIn cs' := by
  cases e with
  | problem p left => trivial
  | tooLong n =>
    obtain ⟨hn, ds, hds, hdigits, hlength⟩ := h
    exact ⟨hn, ds, hds.trans hcs.isInfix, hdigits, hlength⟩

theorem Reads.mono (h : Reads good cs x) (hcs : cs <:+ cs') : Reads good cs' x := by
  match x, h with
  | .ok _, ⟨ha, hrest⟩ => exact ⟨ha, hrest.trans hcs⟩
  | .error _, h => exact Stop.IsIn.mono h hcs

/-- Reading on from the rest. -/
theorem Reads.bind {g : α × List Char → Except Stop (β × List Char)} (h : Reads good cs x)
    (hg : ∀ a rest, good a → rest <:+ cs → Reads good' rest (g (a, rest))) :
    Reads good' cs (x >>= g) := by
  match x, h with
  | .ok (a, rest), ⟨ha, hrest⟩ => exact (hg a rest ha hrest).mono hrest
  | .error _, h => exact h

/-- Looking at what was read in another way, without touching the rest. -/
theorem Reads.map {g : α × List Char → β × List Char} (h : Reads good cs x)
    (hg : ∀ a rest, good a → ∃ b, g (a, rest) = (b, rest) ∧ good' b) :
    Reads good' cs (x.map g) := by
  match x, h with
  | .ok (a, rest), ⟨ha, hrest⟩ =>
    obtain ⟨b, hb, hgood⟩ := hg a rest ha
    rw [Except.map, hb]
    exact ⟨hgood, hrest⟩
  | .error _, h => exact h

theorem skipSpace_suffix (cs : List Char) : skipSpace cs <:+ cs := List.dropWhile_suffix _

theorem skipSpace_tail_suffix (cs : List Char) : skipSpace (skipSpace cs).tail <:+ cs :=
  (skipSpace_suffix _).trans ((List.tail_suffix _).trans (skipSpace_suffix cs))

/-! ## Numbers -/

theorem isDigit_of_mem_spanDigits {c : Char} (h : c ∈ (spanDigits cs).1) : c.isDigit = true :=
  List.mem_takeWhile_imp h

theorem spanDigits_append (cs : List Char) : (spanDigits cs).1 ++ (spanDigits cs).2 = cs :=
  List.takeWhile_append_dropWhile

theorem spanFraction_suffix (cs : List Char) : (spanFraction cs).2 <:+ cs := by
  cases cs with
  | nil => exact List.suffix_rfl
  | cons c after =>
    rw [spanFraction]
    dsimp only
    split
    · exact (List.dropWhile_suffix _).trans (List.suffix_cons c after)
    · exact List.suffix_rfl

theorem scanSign_suffix (cs : List Char) : (Literal.scanSign cs).2 <:+ cs := by
  cases cs with
  | nil => exact List.suffix_rfl
  | cons c after =>
    rw [Literal.scanSign]
    split
    · exact List.suffix_cons c after
    · split
      · exact List.suffix_cons c after
      · exact List.suffix_rfl

theorem spanExponent_suffix (cs : List Char) : (spanExponent cs).2 <:+ cs := by
  cases cs with
  | nil => exact List.suffix_rfl
  | cons c after =>
    rw [spanExponent]
    dsimp only
    split
    · split
      · exact List.suffix_rfl
      · exact (List.dropWhile_suffix _).trans
          ((scanSign_suffix after).trans (List.suffix_cons c after))
    · exact List.suffix_rfl

/-- The digits of an integer are digits, and the text begins with them. -/
theorem spanInteger_spec (cs : List Char) :
    (∀ d ∈ (spanInteger cs).1, d.isDigit = true) ∧
      (spanInteger cs).1 ++ (spanInteger cs).2 = cs := by
  cases cs with
  | nil => exact ⟨by simp [spanInteger], rfl⟩
  | cons c after =>
    rw [spanInteger]
    split
    · next h => exact ⟨by simp [h], rfl⟩
    · exact ⟨fun d hd => isDigit_of_mem_spanDigits hd, spanDigits_append _⟩

theorem foldl_digits_lt {ds : List Char} (h : ∀ d ∈ ds, d.isDigit = true) {n m : Nat}
    (hn : n < 10 ^ m) :
    ds.foldl (fun n d => 10 * n + (d.toNat - 48)) n < 10 ^ (m + ds.length) := by
  induction ds generalizing n m with
  | nil => exact hn
  | cons d ds ih =>
    have hd : d.toNat - 48 < 10 := by
      have := h d List.mem_cons_self
      simp only [Char.isDigit, Bool.and_eq_true, decide_eq_true_eq, ge_iff_le,
        UInt32.le_iff_toNat_le] at this
      have htop : d.toNat ≤ 57 := this.2
      omega
    have hstep : 10 * n + (d.toNat - 48) < 10 ^ (m + 1) := by
      rw [Nat.pow_succ]
      omega
    have := ih (fun d' hd' => h d' (List.mem_cons_of_mem d hd')) hstep
    rwa [Nat.add_assoc, Nat.add_comm 1] at this

/-- A row of digits is a number below the power of ten of its length. -/
theorem digitsValue_lt {ds : List Char} (h : ∀ d ∈ ds, d.isDigit = true) :
    digitsValue ds < 10 ^ ds.length := by
  have := foldl_digits_lt h (n := 0) (m := 0) (by simp)
  rwa [Nat.zero_add] at this

/-- The sign of a number and what follows it: what follows is the end of the text. -/
theorem suffix_of_sign {negative : Bool} {body : List Char}
    (h : (match cs with
      | c :: after => if c = '-' then (true, after) else (false, cs)
      | [] => (false, [])) = (negative, body)) : body <:+ cs := by
  split at h
  · split at h <;> cases h
    · exact List.suffix_cons _ _
    · exact List.suffix_rfl
  · cases h
    exact List.suffix_rfl

theorem reads_readNumber (cs : List Char) : Reads IsPlain cs (readNumber cs) := by
  rw [readNumber.eq_def]
  split
  next negative body hsign =>
  split
  next whole rest hwhole =>
  obtain ⟨hdigits, happend⟩ := spanInteger_spec body
  rw [hwhole] at hdigits happend
  have hbody : body <:+ cs := suffix_of_sign hsign
  split
  · trivial
  · split
    next fraction rest' hfraction =>
    split
    next exponent rest'' hexponent =>
    have hrest : rest'' <:+ cs := by
      have h₁ : rest'' <:+ rest' := by simpa [hexponent] using spanExponent_suffix rest'
      have h₂ : rest' <:+ rest := by simpa [hfraction] using spanFraction_suffix rest
      exact h₁.trans (h₂.trans (List.IsSuffix.trans ⟨whole, happend⟩ hbody))
    split
    · split
      · next hlong =>
        -- The literal is too long, and its digits stand in the text.
        exact ⟨hlong, whole, List.IsInfix.trans ⟨[], rest, happend⟩ hbody.isInfix, hdigits, rfl⟩
      · next hshort =>
        have hlt : digitsValue whole < 10 ^ digitLimit :=
          (digitsValue_lt hdigits).trans_le
            (Nat.pow_le_pow_right (by decide) (Nat.le_of_not_lt hshort))
        refine ⟨.int ?_, hrest⟩
        cases negative <;> simpa using hlt
    · exact ⟨.float _, hrest⟩

theorem reads_readScalar (cs : List Char) : Reads IsPlain cs (readScalar cs) := by
  rw [readScalar]
  split
  · next w v hfind =>
    refine ⟨?_, List.drop_suffix _ _⟩
    have hmem := List.mem_of_find?_eq_some hfind
    simp only [words, List.mem_cons, Prod.mk.injEq, List.not_mem_nil, or_false] at hmem
    rcases hmem with ⟨-, rfl⟩ | ⟨-, rfl⟩ | ⟨-, rfl⟩ | ⟨-, rfl⟩ | ⟨-, rfl⟩ | ⟨-, rfl⟩
    · exact .null
    · exact .bool true
    · exact .bool false
    all_goals exact .float _
  · exact reads_readNumber cs

/-! ## Strings -/

theorem isIn_of_readLowHalf (h : readLowHalf rest = .error e) : e.IsIn cs := by
  rw [readLowHalf.eq_def] at h
  split at h
  · split at h
    · split at h
      · cases h
        trivial
      · cases h
    · cases h
  · cases h

theorem isIn_of_readEscape {opened : List Char} (h : readEscape opened rest = .error e) :
    e.IsIn cs := by
  rw [readEscape.eq_def] at h
  split at h
  · cases h
    trivial
  · split at h
    · rw [readUnicodeEscape.eq_def] at h
      split at h
      · split at h
        · split at h
          · cases hlow : readLowHalf _ with
            | error e' =>
              rw [hlow] at h
              cases h
              exact isIn_of_readLowHalf hlow
            | ok low =>
              rw [hlow] at h
              cases low <;> cases h
          · cases h
        · cases h
          trivial
      · cases h
        trivial
    · split at h
      · cases h
      · cases h
        trivial

theorem reads_readChars (opened : List Char) (skip : Nat) (cs : List Char) :
    Reads (fun _ => True) cs (readChars opened skip cs) := by
  fun_induction readChars opened skip cs with
  | case1 => trivial
  | case2 skip c cs ih => exact ih.mono (List.suffix_cons c cs)
  | case3 cs => exact ⟨trivial, List.suffix_cons _ cs⟩
  | case4 cs h ih =>
    -- The characters of an escape are skipped one by one, so that the rest is a suffix.
    cases hescape : readEscape opened cs with
    | error e => exact isIn_of_readEscape hescape
    | ok escape =>
      refine Reads.mono ?_ (List.suffix_cons _ cs)
      exact (ih escape.2).map fun _ _ _ => ⟨_, rfl, trivial⟩
  | case5 => trivial
  | case6 c cs _ _ _ ih =>
    refine Reads.mono ?_ (List.suffix_cons c cs)
    exact ih.map fun _ _ _ => ⟨_, rfl, trivial⟩

/-! ## Values -/

/-- All three readers, by induction on the fuel that they share. -/
theorem reads_of_fuel (fuel : Nat) :
    (∀ cs, Reads IsPlain cs (readValue fuel cs)) ∧
      (∀ cs, Reads (fun vs => ∀ v ∈ vs, IsPlain v) cs (readItems fuel cs)) ∧
      ∀ cs, Reads (fun fs => ∀ f ∈ fs, IsPlain f.2) cs (readFields fuel cs) := by
  induction fuel with
  | zero => exact ⟨fun _ => trivial, fun _ => trivial, fun _ => trivial⟩
  | succ fuel ih =>
    obtain ⟨hvalue, hitems, hfields⟩ := ih
    refine ⟨fun cs => ?_, fun cs => ?_, fun cs => ?_⟩
    · -- A value: a string, an array, a record or a scalar, by its first character.
      cases cs with
      | nil => trivial
      | cons c after =>
        have hinner : skipSpace after <:+ c :: after :=
          (skipSpace_suffix after).trans (List.suffix_cons c after)
        rw [readValue]
        dsimp only
        split
        · exact ((reads_readChars _ _ _).mono (List.suffix_cons c after)).bind
            fun s rest _ _ => ⟨.text _, List.suffix_rfl⟩
        · split
          · split
            · exact ⟨.list (by simp), (List.tail_suffix _).trans hinner⟩
            · exact ((hitems _).mono hinner).bind
                fun items rest hgood _ => ⟨.list hgood, List.suffix_rfl⟩
          · split
            · split
              · exact ⟨.record (by simp) (by simp), (List.tail_suffix _).trans hinner⟩
              · exact ((hfields _).mono hinner).bind fun fields rest hgood _ =>
                  ⟨.record (Fields.nodup_keys_ofPairs fields) (Fields.forall_ofPairs hgood),
                    List.suffix_rfl⟩
            · exact reads_readScalar _
    · -- An item, and behind a comma the items that follow.
      rw [readItems]
      refine (hvalue cs).bind fun v rest hv _ => ?_
      dsimp only
      split
      · exact ⟨by simpa using hv, (List.tail_suffix _).trans (skipSpace_suffix rest)⟩
      · split
        · refine Reads.mono ?_ (skipSpace_tail_suffix rest)
          exact (hitems _).bind fun vs rest hvs _ =>
            ⟨List.forall_mem_cons.mpr ⟨hv, hvs⟩, List.suffix_rfl⟩
        · trivial
    · -- A name, a colon and a value, and behind a comma the fields that follow.
      rw [readFields]
      split
      · trivial
      · refine ((reads_readChars _ _ _).mono (List.tail_suffix cs)).bind fun k rest _ _ => ?_
        dsimp only
        split
        · trivial
        · refine Reads.mono ?_ (skipSpace_tail_suffix rest)
          refine (hvalue _).bind fun v rest hv _ => ?_
          dsimp only
          split
          · exact ⟨by simpa using hv, (List.tail_suffix _).trans (skipSpace_suffix rest)⟩
          · split
            · refine Reads.mono ?_ (skipSpace_tail_suffix rest)
              exact (hfields _).bind fun fs rest hfs _ =>
                ⟨List.forall_mem_cons.mpr ⟨hv, hfs⟩, List.suffix_rfl⟩
            · trivial

theorem reads_readValue (fuel : Nat) (cs : List Char) :
    Reads IsPlain cs (readValue fuel cs) :=
  (reads_of_fuel fuel).1 cs

/-! ## Whole texts -/

theorem readChecked_eq (cs : List Char) :
    readChecked cs =
      if cs.head? = some '\ufeff' then .error (.problem .byteOrderMark cs.length)
      else readValue (2 * cs.length + 2) (skipSpace cs) >>= fun read =>
        if (skipSpace read.2).isEmpty then .ok read.1
        else .error (.problem .extraData (skipSpace read.2).length) := by
  rw [readChecked]
  split <;> rfl

theorem read_eq_ok_iff : read cs = .ok v ↔ readChecked cs = .ok v := by
  rw [read]
  cases readChecked cs <;> simp [Except.mapError]

/-- A text that is a document has its value at the beginning. -/
theorem exists_readValue_of_read (h : read cs = .ok v) :
    ∃ rest, readValue (2 * cs.length + 2) (skipSpace cs) = .ok (v, rest) := by
  rw [read_eq_ok_iff, readChecked_eq] at h
  split at h
  · cases h
  · obtain ⟨⟨w, rest⟩, hread, h⟩ := bind_eq_ok_iff.mp h
    split at h
    · cases h
      exact ⟨rest, hread⟩
    · cases h

/-- What is read is plain. -/
theorem isPlain_of_read (h : read cs = .ok v) : IsPlain v := by
  obtain ⟨rest, hrest⟩ := exists_readValue_of_read h
  have hreads := reads_readValue (2 * cs.length + 2) (skipSpace cs)
  rw [hrest] at hreads
  exact hreads.1

theorem isIn_of_readChecked (h : readChecked cs = .error e) : e.IsIn cs := by
  have hreads := (reads_readValue (2 * cs.length + 2) (skipSpace cs)).mono (skipSpace_suffix cs)
  rw [readChecked_eq] at h
  split at h
  · cases h
    trivial
  · cases hvalue : readValue (2 * cs.length + 2) (skipSpace cs) with
    | error e' =>
      rw [hvalue] at h hreads
      cases h
      exact hreads
    | ok read =>
      rw [hvalue] at h
      change (if (skipSpace read.2).isEmpty then Except.ok read.1
        else Except.error (Stop.problem .extraData (skipSpace read.2).length)) = .error e at h
      split at h <;> cases h
      trivial

/-- Reading breaks off only at a row of more than `digitLimit` digits. -/
theorem exists_digits_of_read_eq_fault (h : read cs = .error (.fault f)) :
    ∃ ds, ds <:+: cs ∧ (∀ d ∈ ds, d.isDigit = true) ∧ digitLimit < ds.length ∧
      f = .literalTooLong ds.length := by
  rw [read] at h
  cases hstop : readChecked cs with
  | ok v =>
    rw [hstop] at h
    cases h
  | error e =>
    rw [hstop] at h
    cases e with
    | problem p left => cases h
    | tooLong n =>
      cases h
      obtain ⟨hn, ds, hds, hdigits, rfl⟩ := isIn_of_readChecked hstop
      exact ⟨ds, hds, hdigits, hn, rfl⟩

/-! ## Blank texts -/

/-- No value begins with a blank character. -/
theorem readScalar_of_isBlank {c : Char} (hc : Text.isBlank c = true) (after : List Char) :
    readScalar (c :: after) = .error (.problem .expectingValue (c :: after).length) := by
  have hne (d : Char) (hd : Text.isBlank d = false) : ¬ c = d := Text.ne_of_isBlank hc hd
  -- The ranges of blank characters hold no digit.
  have hdigit : c.isDigit = false := by
    by_contra hdigit
    simp only [Char.isDigit, Bool.not_eq_false, Bool.and_eq_true, decide_eq_true_eq, ge_iff_le,
      UInt32.le_iff_toNat_le] at hdigit
    have hlow : 48 ≤ c.toNat := hdigit.1
    have hhigh : c.toNat ≤ 57 := hdigit.2
    simp only [Text.isBlank, Text.inRanges, Text.blankRanges, List.any_cons, List.any_nil,
      Bool.or_eq_true, Bool.and_eq_true, decide_eq_true_eq, Bool.or_false] at hc
    omega
  have hwords : words.find? (fun w => w.1.isPrefixOf (c :: after)) = none := by
    rw [List.find?_eq_none]
    intro w hw
    simp only [words, List.mem_cons, List.not_mem_nil, or_false] at hw
    rcases hw with rfl | rfl | rfl | rfl | rfl | rfl <;>
      simp [Ne.symm (hne 'n' (by decide)), Ne.symm (hne 't' (by decide)),
        Ne.symm (hne 'f' (by decide)), Ne.symm (hne 'N' (by decide)),
        Ne.symm (hne 'I' (by decide)), Ne.symm (hne '-' (by decide))]
  have hminus : ¬ c = '-' := hne '-' (by decide)
  have hzero : ¬ c = '0' := hne '0' (by decide)
  rw [readScalar, hwords]
  simp [readNumber, hminus, spanInteger, hzero, spanDigits, hdigit]

theorem readValue_of_isAllBlank (h : Text.isAllBlank cs = true) (fuel : Nat) :
    ∃ p left, readValue fuel cs = .error (.problem p left) := by
  cases fuel with
  | zero => exact ⟨_, _, rfl⟩
  | succ fuel =>
    cases cs with
    | nil => exact ⟨_, _, rfl⟩
    | cons c after =>
      have hc : Text.isBlank c = true := by
        simp only [Text.isAllBlank, List.all_cons, Bool.and_eq_true] at h
        exact h.1
      have hne (d : Char) (hd : Text.isBlank d = false) : ¬ c = d := Text.ne_of_isBlank hc hd
      refine ⟨.expectingValue, (c :: after).length, ?_⟩
      rw [readValue]
      simp only [hne '"' (by decide), hne '[' (by decide), hne '\x7b' (by decide), if_false]
      exact readScalar_of_isBlank hc after

/-- A blank text is no document, and reading it does not break off. -/
theorem read_of_isAllBlank (h : Text.isAllBlank cs = true) :
    ∃ e, read cs = .error (.malformed e) := by
  have hspace : Text.isAllBlank (skipSpace cs) = true := by
    rw [Text.isAllBlank, List.all_eq_true] at h ⊢
    exact fun c hc => h c ((skipSpace_suffix cs).subset hc)
  obtain ⟨p, left, hvalue⟩ := readValue_of_isAllBlank hspace (2 * cs.length + 2)
  rw [read, readChecked_eq, hvalue]
  split <;> exact ⟨_, rfl⟩

end Assay.Json
