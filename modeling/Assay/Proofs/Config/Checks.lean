import Assay.Config.Basic
import Assay.Proofs.Number.Wholes
import Assay.Proofs.Value.Shown

/-!
# The checks of a configuration

The settings of a configuration are checked one after the other. Each check accepts a setting,
refuses it with an error of its own, or breaks off. A check breaks off where a refusal has to show
a value that has no text, and where a count is an infinity, NaN or an integer beyond the doubles.
What is accepted is not always what was given: NaN passes as a threshold, and a count of more than
53 bits is rounded.

## Main definitions

* `Accounted` — an outcome that is a result of a kind or a refusal
* `Check`, `Check.Decides` — what a check accepts, and where it breaks off
* `Check.Orderly` — checks in their order, none of which breaks off
* `Config.IsThreshold`, `Config.IsCount`, `Config.GivesRules` — what is accepted

## Main results

* `accounted_bind_iff` — one check in front of others
* `decides_threshold`, `decides_count`, `decides_delimiter`, `decides_section`, `decides_rules` —
  the checks one by one
* `percentage_iff`, `equals_iff` — when what is accepted is right
-/

namespace Assay

/-! ## Outcomes -/

/-- An outcome is a result of a kind, or a refusal of the configuration; nothing breaks off. -/
def Accounted {α : Type} (Q : α → Prop) : Except (Failure ConfigError) α → Prop
  | .ok a => Q a
  | .error (.declared e) => e.errorClass = .configValue
  | .error (.fault _) => False

/-- A check of a setting: when it accepts it, and when it breaks off. Otherwise the setting is
refused. -/
structure Check where
  accepts : Prop
  breaks : Prop

namespace Check

/-- An operation is a check. -/
structure Decides {α : Type} (c : Check) (x : Except (Failure ConfigError) α) : Prop where
  accepts : (∃ a, x = .ok a) ↔ c.accepts
  breaks : (∃ f, x = .error (.fault f)) ↔ c.breaks
  refuses : ∀ e, x = .error (.declared e) → e.errorClass = .configValue

/-- No check that is reached breaks off, and something holds when all of them accept. -/
def Orderly (good : Prop) : List Check → Prop
  | [] => good
  | c :: cs => ¬ c.breaks ∧ (c.accepts → Orderly good cs)

variable {α β : Type} {c : Check} {x : Except (Failure ConfigError) α}
  {g : α → Except (Failure ConfigError) β} {Q : β → Prop} {R : Prop}

/-- The first of several steps is a check. -/
theorem Decides.accounted_bind_iff (hx : c.Decides x)
    (hg : ∀ a, x = .ok a → (Accounted Q (g a) ↔ R)) :
    Accounted Q (x >>= g) ↔ ¬ c.breaks ∧ (c.accepts → R) := by
  rw [← hx.accepts, ← hx.breaks]
  match x, hx, hg with
  | .ok a, _, hg =>
    change Accounted Q (g a) ↔ _
    simp [hg a rfl]
  | .error (.fault f), _, _ =>
    change False ↔ _
    simp
  | .error (.declared e), hx, _ =>
    change e.errorClass = .configValue ↔ _
    simp [hx.refuses e rfl]

theorem Decides.congr {c' : Check} (h : c.Decides x) (haccepts : c.accepts ↔ c'.accepts)
    (hbreaks : c.breaks ↔ c'.breaks) : c'.Decides x :=
  ⟨h.accepts.trans haccepts, h.breaks.trans hbreaks, h.refuses⟩

/-- What is made of an accepted setting does not matter. -/
theorem Decides.map {γ : Type} (h : c.Decides x) (f : α → γ) :
    c.Decides (x >>= fun a => pure (f a)) := by
  refine ⟨Iff.trans ?_ h.accepts, Iff.trans ?_ h.breaks, fun e he => h.refuses e ?_⟩
  · cases x <;> simp [bind, Except.bind, pure, Except.pure]
  · exact exists_congr fun f => bind_pure_eq_error_iff
  · exact bind_pure_eq_error_iff.mp he

theorem decides_ok (a : α) : Check.Decides ⟨True, False⟩ (.ok a) :=
  ⟨by simp, by simp, fun e he => by cases he⟩

theorem decides_fault (f : Fault) :
    Check.Decides ⟨False, True⟩ (.error (.fault f) : Except (Failure ConfigError) α) :=
  ⟨by simp, by simp, fun e he => by cases he⟩

theorem decides_declared {e : ConfigError} (he : e.errorClass = .configValue) :
    Check.Decides ⟨False, False⟩ (declare e : Except (Failure ConfigError) α) :=
  ⟨by simp [declare], by simp [declare], fun e' he' => by cases he'; exact he⟩

end Check

namespace Config

open Setting (Unshowable)

/-! ## Settings -/

/-- Refuse a setting, with its text. -/
def refusal {α : Type} (e : String → ConfigError) (v : Setting) :
    Except (Failure ConfigError) α :=
  (v.quoted.mapError .fault).bind fun shown => declare (e shown)

theorem decides_refusal {α : Type} {e : String → ConfigError} (v : Setting)
    (he : ∀ shown, (e shown).errorClass = .configValue) :
    Check.Decides ⟨False, Unshowable v⟩ (refusal e v : Except (Failure ConfigError) α) := by
  rw [refusal, Unshowable]
  cases v.quoted with
  | ok shown => exact (Check.decides_declared (he shown)).congr Iff.rfl (by simp)
  | error f => exact (Check.decides_fault f).congr Iff.rfl (by simp)

variable {v : Setting} {fs : Fields Key Setting} {name setting : String} {b : Bounds} {x : Float}

theorem not_unshowable_of_real? (h : v.real? = some x) : ¬ Unshowable v := by
  rintro ⟨f, hf⟩
  cases v with
  | float y => cases hf
  | foreign l =>
    cases l with
    | datum d => cases hf
    | _ => cases h
  | _ => cases h

theorem not_unshowable_int {n : Int} (h : n.natAbs < 10 ^ digitLimit) :
    ¬ Unshowable (.int n) := fun hn =>
  Nat.not_le.mpr h (Setting.intText_eq_error_iff.mp hn)

/-! ## Numbers -/

theorem number_int (setting : String) (b : Bounds) (whole : Bool) (n : Int) :
    number setting b whole (.int n) =
      if wholeWithinBounds b n then
        match Number.ofInt? n with
        | some x => .ok x
        | none => .error (.fault .integerTooLarge)
      else refusal (.outOfRange setting b) (.int n) := by
  rw [number]
  cases wholeWithinBounds b n with
  | true => cases Number.ofInt? n <;> rfl
  | false =>
    rw [refusal]
    cases (Value.int n : Setting).quoted <;> rfl

/-- A number within its bounds, or a refusal. -/
def bounded (setting : String) (b : Bounds) (v : Setting) (x : Float) :
    Except (Failure ConfigError) Float :=
  if withinBounds b x then .ok x else refusal (.outOfRange setting b) v

theorem number_of_real? (whole : Bool) (h : v.real? = some x) :
    number setting b whole v =
      if whole then
        match Binary.ofFloat? x with
        | none => .error (.fault (if x.isNaN then .nanToInteger else .infinityToInteger))
        | some value =>
          if value.isWhole then bounded setting b v x else refusal (.notWhole setting) v
      else bounded setting b v x := by
  rw [number, h, bounded, refusal, refusal]
  · -- Both sides show the setting only where they refuse it.
    dsimp only
    cases whole with
    | false => cases withinBounds b x <;> cases v.quoted <;> rfl
    | true =>
      cases Binary.ofFloat? x with
      | none => rfl
      | some value =>
        dsimp only
        cases value.isWhole <;> cases withinBounds b x <;> cases v.quoted <;> rfl
  · rintro n rfl
    cases h

theorem number_of_not_number (whole : Bool) (hint : ∀ n, v ≠ .int n) (h : v.real? = none) :
    number setting b whole v = refusal (.notANumber setting whole) v := by
  rw [number, h, refusal]
  · cases v.quoted <;> rfl
  · exact hint

/-! ## The threshold -/

/-- A number from 0 to 100, or NaN. -/
def IsThreshold (v : Setting) : Prop :=
  (∃ n : Nat, v = .int n ∧ n ≤ 100) ∨
    ∃ x, v.real? = some x ∧ (x.isNaN = true ∨ 0.0 ≤ x ∧ x ≤ 100.0)

theorem withinBounds_percent_iff :
    withinBounds ⟨some 100⟩ x = true ↔ x.isNaN = true ∨ 0.0 ≤ x ∧ x ≤ 100.0 := by
  have hbounds : withinBounds ⟨some 100⟩ x = true ↔ ¬ x < 0.0 ∧ ¬ 100.0 < x := by
    change (!decide (x < 0.0) && !decide (100.0 < x)) = true ↔ _
    simp
  rw [hbounds]
  cases hx : x.isNaN with
  | true =>
    exact iff_of_true ⟨Number.not_lt_of_isNaN (.inl hx), Number.not_lt_of_isNaN (.inr hx)⟩
      (.inl rfl)
  | false =>
    rw [Number.not_lt_iff hx (by decide +kernel), Number.not_lt_iff (by decide +kernel) hx]
    simp

theorem wholeWithinBounds_percent_iff {n : Int} :
    wholeWithinBounds ⟨some 100⟩ n = true ↔ 0 ≤ n ∧ n ≤ 100 := by
  simp [wholeWithinBounds]

/-- The percentages are doubles within the bounds. -/
theorem exists_ofInt?_percent {n : Nat} (h : n ≤ 100) :
    ∃ x, Number.ofInt? n = some x ∧ 0.0 ≤ x ∧ x ≤ 100.0 := by
  have hall : ∀ n < 101, (Number.ofInt? (n : Nat)).any (fun x => 0.0 ≤ x && x ≤ 100.0) = true := by
    decide +kernel
  have hn := hall n (by omega)
  rw [Option.any_eq_true] at hn
  obtain ⟨x, hx, hpercent⟩ := hn
  exact ⟨x, hx, by simpa using hpercent⟩

theorem decides_threshold (setting : String) (v : Setting) :
    Check.Decides ⟨IsThreshold v, Unshowable v⟩ (number setting ⟨some 100⟩ false v) := by
  -- Integers are compared before they are rounded, doubles as they are.
  by_cases hint : ∃ n, v = .int n
  · obtain ⟨n, rfl⟩ := hint
    rw [number_int]
    by_cases hn : 0 ≤ n ∧ n ≤ 100
    · obtain ⟨n, rfl⟩ := Int.eq_ofNat_of_zero_le hn.1
      obtain ⟨x, hx, -⟩ := exists_ofInt?_percent (n := n) (by omega)
      rw [if_pos (wholeWithinBounds_percent_iff.mpr hn), hx]
      have hlimit : 100 < 10 ^ digitLimit := Nat.lt_of_lt_of_le (by decide : 100 < 10 ^ 3)
        (Nat.pow_le_pow_right (by decide) (by decide))
      exact (Check.decides_ok x).congr (iff_of_true trivial (.inl ⟨n, rfl, by omega⟩))
        (iff_of_false not_false (not_unshowable_int (by omega)))
    · rw [if_neg (wholeWithinBounds_percent_iff.not.mpr hn)]
      refine (decides_refusal _ fun _ => rfl).congr (iff_of_false not_false ?_) Iff.rfl
      rintro (⟨m, hm, hle⟩ | ⟨x, hx, -⟩)
      · cases hm
        omega
      · cases hx
  · cases hreal : v.real? with
    | none =>
      rw [number_of_not_number _ (fun n hn => hint ⟨n, hn⟩) hreal]
      refine (decides_refusal _ fun _ => rfl).congr (iff_of_false not_false ?_) Iff.rfl
      rintro (⟨n, hn, -⟩ | ⟨x, hx, -⟩)
      · exact hint ⟨n, hn⟩
      · simp [hreal] at hx
    | some x =>
      have haccepts : IsThreshold v ↔ withinBounds ⟨some 100⟩ x = true := by
        rw [withinBounds_percent_iff, IsThreshold]
        constructor
        · rintro (⟨n, rfl, -⟩ | ⟨y, hy, hx⟩)
          · exact absurd ⟨_, rfl⟩ hint
          · cases hreal.symm.trans hy
            exact hx
        · exact fun hx => .inr ⟨x, hreal, hx⟩
      rw [number_of_real? _ hreal, if_neg (by decide), bounded]
      split
      · next hx =>
        exact (Check.decides_ok x).congr (iff_of_true trivial (haccepts.mpr hx))
          (iff_of_false not_false (not_unshowable_of_real? hreal))
      · next hx =>
        exact (decides_refusal _ fun _ => rfl).congr
          (iff_of_false not_false (haccepts.not.mpr hx)) Iff.rfl

/-! ## Counts -/

/-- A setting is a natural number, as an integer or as a double. -/
inductive Equals : Setting → Nat → Prop where
  | int (n : Nat) : Equals (.int n) n
  | float {x : Float} {value : Binary} {n : Nat} (hx : Binary.ofFloat? x = some value)
    (hn : value.value = n) : Equals (.float x) n

/-- A natural number; as an integer it must not be too large for a double. -/
def IsCount (v : Setting) : Prop := ∃ n, Equals v n ∧ (v = .int n → n < Number.widthLimit)

/-- What a count cannot be read from: an integer that is too large for a double, an infinity, NaN,
and what has no text. -/
def BreaksCount (v : Setting) : Prop :=
  Unshowable v ∨ (∃ n : Nat, v = .int n ∧ Number.widthLimit ≤ n) ∨
    ∃ x, v.real? = some x ∧ x.isFinite = false

theorem equals_int_iff {i : Int} {n : Nat} : Equals (.int i) n ↔ i = n := by
  constructor
  · rintro ⟨⟩
    rfl
  · rintro rfl
    exact .int n

/-- The natural numbers among the doubles are whole and not below zero. -/
theorem isCount_float_iff {value : Binary} (hx : Binary.ofFloat? x = some value) :
    IsCount (.float x) ↔ value.isWhole = true ∧ ¬ x < 0.0 := by
  obtain ⟨hcanonical, rfl⟩ := Binary.ofFloat?_eq_some_iff.mp hx
  rw [Number.toFloat_lt_zero_iff hcanonical, ← Number.exists_value_eq_iff]
  constructor
  · rintro ⟨n, hn, -⟩
    cases hn with
    | float hx' hn =>
      cases hx.symm.trans hx'
      exact ⟨n, hn⟩
  · rintro ⟨n, hn⟩
    exact ⟨n, .float hx hn, fun h => by cases h⟩

theorem eq_float_of_real? (h : v.real? = some x) (hx : x.isFinite = true) : v = .float x := by
  cases v with
  | float y =>
    cases h
    rfl
  | foreign l =>
    rcases l with d | _ | _
    · cases d with
      | nan mark =>
        cases h
        exact absurd hx (by decide +kernel)
      | _ => cases h
    · cases h
    · cases h
  | _ => cases h

theorem widthLimit_le_digits : Number.widthLimit ≤ 10 ^ digitLimit := by
  have hpow (a : Nat) (ha : a ≤ digitLimit) : 2 ^ a ≤ 10 ^ digitLimit :=
    (Nat.pow_le_pow_left (by decide) a).trans (Nat.pow_le_pow_right (by decide) ha)
  exact Number.widthLimit_le.trans (hpow 1024 (by decide))

/-- An integer that is not negative is accepted or too large for a double. -/
theorem decides_count_int (setting : String) (i : Int) :
    Check.Decides ⟨IsCount (.int i), BreaksCount (.int i)⟩
      (number setting ⟨none⟩ true (.int i)) := by
  have hcount : IsCount (.int i) ↔ 0 ≤ i ∧ i.natAbs < Number.widthLimit := by
    constructor
    · rintro ⟨n, hn, hlimit⟩
      obtain rfl := equals_int_iff.mp hn
      exact ⟨Int.natCast_nonneg n, hlimit rfl⟩
    · rintro ⟨hi, hlimit⟩
      obtain ⟨n, rfl⟩ := Int.eq_ofNat_of_zero_le hi
      exact ⟨n, .int n, fun _ => hlimit⟩
  have hbreaks : BreaksCount (.int i) ↔
      Unshowable (.int i) ∨ 0 ≤ i ∧ Number.widthLimit ≤ i.natAbs := by
    rw [BreaksCount]
    refine or_congr_right ⟨?_, ?_⟩
    · rintro (⟨n, hn, hlimit⟩ | ⟨x, hx, -⟩)
      · cases hn
        exact ⟨Int.natCast_nonneg n, hlimit⟩
      · cases hx
    · rintro ⟨hi, hlimit⟩
      obtain ⟨n, rfl⟩ := Int.eq_ofNat_of_zero_le hi
      exact .inl ⟨n, rfl, hlimit⟩
  -- Counts have no upper bound, so that only the range of doubles is one.
  have hbounds : wholeWithinBounds ⟨none⟩ i = true ↔ 0 ≤ i := by simp [wholeWithinBounds]
  rw [number_int]
  by_cases hi : 0 ≤ i
  · rw [if_pos (hbounds.mpr hi)]
    cases hx : Number.ofInt? i with
    | none =>
      have hlimit := (Number.ofInt?_eq_none_iff i).mp hx
      exact (Check.decides_fault _).congr (iff_of_false not_false (by rw [hcount]; omega))
        (iff_of_true trivial (hbreaks.mpr (.inr ⟨hi, hlimit⟩)))
    | some x =>
      have hlimit : i.natAbs < Number.widthLimit := by
        have := (Number.ofInt?_eq_none_iff i).not.mp (by rw [hx]; exact Option.some_ne_none x)
        omega
      refine (Check.decides_ok x).congr (iff_of_true trivial (hcount.mpr ⟨hi, hlimit⟩))
        (iff_of_false not_false ?_)
      rw [hbreaks]
      rintro (hshown | ⟨-, hlimit'⟩)
      · exact not_unshowable_int (hlimit.trans_le widthLimit_le_digits) hshown
      · omega
  · rw [if_neg (hbounds.not.mpr hi)]
    exact (decides_refusal _ fun _ => rfl).congr
      (iff_of_false not_false (by rw [hcount]; exact fun h => hi h.1))
      (by rw [hbreaks]; exact (or_iff_left fun h => hi h.1).symm)

theorem decides_count_float {value : Binary} (setting : String)
    (hx : Binary.ofFloat? x = some value) :
    Check.Decides ⟨IsCount (.float x), BreaksCount (.float x)⟩
      (number setting ⟨none⟩ true (.float x)) := by
  have hfinite := Binary.isFinite_of_ofFloat? hx
  have hshown : ¬ Unshowable (.float x) := not_unshowable_of_real? rfl
  have hbreaks : ¬ BreaksCount (.float x) := by
    rintro (h | ⟨n, hn, -⟩ | ⟨y, hy, hinfinite⟩)
    · exact hshown h
    · cases hn
    · cases hy
      simp [hfinite] at hinfinite
  have hbounds : withinBounds ⟨none⟩ x = true ↔ ¬ x < 0.0 := by simp [withinBounds]
  have hcount := isCount_float_iff hx
  rw [number_of_real? _ rfl, if_pos rfl, hx]
  dsimp only
  rw [bounded]
  by_cases hwhole : value.isWhole = true
  · by_cases hlow : x < 0.0
    · rw [if_pos hwhole, if_neg (by rw [hbounds]; exact not_not.mpr hlow)]
      exact (decides_refusal _ fun _ => rfl).congr
        (iff_of_false not_false (by rw [hcount]; exact fun h => h.2 hlow))
        (iff_of_false hshown hbreaks)
    · rw [if_pos hwhole, if_pos (hbounds.mpr hlow)]
      exact (Check.decides_ok x).congr (iff_of_true trivial (hcount.mpr ⟨hwhole, hlow⟩))
        (iff_of_false not_false hbreaks)
  · rw [if_neg hwhole]
    exact (decides_refusal _ fun _ => rfl).congr
      (iff_of_false not_false (by rw [hcount]; exact fun h => hwhole h.1))
      (iff_of_false hshown hbreaks)

theorem decides_count (setting : String) (v : Setting) :
    Check.Decides ⟨IsCount v, BreaksCount v⟩ (number setting ⟨none⟩ true v) := by
  by_cases hint : ∃ i, v = .int i
  · obtain ⟨i, rfl⟩ := hint
    exact decides_count_int setting i
  have hnotInt (n : Nat) (hn : v = .int n) : False := hint ⟨n, hn⟩
  cases hreal : v.real? with
  | none =>
    rw [number_of_not_number _ (fun n hn => hint ⟨n, hn⟩) hreal]
    refine (decides_refusal _ fun _ => rfl).congr (iff_of_false not_false ?_) ⟨.inl, ?_⟩
    · rintro ⟨n, hn, -⟩
      cases hn with
      | int => exact hnotInt n rfl
      | float => cases hreal
    · rintro (h | ⟨n, hn, -⟩ | ⟨x, hx, -⟩)
      · exact h
      · exact (hnotInt n hn).elim
      · simp [hreal] at hx
  | some x =>
    cases hvalue : Binary.ofFloat? x with
    | some value =>
      obtain rfl := eq_float_of_real? hreal (Binary.isFinite_of_ofFloat? hvalue)
      exact decides_count_float setting hvalue
    | none =>
      rw [number_of_real? _ hreal, if_pos rfl, hvalue]
      refine (Check.decides_fault _).congr (iff_of_false not_false ?_)
        (iff_of_true trivial (.inr (.inr ⟨x, hreal, Binary.ofFloat?_eq_none_iff.mp hvalue⟩)))
      rintro ⟨n, hn, -⟩
      cases hn with
      | int => exact hnotInt n rfl
      | float hx =>
        cases hreal
        simp [hvalue] at hx

/-! ## What is accepted -/

/-- An integer that is given as a count is a double. -/
def IsExactCount (v : Setting) : Prop := ∀ n : Nat, v = .int n → Number.IsExact n

theorem refusal_ne_ok {α : Type} {e : String → ConfigError} {a : α} : refusal e v ≠ .ok a := by
  rw [refusal]
  cases v.quoted <;> simp [Except.mapError, Except.bind, declare]

theorem bounded_eq_ok_iff {y : Float} :
    bounded setting b v x = .ok y ↔ withinBounds b x = true ∧ x = y := by
  rw [bounded]
  split
  · next hx => simp [hx]
  · next hx => simp [hx, refusal_ne_ok]

/-- The double that is accepted is the nearest one to an integer, or the double that is given. -/
theorem of_number_eq_ok {whole : Bool} (h : number setting b whole v = .ok x) :
    (∃ i, v = .int i ∧ wholeWithinBounds b i = true ∧ Number.ofInt? i = some x) ∨
      v.real? = some x ∧ withinBounds b x = true := by
  by_cases hint : ∃ i, v = .int i
  · obtain ⟨i, rfl⟩ := hint
    rw [number_int] at h
    split at h
    · next hi =>
      refine .inl ⟨i, rfl, hi, ?_⟩
      split at h
      · next y hy =>
        cases h
        exact hy
      · cases h
    · exact absurd h refusal_ne_ok
  · refine .inr ?_
    cases hreal : v.real? with
    | none =>
      rw [number_of_not_number _ (fun i hi => hint ⟨i, hi⟩) hreal] at h
      exact absurd h refusal_ne_ok
    | some y =>
      rw [number_of_real? _ hreal] at h
      have hbounded : bounded setting b v y = .ok x := by
        split at h
        · split at h
          · cases h
          · split at h
            · exact h
            · exact absurd h refusal_ne_ok
        · exact h
      obtain ⟨hy, rfl⟩ := bounded_eq_ok_iff.mp hbounded
      exact ⟨rfl, hy⟩

/-- An accepted threshold is a percentage unless NaN was given. -/
theorem percentage_iff (h : number setting ⟨some 100⟩ false v = .ok x) :
    0.0 ≤ x ∧ x ≤ 100.0 ↔ ∀ y, v.real? = some y → y.isNaN = false := by
  rcases of_number_eq_ok h with ⟨i, rfl, hi, hx⟩ | ⟨hreal, hx⟩
  · obtain ⟨hlow, hhigh⟩ := wholeWithinBounds_percent_iff.mp hi
    obtain ⟨n, rfl⟩ := Int.eq_ofNat_of_zero_le hlow
    obtain ⟨y, hy, hpercent⟩ := exists_ofInt?_percent (n := n) (by omega)
    cases hx.symm.trans hy
    exact iff_of_true hpercent fun y hy => by cases hy
  · rw [withinBounds_percent_iff] at hx
    cases hnan : x.isNaN with
    | true =>
      refine iff_of_false (fun hpercent => ?_) fun hnot => ?_
      · exact Number.not_le_of_isNaN (.inr hnan) hpercent.1
      · exact Bool.false_ne_true ((hnot x hreal).symm.trans hnan)
    | false =>
      have hpercent := hx.resolve_left (by rw [hnan]; exact Bool.false_ne_true)
      refine iff_of_true hpercent fun y hy => ?_
      cases hreal.symm.trans hy
      exact hnan

/-- An accepted count is the number that was given unless that was rounded. -/
theorem equals_iff {n : Nat} (h : count setting v = .ok n) : Equals v n ↔ IsExactCount v := by
  obtain ⟨x, hx, h⟩ := bind_eq_ok_iff.mp h
  obtain rfl : ((Number.truncate? x).getD 0).toNat = n := Except.ok.inj h
  obtain ⟨m, hm, -⟩ := (decides_count setting v).accepts.mp ⟨x, hx⟩
  cases hm with
  | int =>
    obtain ⟨i, hi, -, hx⟩ | ⟨hreal, -⟩ := of_number_eq_ok hx
    · cases hi
      have hexact : IsExactCount (.int m) ↔ Number.IsExact m :=
        ⟨fun h => h m rfl, fun h n hn => by cases hn; exact h⟩
      rw [hexact, equals_int_iff]
      -- The number that is kept is what is cut off the double; zero needs no double at all.
      constructor
      · intro hm
        rcases Nat.eq_zero_or_pos m with rfl | hpos
        · exact ⟨0, 0, by simp, by decide⟩
        rw [← Number.truncate?_ofInt?_iff hx]
        cases htruncate : Number.truncate? x with
        | none =>
          rw [htruncate, Option.getD_none] at hm
          omega
        | some t =>
          rw [htruncate, Option.getD_some] at hm
          exact congrArg some (by omega)
      · intro hm
        rw [(Number.truncate?_ofInt?_iff hx).mpr hm]
        rfl
    · cases hreal
  | float hvalue hm =>
    obtain ⟨i, hi, -⟩ | ⟨hreal, -⟩ := of_number_eq_ok hx
    · cases hi
    · cases hreal
      refine iff_of_true (.float hvalue ?_) fun n hn => by cases hn
      rw [Number.truncate?, hvalue, Option.map_some, Number.truncate_of_value hm]
      exact hm

/-! ## Texts, sections and rules -/

theorem decides_delimiter (v : Setting) :
    Check.Decides ⟨∃ s, v = .text s ∧ s ≠ "", Unshowable v⟩ (delimiterOf v) := by
  have hrefusal : Check.Decides ⟨False, Unshowable v⟩
      (refusal .badDelimiter v : Except (Failure ConfigError) { s : String // s ≠ "" }) :=
    decides_refusal v fun _ => rfl
  cases v with
  | text s =>
    rw [delimiterOf]
    split
    · next hs =>
      exact hrefusal.congr (iff_of_false not_false fun ⟨t, ht, hne⟩ => by cases ht; exact hne hs)
        Iff.rfl
    · next hs =>
      exact (Check.decides_ok _).congr (iff_of_true trivial ⟨s, rfl, hs⟩)
        (iff_of_false not_false fun ⟨f, hf⟩ => by cases hf)
  | _ => exact hrefusal.congr (iff_of_false not_false fun ⟨t, ht, _⟩ => by cases ht) Iff.rfl

theorem eq_text_of_delimiterOf {d : { s : String // s ≠ "" }} (h : delimiterOf v = .ok d) :
    v = .text d.1 := by
  obtain ⟨s, rfl, hs⟩ := (decides_delimiter v).accepts.mp ⟨d, h⟩
  rw [delimiterOf, dif_neg hs] at h
  cases h
  rfl

/-- The fields of a section; what is no record has none. -/
def sectionFields (name : String) (fs : Fields Key Setting) : Fields Key Setting :=
  ((lookup name fs).map Value.fields).getD []

/-- A section is absent, a record, or does not count as present. -/
def IsSection (name : String) (fs : Fields Key Setting) : Prop :=
  ∀ v, lookup name fs = some v → v.isTruthy = true → ∃ r, v = .record r

/-- A section is never shown, so that nothing breaks off. -/
theorem decides_section (name : String) (fs : Fields Key Setting) :
    Check.Decides ⟨IsSection name fs, False⟩ (sectionOf name fs) := by
  rw [sectionOf, IsSection]
  -- What does not count as present is taken for an empty section, whatever its kind.
  split
  · next hnone =>
    exact (Check.decides_ok _).congr (iff_of_true trivial (by simp [hnone])) Iff.rfl
  · next r hr =>
    refine (Check.decides_ok _).congr (iff_of_true trivial fun v hv _ => ?_) Iff.rfl
    exact ⟨r, Option.some.inj (hv.symm.trans hr)⟩
  · next v hnot hv =>
    split
    · next htruthy =>
      refine (Check.decides_declared rfl).congr (iff_of_false not_false fun h => ?_) Iff.rfl
      obtain ⟨r, rfl⟩ := h v hv htruthy
      exact hnot r rfl
    · next htruthy =>
      refine (Check.decides_ok _).congr (iff_of_true trivial fun w hw hpresent => ?_) Iff.rfl
      cases hv.symm.trans hw
      exact absurd hpresent htruthy

theorem eq_sectionFields {r : Fields Key Setting} (h : sectionOf name fs = .ok r) :
    r = sectionFields name fs := by
  rw [sectionOf] at h
  rw [sectionFields]
  split at h
  · next hnone =>
    cases h
    rw [hnone]
    rfl
  · next hr =>
    cases h
    rw [hr]
    rfl
  · next v hnot hv =>
    split at h
    · cases h
    · cases h
      rw [hv]
      cases v with
      | record r => exact (hnot r rfl).elim
      | _ => rfl

/-- Definitions of rules: a list of records, or what does not count as present. -/
def GivesRules (v : Setting) (rules : List (Fields Key Setting)) : Prop :=
  if v.isTruthy then v = .list (rules.map .record) else rules = []

theorem recordsOf?_eq_some_iff {items : List Setting} {rules : List (Fields Key Setting)} :
    recordsOf? items = some rules ↔ items = rules.map .record := by
  induction items generalizing rules with
  | nil => cases rules <;> simp [recordsOf?]
  | cons v items ih =>
    cases v with
    | record r =>
      rw [recordsOf?, Option.map_eq_some_iff]
      cases rules with
      | nil => simp
      | cons r' rules =>
        simp only [ih, List.map_cons, List.cons.injEq, Value.record.injEq]
        constructor
        · rintro ⟨rest, hrest, rfl, rfl⟩
          exact ⟨rfl, hrest⟩
        · rintro ⟨rfl, hrest⟩
          exact ⟨rules, hrest, rfl, rfl⟩
    | _ => cases rules <;> simp [recordsOf?]

/-- Rules are given or refused; what is shown then is the kind of the setting. -/
theorem rulesOf_spec (v : Setting) :
    (∃ rules, rulesOf v = .ok rules ∧ GivesRules v rules) ∨
      rulesOf v = declare (.badRules v.kindName) ∧ ∀ rules, ¬ GivesRules v rules := by
  cases htruthy : v.isTruthy with
  | false =>
    refine .inl ⟨[], ?_, by simp [GivesRules, htruthy]⟩
    cases v <;> simp [rulesOf, htruthy]
  | true =>
    simp only [GivesRules, htruthy, if_true]
    cases v with
    | list items =>
      simp only [Value.list.injEq, ← recordsOf?_eq_some_iff]
      cases hrecords : recordsOf? items with
      | some rules => exact .inl ⟨rules, by simp [rulesOf, htruthy, hrecords], rfl⟩
      | none => exact .inr ⟨by simp [rulesOf, htruthy, hrecords], by simp⟩
    | _ => exact .inr ⟨by simp [rulesOf, htruthy], by simp⟩

theorem decides_rules (v : Setting) :
    Check.Decides ⟨∃ rules, GivesRules v rules, False⟩ (rulesOf v) := by
  rcases rulesOf_spec v with ⟨rules, hrules, hgives⟩ | ⟨hrules, hnone⟩
  · rw [hrules]
    exact (Check.decides_ok rules).congr (iff_of_true trivial ⟨rules, hgives⟩) Iff.rfl
  · rw [hrules]
    exact (Check.decides_declared rfl).congr (iff_of_false not_false (not_exists.mpr hnone)) Iff.rfl

theorem givesRules_of_rulesOf {rules : List (Fields Key Setting)} (h : rulesOf v = .ok rules) :
    GivesRules v rules := by
  rcases rulesOf_spec v with ⟨rules', hrules, hgives⟩ | ⟨hrules, -⟩
  · cases hrules.symm.trans h
    exact hgives
  · cases hrules.symm.trans h

end Config

end Assay
