import Assay.Proofs.Usage.PathCalls

/-!
# Calls with literal paths

A call that reads or writes a table, that connects to a database, or that reads or writes the
text of a file has the path of the file as its first argument, in quotation marks. The path is
found as it is written, except for the path of a table that has a comma or a closing parenthesis
in it: no usage has such a path.

## Main definitions

* `LiteralPath` — a path that can stand in quotation marks
* `PathCall` — the calls
* `PathCall.text` — a call with a path

## Main results

* `PathCall.placeholder_ne` — a symbol is not the path of a call
* `PathCall.eq_of_quoted` — the only text in quotation marks is that path
* `analyze_pathCall` — when the path of a call is found
-/

namespace Assay

open Regex

/-! ## Parts of a text -/

section Parts

variable {α : Type} {a b s l r : List α} {x : α}

/-- A part in which a character does not occur stands before or behind that character. -/
theorem infix_or_infix_of_append_cons (hx : x ∉ s) (h : a ++ (s ++ b) = l ++ x :: r) :
    s <:+: l ∨ s <:+: r := by
  rcases List.append_eq_append_iff.mp h with ⟨t, rfl, ht⟩ | ⟨t, rfl, ht⟩
  · exact .inl ((prefix_of_append_eq ht hx).isInfix.trans (List.suffix_append a t).isInfix)
  · cases t with
    | nil =>
      have hs : s <+: [] := prefix_of_append_eq ht.symm hx
      exact .inl (hs.isInfix.trans (List.nil_infix))
    | cons y t =>
      obtain ⟨rfl, rfl⟩ := List.cons.inj ht
      exact .inr ⟨t, b, by simp⟩

/-- What has something behind it ends before the last character. -/
theorem prefix_of_append_eq_concat (hb : b ≠ []) (h : a ++ b = l ++ [x]) : a <+: l := by
  have hlast := congrArg List.dropLast h
  rw [List.dropLast_append_of_ne_nil hb, List.dropLast_concat] at hlast
  exact ⟨_, hlast⟩

end Parts

/-! ## Marks -/

namespace Mark

variable {cs r : List Char}

/-- How many quotation marks there are in a text. -/
def count (cs : List Char) : Nat := cs.countP fun c => c == '\'' || c == '"'

theorem isFree_iff_count_eq : IsFree cs ↔ count cs = 0 := by
  simp [IsFree, count, List.countP_eq_zero]

theorem IsFree.count_eq (h : IsFree cs) : count cs = 0 := isFree_iff_count_eq.mp h

theorem count_append : count (cs ++ r) = count cs + count r := List.countP_append

theorem count_cons (q : Mark) : count (q.val :: cs) = count cs + 1 := by
  rcases q with ⟨_, rfl | rfl⟩ <;> simp [count]

end Mark

/-! ## Calls -/

/-- A path that can stand in quotation marks, with no blanks around it. -/
abbrev LiteralPath :=
  { p : List Char // p ≠ [] ∧ Text.IsStripped Text.isBlank p ∧ Mark.IsFree p ∧ '\n' ∉ p }

/-- A format of tables. -/
inductive TableFormat where
  | csv
  | json
  | excel
  | pickle

/-- A call whose first argument is the path of a file. -/
inductive PathCall where
  | readTable (format : TableFormat)
  | writeTable (table : { cs : List Char // ∀ c ∈ cs, Text.isWord c = true }) (format : TableFormat)
  /-- To a database. -/
  | connect
  | readText
  | writeText

namespace PathCall

/-- The name of the function or method. -/
def name : PathCall → String
  | readTable .csv => "pd.read_csv"
  | readTable .json => "pd.read_json"
  | readTable .excel => "pd.read_excel"
  | readTable .pickle => "pd.read_pickle"
  | writeTable _ .csv => ".to_csv"
  | writeTable _ .json => ".to_json"
  | writeTable _ .excel => ".to_excel"
  | writeTable _ .pickle => ".to_pickle"
  | connect => "sqlite3.connect"
  | readText => "Path"
  | writeText => "Path"

/-- What stands before the name. -/
def receiver : PathCall → List Char
  | writeTable table _ => table.val
  | _ => []

/-- What stands behind the path. -/
def ending : PathCall → String
  | readText => ").read_text()"
  | writeText => ").write_text()"
  | _ => ")"

/-- The mode in which the call opens the file. -/
def mode : PathCall → String
  | readTable .pickle => "rb"
  | writeTable _ .pickle => "wb"
  | readTable _ => "r"
  | writeTable _ _ => "w"
  | connect => "rw"
  | readText => "r"
  | writeText => "w"

/-- What stands before the parenthesis. -/
def callee (c : PathCall) : List Char := c.receiver ++ c.name.toList

/-- The call with a path in quotation marks. -/
def text (c : PathCall) (q : Mark) (p : List Char) : List Char :=
  c.callee ++ '(' :: (q.quoted p ++ c.ending.toList)

/-- The names of functions and methods of tables. -/
def tableNames : List String :=
  ["pd.read_csv", "pd.read_json", "pd.read_excel", "pd.read_pickle", ".to_csv", ".to_json",
   ".to_excel", ".to_pickle"]

/-- The call is one of a table. -/
def IsOfTable (c : PathCall) : Prop := c.name ∈ tableNames

instance (c : PathCall) : Decidable c.IsOfTable := inferInstanceAs (Decidable (c.name ∈ tableNames))

def endings : List String := [")", ").read_text()", ").write_text()"]

variable (c : PathCall)

theorem name_mem : c.name ∈ tableNames ++ ["sqlite3.connect", "Path"] := by
  cases c with
  | readTable format => cases format <;> simp [name, tableNames]
  | writeTable table format => cases format <;> simp [name, tableNames]
  | _ => simp [name]

theorem ending_mem : c.ending ∈ endings := by
  cases c <;> simp [ending, endings]

/-- A name begins with a character that does not stand before it. -/
theorem exists_mem_head?_name : ∃ x t, c.name.toList = x :: t ∧ x ∉ c.receiver := by
  cases c with
  | writeTable table format =>
    have hdot : '.' ∉ table.val := fun hmem => absurd (table.property _ hmem) (by decide)
    cases format <;> exact ⟨'.', _, by rw [name]; rfl, hdot⟩
  | readTable format => cases format <;> exact ⟨'p', _, rfl, List.not_mem_nil⟩
  | _ => exact ⟨_, _, rfl, List.not_mem_nil⟩

/-- Word characters and dots stand before the parenthesis. -/
theorem isWordOr_of_mem_callee : ∀ x ∈ c.callee, isWordOr '.' x = true := by
  have hnames : ∀ name ∈ tableNames ++ ["sqlite3.connect", "Path"],
      name.toList.all (isWordOr '.') = true := by
    decide +kernel
  refine List.forall_mem_append.mpr ⟨?_, List.all_eq_true.mp (hnames _ c.name_mem)⟩
  cases c with
  | writeTable table format =>
    intro x hx
    rw [isWordOr, table.property x hx, Bool.true_or]
  | _ => exact List.forall_mem_nil _

theorem notMem_callee {x : Char} (hx : isWordOr '.' x = false) : x ∉ c.callee := by
  intro hmem
  rw [c.isWordOr_of_mem_callee x hmem] at hx
  cases hx

theorem isFree_callee : Mark.IsFree c.callee :=
  isFree_of_isWordOr (by decide) c.isWordOr_of_mem_callee

theorem isFree_ending : Mark.IsFree c.ending.toList := by
  have hall : ∀ e ∈ endings, Mark.IsFree e.toList := by decide +kernel
  exact hall _ c.ending_mem

variable {c} {q : Mark} {p : List Char}

/-- The marks and what stands around them. -/
theorem text_eq : c.text q p =
    (c.callee ++ ['(']) ++ q.val :: (p ++ q.val :: c.ending.toList) := by
  simp [text, Mark.quoted]

/-- A part without marks stands before the marks, between them, or behind them. -/
theorem infix_of_isFree {a s b : List Char} (hs : Mark.IsFree s)
    (h : a ++ (s ++ b) = c.text q p) :
    s <:+: c.callee ++ ['('] ∨ s <:+: p ∨ s <:+: c.ending.toList := by
  rw [text_eq] at h
  rcases infix_or_infix_of_append_cons (hs.not_mem q) h with h | ⟨a, b, h⟩
  · exact .inl h
  · rw [List.append_assoc] at h
    exact .inr (infix_or_infix_of_append_cons (hs.not_mem q) h)

end PathCall

/-! ## What is read -/

namespace Usage

/-- The path of a symbol is not much longer than the symbol. -/
theorem length_placeholder_le (symbol : String) (marker : Option String) :
    (placeholder symbol marker).length ≤
      symbol.length + 2 + marker.elim 0 fun s => s.length + 1 := by
  have htrim : (Text.trimmed symbol).length ≤ symbol.length := by
    obtain ⟨b, e, hcs, -⟩ := Text.exists_stripBy_eq Text.isBlank symbol.toList
    have hlength := congrArg List.length hcs
    simp only [List.length_append, String.length_toList] at hlength
    change (String.ofList (Text.stripBy _ _)).length ≤ _
    rw [String.length_ofList]
    omega
  cases marker with
  | none =>
    simp only [placeholder, String.length_append, Option.elim]
    change 1 + _ + 1 ≤ _
    omega
  | some s =>
    rw [placeholder, Option.elim]
    split
    · simp only [String.length_append]
      change 1 + _ + 1 ≤ _
      omega
    · simp only [String.length_append]
      change 1 + _ + 1 + _ + 1 ≤ _
      omega

end Usage

/-- What stands around the text of a match. -/
theorem Match.StandsIn.exists_append_eq {m : Match} {source : List Char} (h : m.StandsIn source) :
    ∃ a b, a ++ (m.text ++ b) = source := by
  obtain ⟨b, hb⟩ := h.text_prefix
  refine ⟨m.start.before.reverse, b, ?_⟩
  rw [hb, ← h.text_start]
  rfl

namespace PathCall

variable {c : PathCall} {q : Mark} {p : List Char} {m : Match}

/-- **A symbol is not the path** of a call. -/
theorem placeholder_ne {front mid t z : List Char} {name : String} {marker : Option String}
    (hm : m.StandsIn (c.text q p)) (hname : name ∈ symbolCalls)
    (htext : m.text = front ++ (name.toList ++ (mid ++ (t ++ z)))) (hmid : Builtin.IsOpening mid)
    (ht : Mark.IsFree t) (hne : t ≠ [])
    (hmarker : (marker.elim 0 fun s => s.length + 1) + 2 ≤ name.length) :
    Usage.placeholder (String.ofList t) marker ≠ String.ofList p := by
  obtain ⟨hopen, hmid⟩ := hmid
  have hs : Mark.IsFree (name.toList ++ (mid ++ t)) :=
    List.forall_mem_append.mpr ⟨isFree_of_mem_calls (.inl hname),
      List.forall_mem_append.mpr ⟨hmid, ht⟩⟩
  obtain ⟨a, b, hsource⟩ := hm.exists_append_eq
  have hparts : (a ++ front) ++ ((name.toList ++ (mid ++ t)) ++ (z ++ b)) = c.text q p := by
    rw [← hsource, htext]
    simp
  rcases infix_of_isFree hs hparts with ⟨a, b, h⟩ | hinfix | hinfix
  · -- Only the name of the call stands before a parenthesis in front of the marks.
    have hbegins : a ++ (name.toList ++ mid) <+: c.callee :=
      prefix_of_append_eq_concat (b := t ++ b) (by simp [hne]) (by rw [← h]; simp)
    have hmem : '(' ∈ a ++ (name.toList ++ mid) := by simp [hopen]
    exact absurd (hbegins.subset hmem) (c.notMem_callee (by decide))
  · -- The path is longer than what is read.
    intro hpath
    have hlength := Usage.length_placeholder_le (String.ofList t) marker
    have hmidLength := List.length_pos_of_mem hopen
    have hinfixLength := hinfix.length_le
    rw [hpath] at hlength
    rw [String.length_ofList, String.length_ofList] at hlength
    simp only [List.length_append, String.length_toList] at hinfixLength
    omega
  · have hnone : ∀ name ∈ symbolCalls, ∀ e ∈ endings, ¬ name.toList <:+: e.toList := by
      decide +kernel
    have hbegins : name.toList <+: name.toList ++ (mid ++ t) := List.prefix_append _ _
    exact absurd (hbegins.isInfix.trans hinfix) (hnone name hname _ c.ending_mem)

/-- The only text between marks is the path, and the name before it is the end of what stands
before the parenthesis. -/
theorem eq_of_quoted {front cs z : List Char} {name : String} {b b' : Blanks} {t : TextPrefix}
    {q' : Mark} (hp : Mark.IsFree p) (hm : m.StandsIn (c.text q p))
    (htext : m.text =
      front ++ (name.toList ++ (b.val ++ '(' :: (b'.val ++ (t.val ++ (q'.quoted cs ++ z))))))
    (hfront : Mark.IsFree (front ++ name.toList)) (hcs : Mark.IsFree cs) :
    cs = p ∧ name.toList <:+ c.callee := by
  obtain ⟨a, rest, hsource⟩ := hm.exists_append_eq
  have hparts : a ++ (front ++ name.toList ++ (b.val ++ '(' :: (b'.val ++ t.val))) ++
        q'.val :: (cs ++ q'.val :: (z ++ rest)) =
      (c.callee ++ ['(']) ++ q.val :: (p ++ q.val :: c.ending.toList) := by
    rw [← text_eq, ← hsource, htext]
    simp [Mark.quoted]
  have hparen : Mark.IsFree ['('] := by decide
  have hhead : Mark.IsFree (c.callee ++ ['(']) :=
    List.forall_mem_append.mpr ⟨c.isFree_callee, hparen⟩
  have hbefore : Mark.IsFree (front ++ name.toList ++ (b.val ++ '(' :: (b'.val ++ t.val))) :=
    List.forall_mem_append.mpr ⟨hfront, List.forall_mem_append.mpr ⟨b.isFree,
      List.forall_mem_cons.mpr ⟨by decide, List.forall_mem_append.mpr ⟨b'.isFree, t.isFree⟩⟩⟩⟩
  -- There are two marks only, so there is none in front of these.
  have ha : Mark.IsFree a := by
    have hcount := congrArg Mark.count hparts
    simp only [Mark.count_append, Mark.count_cons, hhead.count_eq, hbefore.count_eq, hp.count_eq,
      hcs.count_eq, c.isFree_ending.count_eq] at hcount
    exact Mark.isFree_iff_count_eq.mpr (by omega)
  obtain ⟨hcallee, rfl, hbehind⟩ :=
    Mark.append_cons_inj (List.forall_mem_append.mpr ⟨ha, hbefore⟩) hhead hparts
  obtain ⟨rfl, -, -⟩ := Mark.append_cons_inj hcs hp hbehind
  refine ⟨rfl, ?_⟩
  have hcallee : (a ++ (front ++ (name.toList ++ (b.val ++ ['('])))) ++ (b'.val ++ t.val) =
      c.callee ++ ['('] := by
    rw [← hcallee]
    simp
  have hnil : b'.val ++ t.val = [] := by
    by_contra hne
    have hmem := (prefix_of_append_eq_concat hne hcallee).subset (a := '(') (by simp)
    exact c.notMem_callee (by decide) hmem
  rw [hnil, List.append_nil] at hcallee
  have hcallee : (a ++ (front ++ (name.toList ++ b.val))) ++ ['('] = c.callee ++ ['('] := by
    rw [← hcallee]
    simp
  have hcallee := List.append_cancel_right hcallee
  have hblanks : b.val = [] := by
    refine List.eq_nil_iff_forall_not_mem.mpr fun x hx => ?_
    have hmem : x ∈ c.callee := by
      rw [← hcallee]
      simp [hx]
    have hblank := b.property x hx
    rcases (Bool.or_eq_true _ _).mp (c.isWordOr_of_mem_callee x hmem) with hword | hdot
    · rw [isBlank_of_isWord hword] at hblank
      cases hblank
    · obtain rfl := eq_of_beq hdot
      cases hblank
  rw [hblanks, List.append_nil] at hcallee
  exact ⟨a ++ front, by rw [← hcallee, List.append_assoc]⟩

theorem mode_ne (c : PathCall) : ¬ (c.mode = "arg" ∨ c.mode = "env") := by
  cases c with
  | readTable format => cases format <;> simp [mode]
  | writeTable table format => cases format <;> simp [mode]
  | _ => simp [mode]

/-- **What has the path and the mode of the call** is no symbol, and if the call is one of a table
there is no comma and no closing parenthesis in the path. -/
theorem of_reading {x : Extraction} (hp : Mark.IsFree p) (hm : m.StandsIn (c.text q p))
    (h : Reading m x) (hpath : x.path = String.ofList p) (hmode : x.mode = c.mode) :
    x.isSymbolic = false ∧ (c.IsOfTable → ',' ∉ p ∧ ')' ∉ p) := by
  cases h with
  | symbol front name z marker hname htext hmid ht hne hmarker hsymbol =>
    rw [hsymbol] at hpath
    exact absurd hpath (placeholder_ne hm hname htext hmid ht hne hmarker)
  | quoted front name htext hfront hcs hname hsymbolic =>
    obtain ⟨rfl, hsuffix⟩ := eq_of_quoted hp hm htext hfront hcs
    refine ⟨hsymbolic, fun htable => hname.resolve_left fun hname => ?_⟩
    -- No name of a call that takes all paths ends like the name of a call of a table.
    have hnone : ∀ n ∈ tableNames, ∀ l ∈ literalCalls,
        ¬ l.toList <:+ n.toList ∧ ¬ n.toList <:+ l.toList := by
      decide +kernel
    obtain ⟨hl, hn⟩ := hnone _ htable _ hname
    rcases List.suffix_or_suffix_of_suffix hsuffix (List.suffix_append c.receiver _) with h | h
    · exact hl h
    · exact hn h
  | outside hout => exact absurd (hmode ▸ hout) c.mode_ne

/-! ## What is found -/

/-- Behind the name of a call its path is read in one way. -/
theorem path_inj {b b' : Blanks} {t : TextPrefix} {q' : Option Mark} {cs r r' : List Char}
    (hp : Mark.IsFree p) (hcs : Mark.IsFree cs) (hne : cs ≠ []) (ht : q' = none → t.val = [])
    (h : b.val ++ '(' :: (b'.val ++ (t.val ++ (Mark.around q' cs ++ r))) =
      '(' :: (q.quoted p ++ r')) : q' = some q ∧ cs = p := by
  have hparen : Mark.IsFree ['('] := by decide
  have hblanks : Mark.IsFree (b.val ++ '(' :: b'.val) :=
    (Builtin.isOpening_blanks b b').2
  cases q' with
  | none =>
    -- Without a mark there are two characters before the first mark.
    have hfree : Mark.IsFree ((b.val ++ '(' :: b'.val) ++ cs) :=
      List.forall_mem_append.mpr ⟨hblanks, hcs⟩
    have hbegins : (b.val ++ '(' :: b'.val) ++ cs <+: ['('] := by
      have hmarks :
          ((b.val ++ '(' :: b'.val) ++ cs) ++ r = ['('] ++ q.val :: (p ++ q.val :: r') := by
        simpa [Mark.around, Mark.quoted_append, ht rfl] using h
      exact prefix_of_append_eq hmarks (hfree.not_mem q)
    have hlength := hbegins.length_le
    have hpos := List.length_pos_iff.mpr hne
    simp only [List.length_append, List.length_cons, List.length_nil] at hlength
    omega
  | some q' =>
    have hfree : Mark.IsFree ((b.val ++ '(' :: b'.val) ++ t.val) :=
      List.forall_mem_append.mpr ⟨hblanks, t.isFree⟩
    have hmarks : ((b.val ++ '(' :: b'.val) ++ t.val) ++ q'.val :: (cs ++ q'.val :: r) =
        ['('] ++ q.val :: (p ++ q.val :: r') := by
      simpa [Mark.around, Mark.quoted_append] using h
    obtain ⟨-, rfl, hbehind⟩ := Mark.append_cons_inj hfree hparen hmarks
    exact ⟨rfl, (Mark.append_cons_inj hcs hp hbehind).1⟩

/-- Behind the name of a table the path is the first argument. -/
theorem texts_of_spells_firstPath {name : String} {before w rest r' : List Char} {e : Texts}
    (hp : Mark.IsFree p) (hspells : Spells (Builtin.firstPath name) Texts.none before w rest e)
    (h : w ++ rest = name.toList ++ '(' :: (q.quoted p ++ r')) : e = pathTexts (some q) p := by
  obtain ⟨b, b', t, q', cs, rfl, ht, hne, hcs, rfl⟩ := Builtin.spells_firstPath.mp hspells
  have hfree : Mark.IsFree cs := by
    intro x hx
    have hnot := hcs x hx
    simp only [List.mem_cons, List.not_mem_nil, or_false, not_or] at hnot
    exact ⟨hnot.1, hnot.2.1⟩
  have hsame : name.toList ++ (b.val ++ '(' :: (b'.val ++ (t.val ++
      (Mark.around q' cs ++ rest)))) = name.toList ++ '(' :: (q.quoted p ++ r') := by
    simpa using h
  obtain ⟨rfl, rfl⟩ := path_inj hp hfree hne ht (List.append_cancel_left hsame)
  rfl

/-- Behind the name of another call the path stands between the first marks. -/
theorem exists_spells_of_quotedCall {name : String} {rs : List Regex}
    {before w rest r' : List Char} {e : Texts} (hp : Mark.IsFree p)
    (hspells : Spells (sequence (literal name :: Builtin.callOpening :: Builtin.quotedPath :: rs))
      Texts.none before w rest e)
    (h : w ++ rest = name.toList ++ '(' :: (q.quoted p ++ r')) :
    ∃ e' before' tail, e' Slot.path.group = some p ∧
      Spells (sequence rs) e' before' tail rest e := by
  obtain ⟨b, b', q', cs, tail, rfl, hne, hcs, htail⟩ := Builtin.spells_quotedCall.mp hspells
  let none : TextPrefix := ⟨[], by simp⟩
  have hsame : name.toList ++ (b.val ++ '(' :: (b'.val ++ (none.val ++
      (Mark.around (some q') cs ++ (tail ++ rest))))) =
      name.toList ++ '(' :: (q.quoted p ++ r') := by
    simpa [none, Mark.around] using h
  obtain ⟨-, rfl⟩ := path_inj hp (fun x hx => (hcs x hx).1) hne (fun _ => rfl)
    (List.append_cancel_left hsame)
  exact ⟨_, _, tail, Function.update_self _ _ _, htail⟩

/-- The call is matched by an expression that spells it from its name on, and the match begins
there. -/
theorem exists_mem_findAll {r : Regex} {w rest : List Char} {e : Texts}
    (hr : r.isStraight = true)
    (hname : ∀ before w rest e, Spells r Texts.none before w rest e → c.name.toList <+: w)
    (hw : Spells r Texts.none c.receiver.reverse w rest e)
    (htext : w ++ rest = c.name.toList ++ '(' :: (q.quoted p ++ c.ending.toList)) :
    ∃ m ∈ findAll r (c.text q p), ∃ rest' e',
      Spells r Texts.none m.start.before m.text rest' e' ∧ (∀ n ≠ 0, m.group? n = e' n) ∧
        m.text ++ rest' = c.name.toList ++ '(' :: (q.quoted p ++ c.ending.toList) := by
  obtain ⟨x, t, hx, hnot⟩ := c.exists_mem_head?_name
  obtain ⟨m, hm, hstart⟩ := exists_mem_head?_findAll c.receiver hr (fun before w rest e h => by
    obtain ⟨v, rfl⟩ := hname before w rest e h
    exact ⟨x, by rw [hx]; rfl, hnot⟩) hw
  have hsource : c.receiver ++ (w ++ rest) = c.text q p := by
    rw [htext, text, callee, List.append_assoc]
  rw [hsource] at hm
  have hmem := List.mem_of_mem_head? hm
  obtain ⟨rest', e', hafter, hspells, hgroups⟩ := exists_spells_of_mem_findAll hr hmem
  refine ⟨m, hmem, rest', e', hspells, hgroups, ?_⟩
  rw [← hafter, hstart, htext]

/-- The path and the mode of the call are read from a match. -/
def IsRead (c : PathCall) (q : Mark) (p : List Char) : Prop :=
  ∃ r ∈ Rules.builtin, ∃ m ∈ r.pattern.body.findAll (c.text q p), ∃ x,
    r.extractor.extract m = .ok x ∧ x.path = String.ofList p ∧ x.mode = c.mode

open Rules in
/-- The rules of tables. -/
theorem exists_rule_of_isOfTable (h : c.IsOfTable) :
    ∃ r ∈ builtin, r.pattern.body = Builtin.firstPath c.name ∧
      ∃ method format, r.extractor = .pathCall c.mode method format := by
  cases c with
  | readTable format =>
    cases format with
    | csv => exact ⟨builtin[3], List.getElem_mem _, rfl, _, _, rfl⟩
    | json => exact ⟨builtin[5], List.getElem_mem _, rfl, _, _, rfl⟩
    | excel => exact ⟨builtin[7], List.getElem_mem _, rfl, _, _, rfl⟩
    | pickle => exact ⟨builtin[9], List.getElem_mem _, rfl, _, _, rfl⟩
  | writeTable table format =>
    cases format with
    | csv => exact ⟨builtin[4], List.getElem_mem _, rfl, _, _, rfl⟩
    | json => exact ⟨builtin[6], List.getElem_mem _, rfl, _, _, rfl⟩
    | excel => exact ⟨builtin[8], List.getElem_mem _, rfl, _, _, rfl⟩
    | pickle => exact ⟨builtin[10], List.getElem_mem _, rfl, _, _, rfl⟩
  | _ => exact absurd h (by decide)

theorem isStraight_firstPath (call : String) (h : call ∈ tableNames) :
    (Builtin.firstPath call).isStraight = true := by
  revert call
  decide +kernel

theorem isRead_of_isOfTable (p : LiteralPath) (h : c.IsOfTable) (hp : ',' ∉ p.val ∧ ')' ∉ p.val) :
    c.IsRead q p.val := by
  obtain ⟨hne, hstripped, hfree, hlf⟩ := p.property
  obtain ⟨r, hr, hbody, method, format, hextractor⟩ := exists_rule_of_isOfTable h
  have hstraight := isStraight_firstPath c.name h
  have hset : ∀ x ∈ p.val, x ∉ ['\'', '"', '\n', ',', ')'] := by
    intro x hx
    have hmark := hfree x hx
    simp only [List.mem_cons, List.not_mem_nil, or_false, not_or]
    exact ⟨hmark.1, hmark.2, ne_of_mem_of_not_mem hx hlf, ne_of_mem_of_not_mem hx hp.1,
      ne_of_mem_of_not_mem hx hp.2⟩
  have hw : Spells (Builtin.firstPath c.name) Texts.none c.receiver.reverse
      (c.name.toList ++ '(' :: q.quoted p.val) c.ending.toList (pathTexts (some q) p.val) :=
    Builtin.spells_firstPath.mpr ⟨⟨[], by simp⟩, ⟨[], by simp⟩, ⟨[], by simp⟩, some q, p.val,
      rfl, nofun, hne, hset, rfl⟩
  have hname : ∀ before w rest e, Spells (Builtin.firstPath c.name) Texts.none before w rest e →
      c.name.toList <+: w := by
    intro before w rest e h
    obtain ⟨b, b', t, q, cs, rfl, -⟩ := Builtin.spells_firstPath.mp h
    exact List.prefix_append _ _
  have htext : (c.name.toList ++ '(' :: q.quoted p.val) ++ c.ending.toList =
      c.name.toList ++ '(' :: (q.quoted p.val ++ c.ending.toList) := by
    simp
  obtain ⟨m, hm, rest, e, hspells, hgroups, hcall⟩ := exists_mem_findAll hstraight hname hw htext
  obtain rfl := texts_of_spells_firstPath hfree hspells hcall
  refine ⟨r, hr, m, hbody ▸ hm, _, hextractor ▸ Reading.extract_pathCall hgroups, ?_, rfl⟩
  change Text.trimmed (String.ofList p.val) = _
  rw [Text.trimmed, String.toList_ofList]
  exact congrArg String.ofList (Text.stripBy_of_isStripped hstripped)

/-- What stands behind the path of a call. -/
structure IsBehind (rs : List Regex) (ending : List Char) : Prop where
  exists_spells : ∃ w rest, ending = w ++ rest ∧
    ∀ e before, Spells (sequence rs) e before w rest e
  /-- Nothing is captured. -/
  texts_eq : ∀ e before w rest e', Spells (sequence rs) e before w rest e' → e' = e

theorem isBehind_nil (ending : List Char) : IsBehind [] ending :=
  ⟨⟨[], ending, rfl, fun _ _ => spells_sequence_nil.mpr ⟨rfl, rfl⟩⟩,
    fun _ _ _ _ _ h => (spells_sequence_nil.mp h).2⟩

open Builtin in
theorem isBehind_methodCall (name : String) :
    IsBehind [blanks, literal ")", literal name, blanks, char '(']
      (')' :: (name.toList ++ ['(', ')'])) := by
  refine ⟨⟨')' :: (name.toList ++ ['(']), [')'], by simp, fun e before => ?_⟩,
    fun _ _ _ _ _ h => (spells_methodCall.mp h).2⟩
  exact spells_methodCall.mpr ⟨⟨⟨[], by simp⟩, ⟨[], by simp⟩, rfl⟩, rfl⟩

open Rules in
/-- The other rules take all quoted paths, and what stands behind the path. -/
theorem exists_rule_of_not_isOfTable (h : ¬ c.IsOfTable) :
    ∃ r ∈ builtin, ∃ rs : List Regex, r.pattern.body =
        sequence (literal c.name :: Builtin.callOpening :: Builtin.quotedPath :: rs) ∧
      r.pattern.body.isStraight = true ∧ IsBehind rs c.ending.toList ∧
      ∃ method format, r.extractor = .literalCall c.mode method format := by
  cases c with
  | connect =>
    exact ⟨builtin[21], List.getElem_mem _, _, rfl, by decide, isBehind_nil _, _, _, rfl⟩
  | readText =>
    exact ⟨builtin[22], List.getElem_mem _, _, rfl, by decide, isBehind_methodCall ".read_text", _,
      _, rfl⟩
  | writeText =>
    exact ⟨builtin[23], List.getElem_mem _, _, rfl, by decide, isBehind_methodCall ".write_text", _,
      _, rfl⟩
  | readTable format => cases format <;> exact absurd (by decide) h
  | writeTable table format =>
    have hof : IsOfTable (.writeTable table format) := by
      cases format <;> simp [IsOfTable, name, tableNames]
    exact absurd hof h

theorem isRead_of_not_isOfTable (p : LiteralPath) (h : ¬ c.IsOfTable) : c.IsRead q p.val := by
  obtain ⟨hne, -, hfree, hlf⟩ := p.property
  obtain ⟨r, hr, rs, hbody, hstraight, hrs, method, format, hextractor⟩ :=
    exists_rule_of_not_isOfTable h
  obtain ⟨w, rest, hending, hbehind⟩ := hrs.exists_spells
  have hset : ∀ x ∈ p.val, (x ≠ '\'' ∧ x ≠ '"') ∧ x ≠ '\n' :=
    fun x hx => ⟨hfree x hx, ne_of_mem_of_not_mem hx hlf⟩
  have hw : Spells r.pattern.body Texts.none c.receiver.reverse
      (c.name.toList ++ '(' :: (q.quoted p.val ++ w)) rest (pathTexts (some q) p.val) :=
    hbody ▸ Builtin.spells_quotedCall.mpr ⟨⟨[], by simp⟩, ⟨[], by simp⟩, q, p.val, w, rfl, hne,
      hset, hbehind _ _⟩
  have hname : ∀ before w rest e, Spells r.pattern.body Texts.none before w rest e →
      c.name.toList <+: w := by
    intro before w rest e h
    rw [hbody] at h
    obtain ⟨b, b', q, cs, tail, rfl, -⟩ := Builtin.spells_quotedCall.mp h
    exact List.prefix_append _ _
  have htext : (c.name.toList ++ '(' :: (q.quoted p.val ++ w)) ++ rest =
      c.name.toList ++ '(' :: (q.quoted p.val ++ c.ending.toList) := by
    simp [hending]
  obtain ⟨m, hm, rest', e, hspells, hgroups, hcall⟩ := exists_mem_findAll hstraight hname hw htext
  rw [hbody] at hspells
  obtain ⟨e', before', tail, hgroup, hmethod⟩ := exists_spells_of_quotedCall hfree hspells hcall
  have hpath : m.group? Slot.path.group = some p.val := by
    rw [hgroups _ (by decide), hrs.texts_eq _ _ _ _ _ hmethod, hgroup]
  refine ⟨r, hr, m, hm, ⟨String.ofList p.val, c.mode, method, .text format, "default", false⟩, ?_,
    rfl, rfl⟩
  rw [hextractor, Extractor.extract, Extractor.required_eq hpath]
  rfl

end PathCall

/-! ## When the path is a usage -/

namespace Rules

/-- **The path of a call is found as it is written**, with the mode of the call and as no symbol,
just when the call is not one of a table or there is no comma and no closing parenthesis in the
path. -/
theorem analyze_pathCall (c : PathCall) (q : Mark) (p : LiteralPath) (name : Option String) :
    ∃ a, (builtin.analyze (c.text q p.val) name).result = .ok a ∧
      ((∃ u ∈ a.usages, u.path = String.ofList p.val ∧ u.mode = c.mode ∧
          u.isSymbolic = false) ↔
        (c.IsOfTable → ',' ∉ p.val ∧ ')' ∉ p.val)) := by
  obtain ⟨found, hfound, ha⟩ := exists_analyze_builtin (c.text q p.val) name
  have hread {u : Usage} (hu : u ∈ (Analysis.ofFindings (c.text q p.val) name found).usages)
      (hpath : u.path = String.ofList p.val) (hmode : u.mode = c.mode) :
      u.isSymbolic = false ∧ (c.IsOfTable → ',' ∉ p.val ∧ ')' ∉ p.val) := by
    obtain ⟨f, hf, rfl⟩ := (covers_ofFindings hfound name).sound u hu
    obtain ⟨r, hr, m, hm, hfinding⟩ := exists_of_mem_found hfound hf
    obtain ⟨x, hx, hfinding⟩ := bind_eq_ok_iff.mp hfinding
    cases hfinding
    exact PathCall.of_reading p.property.2.2.1 (standsIn_of_mem_findAll hm)
      (reading_of_mem_builtin hr hm hx) hpath hmode
  refine ⟨_, ha, ?_, fun h => ?_⟩
  · rintro ⟨u, hu, hpath, hmode, -⟩
    exact (hread hu hpath hmode).2
  · obtain ⟨r, hr, m, hm, x, hx, hpath, hmode⟩ : c.IsRead q p.val := by
      by_cases htable : c.IsOfTable
      · exact PathCall.isRead_of_isOfTable p htable (h htable)
      · exact PathCall.isRead_of_not_isOfTable p htable
    -- What is found first with that path and that mode may come from another rule.
    obtain ⟨u, hu, hidentity⟩ :=
      List.mem_map.mp (hfound.identity_mem hr hm (finding_of_extract hx) name)
    simp only [Usage.identity, Finding.usage, Prod.mk.injEq] at hidentity
    have hpath : u.path = String.ofList p.val := hidentity.1.trans hpath
    have hmode : u.mode = c.mode := hidentity.2.1.trans hmode
    exact ⟨u, hu, hpath, hmode, (hread hu hpath hmode).1⟩

/-- A table whose path has a comma in it is not found at all. -/
theorem analyze_pathCall_comma :
    (PathCall.readTable .csv).text ⟨'"', .inr rfl⟩ "a,b.csv".toList =
        "pd.read_csv(\"a,b.csv\")".toList ∧
      ∃ a, (builtin.analyze "pd.read_csv(\"a,b.csv\")".toList none).result = .ok a ∧
        a.usages = [] := by
  refine ⟨by decide +kernel, ?_⟩
  obtain ⟨found, hfound, hlength⟩ := exists_of_map_toOption_eq_some
    (x := builtin.findings "pd.read_csv(\"a,b.csv\")".toList) (g := List.length) (b := 0)
    (by decide +kernel)
  obtain rfl := List.length_eq_zero_iff.mp hlength
  refine ⟨.ofFindings "pd.read_csv(\"a,b.csv\")".toList none [], ?_,
    (Usage.perm_inLineOrder []).eq_nil⟩
  rw [result_analyze]
  change (builtin.findings _).map _ = _
  rw [hfound]
  rfl

end Rules

end Assay
