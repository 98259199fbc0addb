import Assay.Fault

/-!
# Output

Text is put out part by part. When a part breaks off, the parts before it have been put
out already and stay.

## Main definitions

* `Output` — what was put out, and the fault that ended it
* `Output.append`, `Output.join` — one output after the other
* `Output.complete` — the whole text, if nothing broke off
-/

namespace Assay

/-- What was put out before putting out ended or broke off. -/
structure Output where
  text : String
  fault : Option Fault

namespace Output

/-- A text. -/
def ofText (s : String) : Output := ⟨s, none⟩

/-- Nothing but a fault. -/
def broken (f : Fault) : Output := ⟨"", some f⟩

/-- A text, or nothing but a fault. -/
def ofExcept : Except Fault String → Output
  | .ok s => ofText s
  | .error f => broken f

/-- One after the other, unless the first breaks off. -/
def append (a b : Output) : Output :=
  match a.fault with
  | none => ⟨a.text ++ b.text, b.fault⟩
  | some f => ⟨a.text, some f⟩

instance : Append Output := ⟨append⟩

/-- One after the other, up to the first that breaks off. -/
def join (outs : List Output) : Output := outs.foldl (· ++ ·) (ofText "")

/-- The whole text, if nothing broke off. -/
def complete (o : Output) : Except Fault String :=
  match o.fault with
  | none => .ok o.text
  | some f => .error f

end Output

end Assay
