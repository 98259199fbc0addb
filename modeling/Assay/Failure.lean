import Assay.Fault

/-!
# Declared errors and faults

An operation that does not succeed either fails in a way that it declares, with an error
of its own type, or breaks off with a fault.

## Main definitions

* `Failure` — a declared error or a fault
-/

namespace Assay

/-- Why an operation gave no result: an error that it declares, or a fault. -/
inductive Failure (ε : Type) where
  | declared (e : ε)
  | fault (f : Fault)
  deriving DecidableEq, Repr

/-- What can only break off is used where there are declared errors as well. -/
instance {ε : Type} : MonadLift (Except Fault) (Except (Failure ε)) :=
  ⟨fun x => x.mapError .fault⟩

namespace Failure

/-- The same failure with its declared error seen as one of another type. -/
def map {ε δ : Type} (f : ε → δ) : Failure ε → Failure δ
  | declared e => declared (f e)
  | fault f => fault f

end Failure

/-- Fail with a declared error. -/
def declare {ε α : Type} (e : ε) : Except (Failure ε) α := .error (.declared e)

end Assay
