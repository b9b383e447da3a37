import GarbageOS.Lib.Exec
import Mathlib.Logic.Relation

/-!
# Runs

What every step keeps, every run keeps; and the outcome of code as data, so that
a run on a concrete state can be evaluated.
-/

namespace GarbageOS.Lib

variable {ε σ α : Type}

theorem invariant_of_steps {Step : σ → σ → Prop} {Inv : σ → Prop}
    (hstep : ∀ s t, Step s t → Inv s → Inv t) {s t : σ} (hrun : Relation.ReflTransGen Step s t)
    (hs : Inv s) : Inv t := by
  induction hrun with
  | refl => exact hs
  | tail _ h ih => exact hstep _ _ h ih

def returned : EStateM.Result ε σ α → Option α
  | .ok a _ => some a
  | .error _ _ => none

def stopped : EStateM.Result ε σ α → Option ε
  | .ok _ _ => none
  | .error e _ => some e

def finalState : EStateM.Result ε σ α → σ
  | .ok _ s => s
  | .error _ s => s

theorem eq_of_returned {r : EStateM.Result ε σ α} {a : α} (h : returned r = some a) :
    r = .ok a (finalState r) := by
  cases r with
  | ok b s => cases h; rfl
  | error e s => cases h

theorem run_eq_of_stopped {r : EStateM.Result ε σ α} {e : ε} (h : stopped r = some e) :
    r = .error e (finalState r) := by
  cases r with
  | ok b s => cases h
  | error e' s => cases h; rfl

end GarbageOS.Lib
