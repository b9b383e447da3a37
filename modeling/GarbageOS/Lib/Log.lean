import GarbageOS.Lib.Effect

/-!
# What code puts on a log

A log is a list in the state whose latest entry comes first. `Emits log x out`:
every returning run of `x` puts `out` on it, in this order. The rules follow the
shape of the code; a loop emits what its rounds emit, one after another.
-/

namespace GarbageOS.Lib

variable {ε σ α β γ : Type} {log : σ → List γ}

def Emits (log : σ → List γ) (x : EStateM ε σ α) (out : List γ) : Prop :=
  ∀ ⦃s a s'⦄, x.run s = .ok a s' → log s' = out.reverse ++ log s

/-- Nothing is put on the log. -/
def SameLog (log : σ → List γ) (s s' : σ) : Prop := log s' = log s

instance : IsPreorder σ (SameLog log) where
  refl _ := rfl
  trans _ _ _ h₁ h₂ := h₂.trans h₁

theorem Emits.silent {x : EStateM ε σ α} [hx : Kept (SameLog log) x] : Emits log x [] :=
  fun _ _ _ h => hx.keeps h

theorem Emits.modify {f : σ → σ} {out : List γ} (h : ∀ s, log (f s) = out.reverse ++ log s) :
    Emits log (modify f : EStateM ε σ PUnit) out := by
  intro s a s' hr
  rw [EStateM.run_modify] at hr
  cases hr
  exact h s

theorem Emits.bind {x : EStateM ε σ α} {f : α → EStateM ε σ β} {out out' : List γ}
    (hx : Emits log x out) (hf : ∀ a, Emits log (f a) out') : Emits log (x >>= f) (out ++ out') := by
  intro s b s' h
  obtain ⟨a, t, h1, h2⟩ := run_bind_ok.1 h
  rw [hf a h2, hx h1, List.reverse_append, List.append_assoc]

theorem Emits.forRange {f : Nat → EStateM ε σ Unit} {g : Nat → γ}
    (hf : ∀ i, Emits log (f i) [g i]) :
    ∀ count start, Emits log (forRange f count start) ((List.range' start count).map g)
  | 0, _ => Emits.silent (x := pure ())
  | count + 1, start => by
    rw [List.range'_succ, List.map_cons]
    exact Emits.bind (hf start) fun _ => Emits.forRange hf count (start + 1)

end GarbageOS.Lib
