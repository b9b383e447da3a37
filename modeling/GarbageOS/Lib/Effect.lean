import GarbageOS.Lib.Exec
import Mathlib.Order.Defs.Unbundled

/-!
# What code may change

`Keeps R x`: every returning run of `x` relates its first state to its last by
`R`. For a preorder `R` the rules follow the shape of the code, so that "only
these fields change" is proved for a function from the same fact about the
functions it calls. `Kept` is the same as a class: the search for an instance goes
through the code, and asks for the functions that it calls and has no rule for.
-/

namespace GarbageOS.Lib

variable {ε σ τ α β : Type} {R : σ → σ → Prop}

def Keeps (R : σ → σ → Prop) (x : EStateM ε σ α) : Prop :=
  ∀ ⦃s a s'⦄, x.run s = .ok a s' → R s s'

theorem Keeps.mono {S : σ → σ → Prop} {x : EStateM ε σ α} (h : Keeps R x)
    (hRS : ∀ s s', R s s' → S s s') : Keeps S x :=
  fun _ _ _ hr => hRS _ _ (h hr)

theorem Keeps.throw {e : ε} : Keeps R (throw e : EStateM ε σ α) :=
  fun _ _ _ h => (run_throw_ok.1 h).elim

theorem Keeps.modify {f : σ → σ} (h : ∀ s, R s (f s)) : Keeps R (modify f : EStateM ε σ PUnit) := by
  intro s a s' hr
  rw [EStateM.run_modify] at hr
  cases hr
  exact h s

/-- Code on a part of the state, run on the whole of it. -/
theorem Keeps.zoom {get : σ → τ} {put : τ → σ → σ} {x : EStateM ε τ α} (h : ∀ t s, R s (put t s)) :
    Keeps R (zoom get put x) := by
  intro s a s' hr
  obtain ⟨t, _, rfl⟩ := run_zoom_ok.1 hr
  exact h t s

theorem Keeps.ite {c : Prop} [Decidable c] {x y : EStateM ε σ α} (hx : c → Keeps R x)
    (hy : ¬ c → Keeps R y) : Keeps R (if c then x else y) := by
  split
  · exact hx ‹c›
  · exact hy ‹¬ c›

/-- What is checked may be used for the code behind. -/
theorem Keeps.checkThen {b : Bool} {e : ε} {f : Unit → EStateM ε σ α}
    (h : b = true → Keeps R (f ())) : Keeps R (check b e >>= f) := by
  intro s a s' hr
  obtain ⟨hb, hr⟩ := run_check_bind.1 hr
  exact h hb hr

section

variable [IsPreorder σ R]

theorem Keeps.pure (a : α) : Keeps R (pure a : EStateM ε σ α) := by
  intro s b s' h
  rw [EStateM.run_pure] at h
  cases h
  exact refl_of R s

theorem Keeps.get : Keeps R (get : EStateM ε σ σ) := by
  intro s b s' h
  rw [EStateM.run_get] at h
  cases h
  exact refl_of R s

theorem Keeps.check {b : Bool} {e : ε} : Keeps R (check b e : EStateM ε σ Unit) := by
  intro s _ s' h
  obtain ⟨_, rfl⟩ := run_check_ok.1 h
  exact refl_of R s'

theorem Keeps.bind {x : EStateM ε σ α} {f : α → EStateM ε σ β} (hx : Keeps R x)
    (hf : ∀ a, Keeps R (f a)) : Keeps R (x >>= f) := by
  intro s b s' h
  obtain ⟨a, t, h1, h2⟩ := run_bind_ok.1 h
  exact trans_of R (hx h1) (hf a h2)

theorem Keeps.onlyIf {c : Prop} [Decidable c] {x : EStateM ε σ Unit} (hx : c → Keeps R x) :
    Keeps R (onlyIf c x) :=
  Keeps.ite hx fun _ => .pure ()

theorem Keeps.forRange {f : Nat → EStateM ε σ Unit} (hf : ∀ i, Keeps R (f i)) :
    ∀ count start, Keeps R (forRange f count start)
  | 0, _ => .pure ()
  | count + 1, start => .bind (hf start) fun _ => Keeps.forRange hf count (start + 1)

end

class Kept (R : σ → σ → Prop) (x : EStateM ε σ α) : Prop where
  keeps : Keeps R x

section

variable {x y : EStateM ε σ α} {f : α → EStateM ε σ β}

instance {e : ε} : Kept R (throw e : EStateM ε σ α) := ⟨.throw⟩

instance {c : Prop} [Decidable c] [hx : Kept R x] [hy : Kept R y] : Kept R (if c then x else y) :=
  ⟨.ite (fun _ => hx.keeps) fun _ => hy.keeps⟩

variable [IsPreorder σ R]

instance (a : α) : Kept R (pure a : EStateM ε σ α) := ⟨.pure a⟩

instance : Kept R (get : EStateM ε σ σ) := ⟨.get⟩

instance {b : Bool} {e : ε} : Kept R (check b e : EStateM ε σ Unit) := ⟨.check⟩

instance [hx : Kept R x] [hf : ∀ a, Kept R (f a)] : Kept R (x >>= f) :=
  ⟨.bind hx.keeps fun a => (hf a).keeps⟩

instance {c : Prop} [Decidable c] {x : EStateM ε σ Unit} [hx : Kept R x] : Kept R (onlyIf c x) :=
  ⟨.onlyIf fun _ => hx.keeps⟩

instance {f : Nat → EStateM ε σ Unit} [hf : ∀ i, Kept R (f i)] (count start : Nat) :
    Kept R (forRange f count start) :=
  ⟨.forRange (fun i => (hf i).keeps) count start⟩

end

end GarbageOS.Lib
