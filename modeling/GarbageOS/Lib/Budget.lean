import GarbageOS.Lib.Exec

/-!
# Code that returns on a budget

`B n s` says that the state `s` can pay for `n` units of some resource. `Within B c x`:
`x` returns from every state that can pay for `c` units and more, and leaves a state that
can pay for what is left of them. The rules follow the shape of the code.
-/

namespace GarbageOS.Lib

variable {ε σ α β : Type} {B : Nat → σ → Prop} {c d : Nat}

def Within (B : Nat → σ → Prop) (c : Nat) (x : EStateM ε σ α) : Prop :=
  ∀ ⦃n s⦄, B (c + n) s → ∃ a s', x.run s = .ok a s' ∧ B n s'

def Affords (B : Nat → σ → Prop) : Prop := ∀ ⦃n s⦄, B (n + 1) s → B n s

theorem Affords.le (hB : Affords B) {n m : Nat} {s : σ} (h : B n s) (hle : m ≤ n) : B m s := by
  induction hle with
  | refl => exact h
  | step _ ih => exact ih (hB h)

theorem Within.returns {x : EStateM ε σ α} {s : σ} (h : Within B c x) (hs : B c s) :
    ∃ a s', x.run s = .ok a s' := by
  obtain ⟨a, s', hrun, -⟩ := h (n := 0) hs
  exact ⟨a, s', hrun⟩

theorem Within.pure (a : α) : Within B 0 (pure a : EStateM ε σ α) := by
  intro n s h
  rw [Nat.zero_add] at h
  exact ⟨a, s, EStateM.run_pure a s, h⟩

theorem Within.get : Within B 0 (get : EStateM ε σ σ) := by
  intro n s h
  rw [Nat.zero_add] at h
  exact ⟨s, s, EStateM.run_get s, h⟩

theorem Within.modify {f : σ → σ} (hf : ∀ n s, B n s → B n (f s)) :
    Within B 0 (modify f : EStateM ε σ PUnit) := by
  intro n s h
  rw [Nat.zero_add] at h
  exact ⟨⟨⟩, f s, EStateM.run_modify f s, hf n s h⟩

theorem Within.bind {x : EStateM ε σ α} {f : α → EStateM ε σ β} (hx : Within B c x)
    (hf : ∀ a, Within B d (f a)) : Within B (c + d) (x >>= f) := by
  intro n s h
  rw [Nat.add_assoc] at h
  obtain ⟨a, t, ha, ht⟩ := hx h
  obtain ⟨b, s', hb, hs'⟩ := hf a ht
  exact ⟨b, s', run_bind_ok.2 ⟨a, t, ha, hb⟩, hs'⟩

theorem Within.mono {x : EStateM ε σ α} (hx : Within B c x) (hB : Affords B) (hle : c ≤ d) :
    Within B d x := fun _ _ h => hx (hB.le h (Nat.add_le_add_right hle _))

theorem Within.onlyIf {p : Prop} [Decidable p] {x : EStateM ε σ Unit} (hx : Within B c x)
    (hB : Affords B) : Within B c (onlyIf p x) := by
  unfold Lib.onlyIf
  split
  · exact hx
  · exact (Within.pure ()).mono hB (Nat.zero_le c)

theorem Within.forRange {f : Nat → EStateM ε σ Unit} (hf : ∀ i, Within B c (f i)) :
    ∀ count start, Within B (count * c) (forRange f count start)
  | 0, _ => by
    rw [Nat.zero_mul]
    exact .pure ()
  | count + 1, start => by
    rw [Nat.add_mul, Nat.one_mul, Nat.add_comm]
    exact Within.bind (hf start) fun _ => Within.forRange hf count (start + 1)

end GarbageOS.Lib
