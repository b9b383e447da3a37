/-!
# Running stateful code that may stop

Code is an `EStateM`: it returns a value and a state, or stops with a reason
and the state it stopped in. `run_bind_ok` peels a returning run apart at its
first step; `zoom` runs code on a part of the state.
-/

namespace GarbageOS.Lib

variable {ε σ τ α β : Type}

theorem run_bind_ok {x : EStateM ε σ α} {f : α → EStateM ε σ β} {s s' : σ} {b : β} :
    (x >>= f).run s = .ok b s' ↔ ∃ a t, x.run s = .ok a t ∧ (f a).run t = .ok b s' := by
  rw [EStateM.run_bind]
  cases h : x.run s with
  | ok a t =>
    constructor
    · exact fun hf => ⟨a, t, rfl, hf⟩
    · rintro ⟨_, _, he, hf⟩; cases he; exact hf
  | error e t => simp

theorem run_throw (e : ε) (s : σ) : (throw e : EStateM ε σ α).run s = .error e s := rfl

@[simp] theorem run_throw_ok {e : ε} {s s' : σ} {a : α} :
    (throw e : EStateM ε σ α).run s = .ok a s' ↔ False := by
  simp [run_throw]

theorem run_ok_bind {x : EStateM ε σ α} {f : α → EStateM ε σ β} {s t : σ} {a : α}
    (h : x.run s = .ok a t) : (x >>= f).run s = (f a).run t := by
  rw [EStateM.run_bind, h]

theorem run_bind_of_error {x : EStateM ε σ α} {f : α → EStateM ε σ β} {s t : σ} {e : ε}
    (h : x.run s = .error e t) : (x >>= f).run s = .error e t := by
  rw [EStateM.run_bind, h]

@[simp] theorem run_get_bind {f : σ → EStateM ε σ β} {s : σ} : (get >>= f).run s = (f s).run s := by
  rw [EStateM.run_bind, EStateM.run_get]

theorem run_gets_bind {g : σ → α} {f : α → EStateM ε σ β} {s : σ} :
    ((get >>= fun s => pure (g s)) >>= f).run s = (f (g s)).run s := by
  rw [bind_assoc, run_get_bind, pure_bind]

@[simp] theorem run_modify_bind {g : σ → σ} {f : PUnit → EStateM ε σ β} {s : σ} :
    (modify g >>= f).run s = (f ⟨⟩).run (g s) := by
  rw [EStateM.run_bind, EStateM.run_modify]

def check (b : Bool) (e : ε) : EStateM ε σ Unit := if b then pure () else throw e

theorem run_check_true {b : Bool} {e : ε} {s : σ} (h : b = true) :
    (check b e : EStateM ε σ Unit).run s = .ok () s := by
  subst h; rfl

theorem run_check_false {b : Bool} {e : ε} {s : σ} (h : b = false) :
    (check b e : EStateM ε σ Unit).run s = .error e s := by
  subst h; rfl

@[simp] theorem run_check_ok {b : Bool} {e : ε} {s s' : σ} {u : Unit} :
    (check b e : EStateM ε σ Unit).run s = .ok u s' ↔ b = true ∧ s' = s := by
  cases b with
  | false => simp [check]
  | true =>
    constructor
    · intro h; cases h; exact ⟨rfl, rfl⟩
    · rintro ⟨_, rfl⟩; rfl

theorem run_check_bind {b : Bool} {e : ε} {f : Unit → EStateM ε σ α} {s s' : σ} {a : α} :
    (check b e >>= f).run s = .ok a s' ↔ b = true ∧ (f ()).run s = .ok a s' := by
  rw [run_bind_ok]
  constructor
  · rintro ⟨_, _, hc, hf⟩
    obtain ⟨hb, rfl⟩ := run_check_ok.1 hc
    exact ⟨hb, hf⟩
  · rintro ⟨hb, hf⟩
    exact ⟨(), s, run_check_true hb, hf⟩

def onlyIf (c : Prop) [Decidable c] (x : EStateM ε σ Unit) : EStateM ε σ Unit :=
  if c then x else pure ()

theorem onlyIf_pos {c : Prop} [Decidable c] {x : EStateM ε σ Unit} (h : c) : onlyIf c x = x :=
  if_pos h

theorem onlyIf_neg {c : Prop} [Decidable c] {x : EStateM ε σ Unit} (h : ¬ c) :
    onlyIf c x = pure () :=
  if_neg h

/-- A counting loop: `f start`, `f (start + 1)`, ..., `count` times. -/
def forRange (f : Nat → EStateM ε σ Unit) : (count : Nat) → (start : Nat) → EStateM ε σ Unit
  | 0, _ => pure ()
  | count + 1, start => do
    f start
    forRange f count (start + 1)

theorem run_forRange_inv {f : Nat → EStateM ε σ Unit} {P : Nat → σ → Prop} {u : Unit} :
    ∀ {count start : Nat} {s s' : σ},
      (∀ i t t', start ≤ i → i < start + count → P i t → (f i).run t = .ok () t' → P (i + 1) t') →
      P start s → (forRange f count start).run s = .ok u s' → P (start + count) s' := by
  intro count
  induction count with
  | zero =>
    intro start s s' _ hP h
    rw [forRange, EStateM.run_pure] at h
    cases h
    exact hP
  | succ count ih =>
    intro start s s' hstep hP h
    obtain ⟨_, t, hbody, hrest⟩ := run_bind_ok.1 h
    have hnext := hstep start s t (Nat.le_refl _) (by omega) hP hbody
    have hlast := ih (fun i t t' hlo hhi => hstep i t t' (by omega) (by omega)) hnext hrest
    rwa [Nat.add_assoc, Nat.add_comm 1] at hlast

/-- A loop returns if each round does, from what the rounds before it have left. -/
theorem run_forRange_returns {f : Nat → EStateM ε σ Unit} {P : Nat → σ → Prop} :
    ∀ {count start : Nat} {s : σ},
      (∀ i t, start ≤ i → i < start + count → P i t →
        ∃ t', (f i).run t = .ok () t' ∧ P (i + 1) t') →
      P start s → ∃ s', (forRange f count start).run s = .ok () s' ∧ P (start + count) s' := by
  intro count
  induction count with
  | zero =>
    intro start s _ hP
    exact ⟨s, EStateM.run_pure () s, hP⟩
  | succ count ih =>
    intro start s hstep hP
    obtain ⟨t, hbody, hnext⟩ := hstep start s (Nat.le_refl _) (by omega) hP
    obtain ⟨s', hrest, hlast⟩ := ih (fun i t hlo hhi => hstep i t (by omega) (by omega)) hnext
    rw [Nat.add_assoc, Nat.add_comm 1] at hlast
    exact ⟨s', run_bind_ok.2 ⟨(), t, hbody, hrest⟩, hlast⟩

/-- Run code on the part of the state that `get` reads and `put` replaces. -/
def zoom (get : σ → τ) (put : τ → σ → σ) (x : EStateM ε τ α) : EStateM ε σ α := fun s =>
  match x.run (get s) with
  | .ok a t => .ok a (put t s)
  | .error e t => .error e (put t s)

theorem run_zoom_ok {get : σ → τ} {put : τ → σ → σ} {x : EStateM ε τ α} {s s' : σ} {a : α} :
    (zoom get put x).run s = .ok a s' ↔ ∃ t, x.run (get s) = .ok a t ∧ s' = put t s := by
  unfold zoom
  show (match x.run (get s) with
    | .ok a t => EStateM.Result.ok a (put t s)
    | .error e t => .error e (put t s)) = _ ↔ _
  cases h : x.run (get s) with
  | ok b t =>
    simp only [EStateM.Result.ok.injEq]
    constructor
    · rintro ⟨rfl, rfl⟩; exact ⟨t, ⟨rfl, rfl⟩, rfl⟩
    · rintro ⟨_, ⟨rfl, rfl⟩, rfl⟩; exact ⟨rfl, rfl⟩
  | error e t => simp

theorem run_zoom_of_error {get : σ → τ} {put : τ → σ → σ} {x : EStateM ε τ α} {s : σ} {t : τ} {e : ε}
    (h : x.run (get s) = .error e t) : (zoom get put x).run s = .error e (put t s) := by
  unfold zoom
  show (match x.run (get s) with
    | .ok a t => EStateM.Result.ok a (put t s)
    | .error e t => .error e (put t s)) = _
  rw [h]

end GarbageOS.Lib
