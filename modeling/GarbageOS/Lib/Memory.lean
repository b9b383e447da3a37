import GarbageOS.Lib.Word

/-!
# Word memories

A memory maps the address of an aligned 8-byte word to its contents. `load`
and `store` are the 64-bit accesses, `fill` is `memset` on whole words.
`AgreeOff P m m'` is the frame condition "only addresses in `P` changed".
-/

namespace GarbageOS.Lib

variable {m m' : Mem} {a v b : Nat}

abbrev Mem := Nat → BitVec 64

def load (m : Mem) (a : Nat) : Nat := (m a).toNat

def store (m : Mem) (a v : Nat) : Mem := fun b => if b = a then BitVec.ofNat 64 v else m b

def fill (m : Mem) (a n v : Nat) : Mem :=
  fun b => if a ≤ b ∧ b < a + n then BitVec.ofNat 64 v else m b

theorem load_lt (m : Mem) (a : Nat) : load m a < 2 ^ 64 := (m a).isLt

theorem load_store_same (h : v < 2 ^ 64) : load (store m a v) a = v := by
  simpa [load, store] using h

theorem load_store_ne (h : b ≠ a) : load (store m a v) b = load m b := by
  simp [load, store, h]

theorem store_store_same {w : Nat} : store (store m a v) a w = store m a w := by
  funext b
  by_cases hb : b = a <;> simp [store, hb]

theorem store_load_self (h : load m a = v) : store m a v = m := by
  funext b
  by_cases hb : b = a
  · subst hb h; simp [store, load]
  · simp [store, hb]

theorem load_fill_in {n : Nat} (h1 : a ≤ b) (h2 : b < a + n) (hv : v < 2 ^ 64) :
    load (fill m a n v) b = v := by
  simpa [load, fill, h1, h2] using hv

theorem load_fill_out {n : Nat} (h : ¬ (a ≤ b ∧ b < a + n)) : load (fill m a n v) b = load m b := by
  simp [load, fill, h]

/-! ## Frames -/

/-- `m'` is `m` outside the addresses in `P`. -/
def AgreeOff (P : Nat → Prop) (m m' : Mem) : Prop := ∀ a, ¬ P a → m' a = m a

theorem AgreeOff.refl (P : Nat → Prop) (m : Mem) : AgreeOff P m m := fun _ _ => rfl

theorem AgreeOff.load {P : Nat → Prop} (h : AgreeOff P m m') {a : Nat} (ha : ¬ P a) :
    load m' a = load m a := by
  unfold Lib.load; rw [h a ha]

theorem AgreeOff.mono {P Q : Nat → Prop} (h : AgreeOff P m m') (hPQ : ∀ a, P a → Q a) :
    AgreeOff Q m m' := fun a ha => h a fun hp => ha (hPQ a hp)

theorem AgreeOff.trans {P : Nat → Prop} {m'' : Mem} (h1 : AgreeOff P m m')
    (h2 : AgreeOff P m' m'') : AgreeOff P m m'' :=
  fun a ha => (h2 a ha).trans (h1 a ha)

theorem AgreeOff.store {P : Nat → Prop} (h : AgreeOff P m m') (ha : P a) :
    AgreeOff P m (store m' a v) := by
  intro b hb
  have hne : b ≠ a := fun e => hb (e ▸ ha)
  simp only [Lib.store, hne, ↓reduceIte]
  exact h b hb

end GarbageOS.Lib
