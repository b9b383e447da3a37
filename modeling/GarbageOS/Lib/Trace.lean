/-!
# Computations that leave a trace

`Traced ε ι α` is a computation that returns or stops, together with the events
it went through on the way. A computation that stops keeps the events up to that
point.
-/

namespace GarbageOS.Lib

theorem ok_bind {ε α β : Type} (a : α) (f : α → Except ε β) : (Except.ok a >>= f) = f a := rfl

structure Traced (ε ι α : Type) where
  trace : List ι
  result : Except ε α

namespace Traced

variable {ε ι α β : Type}

protected def bind (x : Traced ε ι α) (f : α → Traced ε ι β) : Traced ε ι β :=
  match x.result with
  | .ok a => ⟨x.trace ++ (f a).trace, (f a).result⟩
  | .error e => ⟨x.trace, .error e⟩

instance : Monad (Traced ε ι) where
  pure a := ⟨[], .ok a⟩
  bind := Traced.bind

def event (i : ι) (a : α) : Traced ε ι α := ⟨[i], .ok a⟩

def stop (e : ε) : Traced ε ι α := ⟨[], .error e⟩

@[simp] theorem pure_trace (a : α) : (pure a : Traced ε ι α).trace = [] := rfl
@[simp] theorem pure_result (a : α) : (pure a : Traced ε ι α).result = .ok a := rfl
@[simp] theorem event_trace (i : ι) (a : α) : (event i a : Traced ε ι α).trace = [i] := rfl
@[simp] theorem event_result (i : ι) (a : α) : (event i a : Traced ε ι α).result = .ok a := rfl
@[simp] theorem stop_trace (e : ε) : (stop e : Traced ε ι α).trace = [] := rfl
@[simp] theorem stop_result (e : ε) : (stop e : Traced ε ι α).result = .error e := rfl

variable {x : Traced ε ι α} {f : α → Traced ε ι β}

theorem bind_result : (x >>= f).result = x.result >>= fun a => (f a).result := by
  show (Traced.bind x f).result = _
  unfold Traced.bind
  cases x.result <;> rfl

theorem bind_trace_of_ok {a : α} (h : x.result = .ok a) :
    (x >>= f).trace = x.trace ++ (f a).trace := by
  show (Traced.bind x f).trace = _
  unfold Traced.bind
  rw [h]

theorem bind_trace_of_error {e : ε} (h : x.result = .error e) : (x >>= f).trace = x.trace := by
  show (Traced.bind x f).trace = _
  unfold Traced.bind
  rw [h]

theorem mem_bind_trace_left {i : ι} (h : i ∈ x.trace) : i ∈ (x >>= f).trace := by
  cases hx : x.result with
  | ok a =>
    rw [bind_trace_of_ok hx]
    exact List.mem_append_left _ h
  | error e =>
    rw [bind_trace_of_error hx]
    exact h

@[simp] theorem event_bind (i : ι) (a : α) :
    (event i a >>= f : Traced ε ι β) = ⟨i :: (f a).trace, (f a).result⟩ := rfl

theorem mk_ok_bind (a : α) : (⟨[], .ok a⟩ >>= f : Traced ε ι β) = f a := rfl

/-- The events of a sequence are in `P` exactly if those of the first half are and
those of the second half, should it start. -/
theorem forall_mem_bind_trace {P : ι → Prop} :
    (∀ i ∈ (x >>= f).trace, P i) ↔
      (∀ i ∈ x.trace, P i) ∧ ∀ a, x.result = .ok a → ∀ i ∈ (f a).trace, P i := by
  cases h : x.result with
  | ok a =>
    rw [bind_trace_of_ok h, List.forall_mem_append]
    simp
  | error e =>
    rw [bind_trace_of_error h]
    simp

/-- The computation does not stop with `e`. -/
class Avoids (e : ε) (x : Traced ε ι α) : Prop where
  ne : x.result ≠ .error e

variable {e : ε}

instance (a : α) : Avoids e (pure a : Traced ε ι α) := ⟨nofun⟩

instance (i : ι) (a : α) : Avoids e (event i a : Traced ε ι α) := ⟨nofun⟩

instance Avoids.bind [hx : Avoids e x] [hf : ∀ a, Avoids e (f a)] : Avoids e (x >>= f) where
  ne := by
    rw [bind_result]
    cases hr : x.result with
    | error e' =>
      rintro ⟨⟩
      exact hx.ne hr
    | ok a => exact (hf a).ne

instance {c : Prop} [Decidable c] {y : Traced ε ι α} [Avoids e x] [Avoids e y] :
    Avoids e (if c then x else y) := by
  split <;> infer_instance

end Traced

end GarbageOS.Lib
