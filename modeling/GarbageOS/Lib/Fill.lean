import Mathlib.Order.Basic

/-!
# Counting and filling in loops

A first loop over a list counts the elements that pass a test, a second one stores an entry for
each of them in an array of that size, at an index that it counts, and fails if the array is full.
-/

namespace GarbageOS.Lib

variable {α β ε : Type} {test : α → Bool}

theorem forIn_count (xs : List α) :
    forIn xs 0 (fun x n => (.ok (.yield (if test x then n + 1 else n)) : Except ε (ForInStep Nat))) =
      .ok (xs.countP test) := by
  have hfold : ∀ (ys : List α) (n : Nat),
      ys.foldl (fun n x => if test x then n + 1 else n) n = n + ys.countP test := by
    intro ys
    induction ys with
    | nil => simp
    | cons y ys ih =>
      intro n
      rw [List.foldl_cons, ih, List.countP_cons]
      split <;> omega
  have := hfold xs 0
  rw [Nat.zero_add] at this
  rw [← this]
  exact List.forIn_pure_yield_eq_foldl ..

theorem modify_length_append (done : List β) (f : β → β) (b : β) (left : List β) :
    (done ++ b :: left).modify done.length f = done ++ f b :: left := by
  induction done with
  | nil => rfl
  | cons x xs ih => simp [ih]

/-- The body of the second loop, on the elements of `xs` and an array of `z`. -/
structure Fills (body : α → List β × Nat → Except ε (ForInStep (List β × Nat))) (test : α → Bool)
    (entry : α → β) (z : β) (e : ε) (xs : List α) : Prop where
  store : ∀ x ∈ xs, test x = true → ∀ done m,
    body x (done ++ List.replicate (m + 1) z, done.length) =
      .ok (.yield (done ++ entry x :: List.replicate m z, done.length + 1))
  full : ∀ x ∈ xs, test x = true → ∀ done, body x (done, done.length) = .error e
  skip : ∀ x ∈ xs, test x = false → ∀ a, body x a = .ok (.yield a)

section

variable {body : α → List β × Nat → Except ε (ForInStep (List β × Nat))} {entry : α → β} {z : β}
  {e : ε} {xs : List α}

/-- The loop on an array whose first entries are filled and of which `m` are left. -/
theorem Fills.forIn_eq (h : Fills body test entry z e xs) (done : List β) (m : Nat) :
    forIn xs (done ++ List.replicate m z, done.length) body =
      if xs.countP test ≤ m then
        .ok (done ++ (xs.filter test).map entry ++ List.replicate (m - xs.countP test) z,
          done.length + xs.countP test)
      else .error e := by
  induction xs generalizing done m with
  | nil => simp; rfl
  | cons x rest ih =>
    have hrest : Fills body test entry z e rest :=
      ⟨fun y hy => h.store y (List.mem_cons_of_mem _ hy), fun y hy => h.full y (List.mem_cons_of_mem _ hy),
        fun y hy => h.skip y (List.mem_cons_of_mem _ hy)⟩
    rw [List.forIn_cons]
    cases hx : test x with
    | true =>
      rw [List.countP_cons_of_pos hx, List.filter_cons_of_pos hx]
      cases m with
      | zero =>
        rw [List.replicate_zero, List.append_nil, h.full x List.mem_cons_self hx, if_neg (by omega)]
        rfl
      | succ m =>
        rw [h.store x List.mem_cons_self hx]
        have hnext := ih hrest (done ++ [entry x]) m
        simp only [List.append_assoc, List.cons_append, List.nil_append, List.length_append,
          List.length_singleton] at hnext
        refine hnext.trans ?_
        simp only [Nat.add_le_add_iff_right, Nat.add_sub_add_right, List.map_cons, List.append_assoc,
          Nat.add_assoc, Nat.add_comm 1, List.cons_append]
    | false =>
      have hx' : ¬ test x = true := by rw [hx]; decide
      rw [List.countP_cons_of_neg hx', List.filter_cons_of_neg hx', h.skip x List.mem_cons_self hx]
      exact ih hrest done m

/-- On an array of `n` entries the loop and the check of the final index succeed exactly if `n`
elements pass the test. -/
theorem Fills.forIn_check (h : Fills body test entry z e xs) (n : Nat) :
    (forIn xs (List.replicate n z, 0) body >>= fun a =>
        if a.2 = a.1.length then .ok a.1 else .error e) =
      if xs.countP test = n then .ok ((xs.filter test).map entry) else .error e := by
  have hloop := h.forIn_eq [] n
  simp only [List.nil_append, List.length_nil, Nat.zero_add] at hloop
  rw [hloop]
  rcases Nat.lt_trichotomy (xs.countP test) n with hn | hn | hn
  · rw [if_pos (by omega), if_neg (by omega)]
    refine if_neg ?_
    simp only [List.length_append, List.length_map, List.length_replicate,
      ← List.countP_eq_length_filter]
    omega
  · rw [if_pos (by omega), if_pos hn, hn, Nat.sub_self, List.replicate_zero, List.append_nil]
    refine if_pos ?_
    rw [List.length_map, ← List.countP_eq_length_filter, hn]
  · rw [if_neg (by omega), if_neg (by omega)]
    rfl

end

end GarbageOS.Lib
