import Mathlib.Data.List.Induction

/-!
# Radix trees of tables

A table has an entry for each index, and an entry may point to a further table.
`walk` follows a path of indices; the entries of the tables at a fixed depth are the
leaves. The tree is well shaped when no table is reached by two paths. Writing a leaf
then changes that leaf only, and linking a new table of empty entries changes none.
-/

namespace GarbageOS.Lib

variable {α ι ε : Type} {child : ε → Option α} {E E' : α → ι → ε} {root t : α} {p q : List ι}
  {depth : Nat} {i : ι}

/-- The table at the end of a path from table `t`. -/
def walk (child : ε → Option α) (E : α → ι → ε) : α → List ι → Option α
  | t, [] => some t
  | t, i :: p => (child (E t i)).bind fun t' => walk child E t' p

theorem walk_concat : walk child E t (p ++ [i]) = (walk child E t p).bind fun a => child (E a i) := by
  induction p generalizing t with
  | nil =>
    show (child (E t i)).bind some = child (E t i)
    cases child (E t i) <;> rfl
  | cons j p ih =>
    show (child (E t j)).bind _ = ((child (E t j)).bind _).bind _
    cases child (E t j) with
    | none => rfl
    | some a => exact ih

/-- No table is reached by two paths. -/
def TreeShaped (child : ε → Option α) (E : α → ι → ε) (root : α) (depth : Nat) : Prop :=
  ∀ p q a, p.length ≤ depth → q.length ≤ depth → walk child E root p = some a →
    walk child E root q = some a → p = q

/-- `a` is a table of the tree. -/
def IsTable (child : ε → Option α) (E : α → ι → ε) (root : α) (depth : Nat) (a : α) : Prop :=
  ∃ p, p.length ≤ depth ∧ walk child E root p = some a

/-- The leaf at a path and an index, `zero` where there is no table. -/
def leaf (zero : ε) (child : ε → Option α) (E : α → ι → ε) (root : α) (p : List ι) (i : ι) : ε :=
  ((walk child E root p).map fun a => E a i).getD zero

/-- A path goes by the entries of the tables above its end. -/
theorem walk_congr (hE : ∀ r a j, r.length < depth → walk child E root r = some a →
    E' a j = E a j) (hq : q.length ≤ depth) : walk child E' root q = walk child E root q := by
  induction q using List.reverseRecOn with
  | nil => rfl
  | append_singleton q j ih =>
    rw [List.length_append, List.length_singleton] at hq
    rw [walk_concat, walk_concat, ih (by omega)]
    cases ha : walk child E root q with
    | none => rfl
    | some a =>
      show child (E' a j) = child (E a j)
      rw [hE q a j (by omega) ha]

section

variable (hwalk : ∀ q : List ι, q.length ≤ depth → walk child E' root q = walk child E root q)

include hwalk

theorem TreeShaped.congr (h : TreeShaped child E root depth) : TreeShaped child E' root depth := by
  intro q r a hq hr hwq hwr
  rw [hwalk q hq] at hwq
  rw [hwalk r hr] at hwr
  exact h q r a hq hr hwq hwr

theorem isTable_congr {a : α} : IsTable child E' root depth a ↔ IsTable child E root depth a :=
  exists_congr fun q => and_congr_right fun hq => by rw [hwalk q hq]

end

/-! ## Writing a leaf -/

section

variable (h : TreeShaped child E root depth) (hp : p.length = depth)
  (ht : walk child E root p = some t)
  (hE : ∀ a j, IsTable child E root depth a → ¬ (a = t ∧ j = i) → E' a j = E a j)

include h hp ht hE

theorem walk_write (hq : q.length ≤ depth) : walk child E' root q = walk child E root q := by
  refine walk_congr (fun r a j hr ha => hE a j ⟨r, Nat.le_of_lt hr, ha⟩ ?_) hq
  rintro ⟨rfl, -⟩
  have hpr := h p r a (by omega) (by omega) ht ha
  rw [hpr] at hp
  omega

theorem leaf_write_self {zero : ε} : leaf zero child E' root p i = E' t i := by
  unfold leaf
  rw [walk_write h hp ht hE (by omega), ht]
  rfl

theorem leaf_write_of_ne {zero : ε} {j : ι} (hq : q.length = depth) (hne : ¬ (q = p ∧ j = i)) :
    leaf zero child E' root q j = leaf zero child E root q j := by
  unfold leaf
  rw [walk_write h hp ht hE (by omega)]
  cases ha : walk child E root q with
  | none => rfl
  | some a =>
    show E' a j = E a j
    refine hE a j ⟨q, by omega, ha⟩ fun ⟨e, ej⟩ => hne ⟨?_, ej⟩
    rw [e] at ha
    exact h q p t (by omega) (by omega) ha ht

end

/-! ## Linking a new table -/

/-- The entry of a table is pointed to the table `f`, which was not in the tree and
whose entries are empty. -/
structure Links (child : ε → Option α) (E E' : α → ι → ε) (root : α) (depth : Nat) (p : List ι)
    (i : ι) (f : α) : Prop where
  table : ∃ t, walk child E root p = some t ∧ child (E t i) = none ∧ child (E' t i) = some f
  above : p.length < depth
  fresh : ¬ IsTable child E root depth f
  empty : ∀ j, child (E' f j) = none
  same : ∀ a j, IsTable child E root depth a → walk child E root p ≠ some a ∨ j ≠ i → E' a j = E a j

variable {f : α}

section

variable (h : TreeShaped child E root depth) (hl : Links child E E' root depth p i f)

include h hl

/-- Only the new table is reached in addition. -/
theorem Links.walk_eq (hq : q.length ≤ depth) :
    (q = p ++ [i] ∧ walk child E' root q = some f) ∨
      (q ≠ p ++ [i] ∧ walk child E' root q = walk child E root q) := by
  obtain ⟨t, ht, hnone, hlink⟩ := hl.table
  have hdepth := hl.above
  induction q using List.reverseRecOn with
  | nil => exact .inr ⟨by simp, rfl⟩
  | append_singleton q j ih =>
    rw [List.length_append, List.length_singleton] at hq
    rw [walk_concat, walk_concat]
    rcases ih (by omega) with ⟨rfl, hw⟩ | ⟨hne, hw⟩
    · -- below the new table there is nothing, as before
      refine .inr ⟨fun e => ?_, ?_⟩
      · have := congrArg List.length e
        simp at this
      · rw [hw, walk_concat, ht]
        show child (E' f j) = ((child (E t i)).bind _)
        rw [hnone, hl.empty j]
        rfl
    · rw [hw]
      by_cases hqp : q = p ∧ j = i
      · obtain ⟨rfl, rfl⟩ := hqp
        refine .inl ⟨rfl, ?_⟩
        rw [ht]
        exact hlink
      · have hne' : q ++ [j] ≠ p ++ [i] := fun e => hqp (List.append_singleton_inj.1 e)
        refine .inr ⟨hne', ?_⟩
        cases ha : walk child E root q with
        | none => rfl
        | some a =>
          show child (E' a j) = child (E a j)
          rw [hl.same a j ⟨q, by omega, ha⟩]
          by_contra hcon
          rw [not_or, not_not, not_not] at hcon
          exact hqp ⟨h q p a (by omega) (by omega) ha hcon.1, hcon.2⟩

theorem Links.walk_new : walk child E' root (p ++ [i]) = some f := by
  have := hl.above
  rcases hl.walk_eq h (q := p ++ [i]) (by simp; omega) with ⟨-, hw⟩ | ⟨hne, -⟩
  · exact hw
  · exact absurd rfl hne

theorem Links.treeShaped : TreeShaped child E' root depth := by
  intro q r a hq hr hwq hwr
  rcases hl.walk_eq h hq with ⟨hq', hwq'⟩ | ⟨-, hwq'⟩ <;>
    rcases hl.walk_eq h hr with ⟨hr', hwr'⟩ | ⟨-, hwr'⟩
  · rw [hq', hr']
  · rw [hwq] at hwq'
    cases hwq'
    exact absurd ⟨r, hr, hwr'.symm.trans hwr⟩ hl.fresh
  · rw [hwr] at hwr'
    cases hwr'
    exact absurd ⟨q, hq, hwq'.symm.trans hwq⟩ hl.fresh
  · exact h q r a hq hr (hwq'.symm.trans hwq) (hwr'.symm.trans hwr)

theorem Links.isTable {a : α} (ha : IsTable child E' root depth a) :
    a = f ∨ IsTable child E root depth a := by
  obtain ⟨q, hq, hw⟩ := ha
  rcases hl.walk_eq h hq with ⟨-, hw'⟩ | ⟨-, hw'⟩
  · rw [hw] at hw'
    cases hw'
    exact .inl rfl
  · exact .inr ⟨q, hq, hw'.symm.trans hw⟩

theorem Links.walk_of {a : α} (hq : q.length ≤ depth) (hw : walk child E root q = some a) :
    walk child E' root q = some a := by
  obtain ⟨t, ht, hnone, -⟩ := hl.table
  rcases hl.walk_eq h hq with ⟨rfl, -⟩ | ⟨-, hw'⟩
  · rw [walk_concat, ht] at hw
    change child (E t i) = some a at hw
    rw [hnone] at hw
    cases hw
  · exact hw'.trans hw

/-- The leaves of the new table are empty, as they were when there was no table. -/
theorem Links.leaf_eq {zero : ε} (hzero : ∀ j, E' f j = zero) {j : ι} (hq : q.length = depth) :
    leaf zero child E' root q j = leaf zero child E root q j := by
  obtain ⟨t, ht, hnone, -⟩ := hl.table
  unfold leaf
  rcases hl.walk_eq h (by omega : q.length ≤ depth) with ⟨rfl, hw⟩ | ⟨-, hw⟩
  · rw [hw, walk_concat, ht]
    show E' f j = ((child (E t i)).map _).getD zero
    rw [hnone, hzero j]
    rfl
  · rw [hw]
    cases ha : walk child E root q with
    | none => rfl
    | some a =>
      show E' a j = E a j
      refine hl.same a j ⟨q, by omega, ha⟩ (.inl fun hpa => ?_)
      have hdepth := hl.above
      have := h q p a (by omega) (by omega) ha hpa
      rw [this] at hq
      omega

end

end GarbageOS.Lib
