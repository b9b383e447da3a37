import Mathlib.Data.List.Perm.Basic
import Mathlib.Tactic.Common

/-!
# Bubble sort

The sort of an array by a key, as two nested counting loops write it: round `i`
compares the neighbours at `0, 1, ..., n - i - 2` and swaps those out of order.
-/

namespace GarbageOS.Lib

variable {α : Type} {key : α → Nat}

/-- The first `count` steps of the inner loop. -/
def bubblePass (key : α → Nat) : (count : Nat) → List α → List α
  | count + 1, a :: b :: l =>
    if key a > key b then b :: bubblePass key count (a :: l) else a :: bubblePass key count (b :: l)
  | _, l => l

/-- The last `rounds` rounds of the outer loop. -/
def bubbleRounds (key : α → Nat) : (rounds : Nat) → List α → List α
  | 0, l => l
  | rounds + 1, l => bubbleRounds key rounds (bubblePass key rounds l)

def bubbleSort (key : α → Nat) (l : List α) : List α := bubbleRounds key l.length l

def SortedBy (key : α → Nat) (l : List α) : Prop := l.Pairwise fun a b => key a ≤ key b

/-- A pass over all neighbours of a list moves an element with the largest key to
its end and leaves what follows the list alone. -/
theorem bubblePass_max {count : Nat} {l : List α} (h : l.length = count + 1) :
    ∃ front m, front.length = count ∧ (front ++ [m]).Perm l ∧ (∀ x ∈ l, key x ≤ key m) ∧
      ∀ rest, bubblePass key count (l ++ rest) = front ++ m :: rest := by
  induction count generalizing l with
  | zero =>
    obtain ⟨a, rfl⟩ := List.length_eq_one_iff.1 h
    exact ⟨[], a, rfl, .refl _, by simp, fun rest => by simp [bubblePass]⟩
  | succ count ih =>
    match l, h with
    | a :: b :: l, h =>
      simp only [List.length_cons, Nat.add_right_cancel_iff] at h
      by_cases hab : key a > key b
      · -- `b` comes first, and `a` goes on
        obtain ⟨front, m, hlen, hperm, hmax, hpass⟩ := @ih (a :: l) (by simp [h])
        refine ⟨b :: front, m, by simp [hlen], ?_, fun x hx => ?_, fun rest => ?_⟩
        · exact (hperm.cons b).trans (.swap a b l)
        · have := hmax a List.mem_cons_self
          rcases List.mem_cons.1 hx with rfl | hx
          · exact this
          · rcases List.mem_cons.1 hx with rfl | hx
            · omega
            · exact hmax x (List.mem_cons_of_mem _ hx)
        · rw [List.cons_append, List.cons_append, bubblePass, if_pos hab, ← List.cons_append, hpass]
          rfl
      · obtain ⟨front, m, hlen, hperm, hmax, hpass⟩ := @ih (b :: l) (by simp [h])
        refine ⟨a :: front, m, by simp [hlen], hperm.cons a, fun x hx => ?_, fun rest => ?_⟩
        · have := hmax b List.mem_cons_self
          rcases List.mem_cons.1 hx with rfl | hx
          · omega
          · exact hmax x hx
        · rw [List.cons_append, List.cons_append, bubblePass, if_neg hab, ← List.cons_append, hpass]
          rfl

/-- The rounds that are left sort the front, when the rest is sorted and above it. -/
theorem bubbleRounds_spec {rounds : Nat} {front back : List α} (hlen : front.length = rounds)
    (hback : SortedBy key back) (hle : ∀ x ∈ front, ∀ y ∈ back, key x ≤ key y) :
    (bubbleRounds key rounds (front ++ back)).Perm (front ++ back) ∧
      SortedBy key (bubbleRounds key rounds (front ++ back)) := by
  induction rounds generalizing front back with
  | zero =>
    obtain rfl := List.length_eq_zero_iff.1 hlen
    exact ⟨.refl _, hback⟩
  | succ rounds ih =>
    obtain ⟨front', m, hlen', hperm, hmax, hpass⟩ := @bubblePass_max α key _ _ hlen
    have hmem : ∀ x ∈ front', x ∈ front := fun x hx => hperm.subset (by simp [hx])
    have hm : m ∈ front := hperm.subset (by simp)
    rw [bubbleRounds, hpass]
    obtain ⟨hp, hs⟩ := @ih front' (m :: back) hlen'
      (List.pairwise_cons.2 ⟨hle m hm, hback⟩) fun x hx y hy => by
        rcases List.mem_cons.1 hy with rfl | hy
        · exact hmax x (hmem x hx)
        · exact hle x (hmem x hx) y hy
    refine ⟨hp.trans ?_, hs⟩
    rw [List.append_cons]
    exact hperm.append_right back

theorem bubbleSort_perm (l : List α) : (bubbleSort key l).Perm l := by
  simpa [bubbleSort] using
    (@bubbleRounds_spec α key _ l [] rfl .nil (by simp)).1

theorem bubbleSort_sorted (l : List α) : SortedBy key (bubbleSort key l) := by
  simpa [bubbleSort] using
    (@bubbleRounds_spec α key _ l [] rfl .nil (by simp)).2

end GarbageOS.Lib
