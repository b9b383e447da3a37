import Mathlib.Data.List.Basic
import Mathlib.Data.List.Nodup
import Mathlib.Data.List.Perm.Subperm

/-!
# Linked lists

`Linked next null xs`: the nodes `xs` are linked by `next`, the last one to the null
node. In a doubly linked list there are two functions, `next` and `prev`. `Segment next prev p xs q`
says that `xs` are consecutive nodes of such a list, that the node before the
first one is `p` and that the node after the last one is `q`; a whole list has
the null node on both sides. Segments split at any point (`segment_append`), so
an edit of the list is a change at the two ends of a segment: `Segment.reprev`
and `Segment.renext`.
-/

namespace GarbageOS.Lib

variable {α : Type} {next prev next' prev' : α → α}

/-- Nodes linked by `next`, the last one to `null`. -/
def Linked (next : α → α) (null : α) : List α → Prop
  | [] => True
  | a :: rest => next a = rest.headD null ∧ Linked next null rest

theorem Linked.congr {null : α} {xs : List α} (h : Linked next null xs)
    (heq : ∀ a ∈ xs, next' a = next a) : Linked next' null xs := by
  induction xs with
  | nil => trivial
  | cons a rest ih =>
    exact ⟨(heq a List.mem_cons_self).trans h.1, ih h.2 fun b hb => heq b (List.mem_cons_of_mem _ hb)⟩

theorem Linked.unique {null : α} {xs ys : List α} (hx : Linked next null xs)
    (hy : Linked next null ys) (hnx : null ∉ xs) (hny : null ∉ ys)
    (hhead : xs.headD null = ys.headD null) : xs = ys := by
  induction xs generalizing ys with
  | nil =>
    cases ys with
    | nil => rfl
    | cons y ys =>
      obtain rfl : null = y := hhead
      exact (hny List.mem_cons_self).elim
  | cons x xs ih =>
    cases ys with
    | nil =>
      obtain rfl : x = null := hhead
      exact (hnx List.mem_cons_self).elim
    | cons y ys =>
      obtain rfl : x = y := hhead
      rw [ih hx.2 hy.2 (fun h => hnx (.tail _ h)) (fun h => hny (.tail _ h)) (hx.1.symm.trans hy.1)]

theorem length_le_of_nodup {xs : List Nat} {n : Nat} (hnd : xs.Nodup) (h : ∀ a ∈ xs, a < n) :
    xs.length ≤ n := by
  have hle := (List.subperm_of_subset hnd fun a ha => List.mem_range.2 (h a ha)).length_le
  rwa [List.length_range] at hle

theorem length_lt_of_nodup {xs : List Nat} {n : Nat} (hnd : xs.Nodup)
    (h : ∀ a ∈ xs, 0 < a ∧ a < n) (hn : 0 < n) : xs.length < n :=
  length_le_of_nodup (List.nodup_cons.2 ⟨fun h0 => Nat.lt_irrefl 0 (h 0 h0).1, hnd⟩)
    (List.forall_mem_cons.2 ⟨hn, fun a ha => (h a ha).2⟩)

/-- Consecutive nodes `xs`, after `p` and before `q`. -/
def Segment (next prev : α → α) : α → List α → α → Prop
  | _, [], _ => True
  | p, x :: xs, q => prev x = p ∧ next x = xs.headD q ∧ Segment next prev x xs q

@[simp] theorem segment_nil {p q : α} : Segment next prev p [] q := trivial

@[simp] theorem segment_cons {p q x : α} {xs : List α} :
    Segment next prev p (x :: xs) q ↔
      prev x = p ∧ next x = xs.headD q ∧ Segment next prev x xs q := Iff.rfl

theorem headD_append (xs ys : List α) (d : α) : (xs ++ ys).headD d = xs.headD (ys.headD d) := by
  cases xs <;> rfl

theorem segment_append {p q : α} {xs ys : List α} :
    Segment next prev p (xs ++ ys) q ↔
      Segment next prev p xs (ys.headD q) ∧ Segment next prev (xs.getLastD p) ys q := by
  induction xs generalizing p with
  | nil => simp
  | cons x xs ih =>
    have hl : (x :: xs).getLastD p = xs.getLastD x := by cases xs <;> simp [List.getLastD]
    simp only [List.cons_append, segment_cons, ih, headD_append, hl, and_assoc]

theorem Segment.congr {p q : α} {xs : List α} (h : Segment next prev p xs q)
    (heq : ∀ x ∈ xs, next' x = next x ∧ prev' x = prev x) : Segment next' prev' p xs q := by
  induction xs generalizing p with
  | nil => trivial
  | cons x xs ih =>
    obtain ⟨hp, hn, hs⟩ := h
    obtain ⟨en, ep⟩ := heq x List.mem_cons_self
    exact ⟨ep.trans hp, en.trans hn, ih hs fun y hy => heq y (List.mem_cons_of_mem _ hy)⟩

theorem Segment.reprev {p p' q : α} {xs : List α} (h : Segment next prev p xs q) (hnd : xs.Nodup)
    (hn : ∀ x ∈ xs, next' x = next x) (hhead : ∀ x ∈ xs.head?, prev' x = p')
    (hp : ∀ x ∈ xs, x ∉ xs.head? → prev' x = prev x) : Segment next' prev' p' xs q := by
  cases xs with
  | nil => trivial
  | cons x xs =>
    obtain ⟨_, hnx, hs⟩ := h
    refine ⟨hhead x rfl, (hn x List.mem_cons_self).trans hnx, hs.congr fun y hy => ?_⟩
    have hxy : y ∉ (x :: xs).head? := by
      rintro ⟨⟩; exact (List.nodup_cons.1 hnd).1 hy
    exact ⟨hn y (List.mem_cons_of_mem _ hy), hp y (List.mem_cons_of_mem _ hy) hxy⟩

theorem Segment.renext {p q q' : α} {xs : List α} (h : Segment next prev p xs q) (hnd : xs.Nodup)
    (hp : ∀ x ∈ xs, prev' x = prev x) (hlast : ∀ x ∈ xs.getLast?, next' x = q')
    (hn : ∀ x ∈ xs, x ∉ xs.getLast? → next' x = next x) : Segment next' prev' p xs q' := by
  induction xs generalizing p with
  | nil => trivial
  | cons x xs ih =>
    obtain ⟨hpx, hnx, hs⟩ := h
    obtain ⟨hx, hnd⟩ := List.nodup_cons.1 hnd
    cases xs with
    | nil => exact ⟨(hp x List.mem_cons_self).trans hpx, hlast x rfl, trivial⟩
    | cons y ys =>
      have hl : (x :: y :: ys).getLast? = (y :: ys).getLast? := List.getLast?_cons_cons
      rw [hl] at hlast hn
      have hx' : x ∉ (y :: ys).getLast? := fun h' => hx (List.mem_of_getLast? h')
      refine ⟨(hp x List.mem_cons_self).trans hpx, (hn x List.mem_cons_self hx').trans hnx, ?_⟩
      exact ih hs hnd (fun z hz => hp z (List.mem_cons_of_mem _ hz)) hlast
        fun z hz => hn z (List.mem_cons_of_mem _ hz)

theorem getLastD_eq_or_mem (xs : List α) (d : α) : xs = [] ∧ xs.getLastD d = d ∨
    xs.getLastD d ∈ xs ∧ xs.getLast? = some (xs.getLastD d) := by
  rcases List.eq_nil_or_concat xs with rfl | ⟨init, a, rfl⟩
  · exact .inl ⟨rfl, rfl⟩
  · right; simp [List.getLastD_eq_getLast?]

theorem getLastD_cons_of_ne_nil {a d : α} {rest : List α} (h : rest ≠ []) :
    (a :: rest).getLastD d = rest.getLastD d := by
  cases rest with
  | nil => exact absurd rfl h
  | cons b rest => simp [List.getLastD]

theorem headD_eq_or_mem (xs : List α) (d : α) : xs = [] ∧ xs.headD d = d ∨
    xs.headD d ∈ xs ∧ xs.head? = some (xs.headD d) := by
  cases xs <;> simp

theorem Linked.concat {null node : α} {nodes : List α} (h : Linked next null nodes)
    (hnd : nodes.Nodup) (hlast : nodes ≠ [] → next' (nodes.getLastD null) = node)
    (hsame : ∀ a ∈ nodes, a ≠ nodes.getLastD null → next' a = next a) (hnode : next' node = null) :
    Linked next' null (nodes ++ [node]) := by
  induction nodes with
  | nil => exact ⟨hnode, trivial⟩
  | cons a rest ih =>
    obtain ⟨ha, hnd'⟩ := List.nodup_cons.1 hnd
    cases rest with
    | nil => exact ⟨hlast (List.cons_ne_nil a []), hnode, trivial⟩
    | cons b rest =>
      have hl : (a :: b :: rest).getLastD null = (b :: rest).getLastD null :=
        getLastD_cons_of_ne_nil (List.cons_ne_nil b rest)
      rw [hl] at hlast hsame
      have hne : a ≠ (b :: rest).getLastD null := by
        rcases getLastD_eq_or_mem (b :: rest) null with ⟨hnil, -⟩ | ⟨hmem, -⟩
        · cases hnil
        · exact fun e => ha (e ▸ hmem)
      refine ⟨(hsame a List.mem_cons_self hne).trans h.1, ih h.2 hnd' (fun _ => ?_) fun c hc => ?_⟩
      · exact hlast (List.cons_ne_nil a _)
      · exact hsame c (List.mem_cons_of_mem _ hc)

theorem getLastD_append (xs ys : List α) (d : α) :
    (xs ++ ys).getLastD d = ys.getLastD (xs.getLastD d) := by
  simp only [List.getLastD_eq_getLast?, List.getLast?_append]
  cases ys.getLast? <;> simp

/-- Replace consecutive nodes: the nodes around them are linked to the new ones. -/
theorem Segment.splice [DecidableEq α] {p q : α} {ys zs o n : List α}
    (h : Segment next prev p (ys ++ (o ++ zs)) q) (hnd : (ys ++ zs).Nodup) (hp : p ∉ ys ++ zs)
    (hq : q ∉ ys ++ zs) (hnew : Segment next' prev' (ys.getLastD p) n (zs.headD q))
    (hn' : ∀ y ∈ ys ++ zs, next' y = if y = ys.getLastD p then (n ++ zs).headD q else next y)
    (hp' : ∀ y ∈ ys ++ zs, prev' y = if y = zs.headD q then (ys ++ n).getLastD p else prev y) :
    Segment next' prev' p (ys ++ (n ++ zs)) q := by
  obtain ⟨hys, hzs, hdisj⟩ := List.nodup_append.1 hnd
  have hdisj' : ∀ y ∈ ys, y ∉ zs := fun y hy hz => hdisj y hy y hz rfl
  rw [segment_append, segment_append] at h ⊢
  obtain ⟨hsy, -, hsz⟩ := h
  have hlast := getLastD_eq_or_mem ys p
  have hhead := headD_eq_or_mem zs q
  simp only [List.mem_append, not_or] at hp hq hn' hp'
  refine ⟨?_, hnew, ?_⟩
  · refine hsy.renext hys (fun y hy => ?_) (fun y hy => ?_) fun y hy hne => ?_
    · rw [hp' y (.inl hy), if_neg]
      rintro rfl
      rcases hhead with ⟨-, e⟩ | ⟨e, -⟩
      · exact hq.1 (e ▸ hy)
      · exact hdisj' _ hy e
    · rw [hn' y (.inl (List.mem_of_getLast? hy)), if_pos]
      simp [List.getLastD_eq_getLast?, Option.mem_def.1 hy]
    · rw [hn' y (.inl hy), if_neg]
      rintro rfl
      rcases hlast with ⟨-, e⟩ | ⟨-, e⟩
      · exact hp.1 (e ▸ hy)
      · exact hne e
  · refine hsz.reprev hzs (fun y hy => ?_) (fun y hy => ?_) fun y hy hne => ?_
    · rw [hn' y (.inr hy), if_neg]
      rintro rfl
      rcases hlast with ⟨-, e⟩ | ⟨e, -⟩
      · exact hp.2 (e ▸ hy)
      · exact hdisj' _ e hy
    · rw [hp' y (.inr (List.mem_of_head? hy)), if_pos, getLastD_append]
      simp [List.headD_eq_head?_getD, Option.mem_def.1 hy]
    · rw [hp' y (.inr hy), if_neg]
      rintro rfl
      rcases hhead with ⟨-, e⟩ | ⟨-, e⟩
      · exact hq.2 (e ▸ hy)
      · exact hne e

theorem Segment.erase [DecidableEq α] {p q x : α} {ys zs : List α}
    (h : Segment next prev p (ys ++ x :: zs) q) (hnd : (ys ++ x :: zs).Nodup)
    (hp : p ∉ ys ++ zs) (hq : q ∉ ys ++ zs)
    (hn' : ∀ y ∈ ys ++ zs, next' y = if y = ys.getLastD p then zs.headD q else next y)
    (hp' : ∀ y ∈ ys ++ zs, prev' y = if y = zs.headD q then ys.getLastD p else prev y) :
    Segment next' prev' p (ys ++ zs) q := by
  obtain ⟨hys, hxzs, hdisj⟩ := List.nodup_append.1 hnd
  have hnd' : (ys ++ zs).Nodup := List.nodup_append.2 ⟨hys, (List.nodup_cons.1 hxzs).2,
    fun y hy z hz => hdisj y hy z (List.mem_cons_of_mem _ hz)⟩
  refine Segment.splice (o := [x]) (n := []) h hnd' hp hq trivial hn' fun y hy => ?_
  rw [hp' y hy, List.append_nil]

/-! ## Walking a list -/

/-- The nodes met from `a` on until the null node, at most `n` of them. -/
def follow [DecidableEq α] (next : α → α) (null : α) : Nat → α → List α
  | 0, _ => []
  | n + 1, a => if a = null then [] else a :: follow next null n (next a)

theorem follow_segment [DecidableEq α] {null p : α} {xs : List α} {n : Nat}
    (h : Segment next prev p xs null) (hnull : null ∉ xs) (hn : xs.length ≤ n) :
    follow next null n (xs.headD null) = xs := by
  induction xs generalizing p n with
  | nil => cases n <;> simp [follow]
  | cons x xs ih =>
    obtain ⟨_, hnx, hs⟩ := h
    obtain ⟨n, rfl⟩ : ∃ k, n = k + 1 := ⟨n - 1, by simp at hn; omega⟩
    have hx : x ≠ null := fun e => hnull (e ▸ List.mem_cons_self)
    simp only [List.headD_cons, follow, if_neg hx, hnx]
    rw [ih hs (fun h' => hnull (List.mem_cons_of_mem _ h')) (by simpa using hn)]

end GarbageOS.Lib
