import Mathlib.Data.List.Basic
import Mathlib.Tactic.Tauto

/-!
# Tilings of an address interval

`Tiles lo hi a xs e`: the blocks `xs`, each spanning `[lo x, hi x)`, follow one
another without gaps from `a` to `e`. A tiling splits and joins at any point,
so replacing some consecutive blocks by others over the same interval keeps it.
-/

namespace GarbageOS.Lib

variable {β : Type} {lo hi : β → Nat} {a e : Nat}

/-- The blocks `xs` cover `[a, e)` in order, without gaps or overlaps. -/
def Tiles (lo hi : β → Nat) : Nat → List β → Nat → Prop
  | a, [], e => a = e
  | a, x :: xs, e => lo x = a ∧ Tiles lo hi (hi x) xs e

instance decidableTiles : ∀ a (xs : List β) e, Decidable (Tiles lo hi a xs e)
  | a, [], e => inferInstanceAs (Decidable (a = e))
  | a, x :: xs, e =>
    have := decidableTiles (hi x) xs e
    inferInstanceAs (Decidable (lo x = a ∧ Tiles lo hi (hi x) xs e))

@[simp] theorem tiles_nil : Tiles lo hi a [] e ↔ a = e := Iff.rfl

@[simp] theorem tiles_cons {x : β} {xs : List β} :
    Tiles lo hi a (x :: xs) e ↔ lo x = a ∧ Tiles lo hi (hi x) xs e := Iff.rfl

theorem tiles_append {xs ys : List β} :
    Tiles lo hi a (xs ++ ys) e ↔ ∃ b, Tiles lo hi a xs b ∧ Tiles lo hi b ys e := by
  induction xs generalizing a with
  | nil => simp
  | cons x xs ih =>
    simp only [List.cons_append, tiles_cons, ih]
    exact ⟨fun ⟨h, b, h1, h2⟩ => ⟨b, ⟨h, h1⟩, h2⟩, fun ⟨b, ⟨h, h1⟩, h2⟩ => ⟨h, b, h1, h2⟩⟩

theorem mem_splice {x y : β} {xs ys : List β} : y ∈ xs ++ x :: ys ↔ y = x ∨ y ∈ xs ++ ys := by
  simp only [List.mem_append, List.mem_cons]; tauto

theorem Tiles.bounds {xs : List β} (h : Tiles lo hi a xs e) (hle : ∀ x ∈ xs, lo x ≤ hi x) :
    a ≤ e ∧ ∀ x ∈ xs, a ≤ lo x ∧ hi x ≤ e := by
  induction xs generalizing a with
  | nil => exact ⟨Nat.le_of_eq h, by simp⟩
  | cons x xs ih =>
    obtain ⟨hx, hxs⟩ := h
    obtain ⟨hae, hb⟩ := ih hxs fun y hy => hle y (List.mem_cons_of_mem _ hy)
    have hxle := hle x List.mem_cons_self
    refine ⟨by omega, fun y hy => ?_⟩
    rcases List.mem_cons.1 hy with rfl | hy
    · exact ⟨Nat.le_of_eq hx.symm, hae⟩
    · have := hb y hy; omega

/-- The blocks before a block end below it, those after it start above it. -/
theorem Tiles.around {xs ys : List β} {x : β} (h : Tiles lo hi a (xs ++ x :: ys) e)
    (hle : ∀ y ∈ xs ++ x :: ys, lo y ≤ hi y) : (∀ y ∈ xs, hi y ≤ lo x) ∧ ∀ y ∈ ys, hi x ≤ lo y := by
  obtain ⟨b, hxs, rfl, hys⟩ := tiles_append.1 h
  exact ⟨fun y hy => ((hxs.bounds fun z hz => hle z (by simp [hz])).2 y hy).2,
    fun y hy => ((hys.bounds fun z hz => hle z (by simp [hz])).2 y hy).1⟩

theorem Tiles.end_eq {b c : Nat} {xs : List β} (h : Tiles lo hi a xs b) (h' : Tiles lo hi a xs c) :
    b = c := by
  induction xs generalizing a with
  | nil => exact h.symm.trans h'
  | cons x xs ih => exact ih h.2 h'.2

theorem Tiles.replaced {xs ys ys' zs : List β} (h : Tiles lo hi a (xs ++ (ys ++ zs)) e)
    (h' : Tiles lo hi a (xs ++ (ys' ++ zs)) e) : ∃ b c, Tiles lo hi b ys c ∧ Tiles lo hi b ys' c := by
  obtain ⟨b, hxs, h⟩ := tiles_append.1 h
  obtain ⟨b', hxs', h'⟩ := tiles_append.1 h'
  obtain rfl := hxs.end_eq hxs'
  obtain ⟨c, hys, hzs⟩ := tiles_append.1 h
  obtain ⟨c', hys', hzs'⟩ := tiles_append.1 h'
  have hc : c = c' := by
    cases zs with
    | nil => exact hzs.trans hzs'.symm
    | cons z zs => exact hzs.1.symm.trans hzs'.1
  exact ⟨b, c, hys, hc ▸ hys'⟩

section

variable {xs : List β} (h : Tiles lo hi a xs e)

include h

theorem Tiles.apart (hle : ∀ x ∈ xs, lo x ≤ hi x) {x y : β} (hx : x ∈ xs) (hy : y ∈ xs) :
    x = y ∨ hi x ≤ lo y ∨ hi y ≤ lo x := by
  obtain ⟨ys, zs, rfl⟩ := List.append_of_mem hx
  obtain ⟨hb, ha⟩ := h.around hle
  rcases List.mem_append.1 hy with hy | hy
  · exact .inr (.inr (hb y hy))
  · rcases List.mem_cons.1 hy with rfl | hy
    · exact .inl rfl
    · exact .inr (.inl (ha y hy))

theorem Tiles.exists_prev {x : β} (hx : x ∈ xs) : lo x = a ∨ ∃ y ∈ xs, hi y = lo x := by
  obtain ⟨ys, zs, rfl⟩ := List.append_of_mem hx
  obtain ⟨b, hys, rfl, -⟩ := tiles_append.1 h
  rcases List.eq_nil_or_concat ys with rfl | ⟨init, y, rfl⟩
  · exact .inl hys.symm
  · rw [List.concat_eq_append, tiles_append] at hys
    obtain ⟨_, -, -, hy⟩ := hys
    exact .inr ⟨y, by simp, hy⟩

theorem Tiles.exists_next {x : β} (hx : x ∈ xs) : hi x = e ∨ ∃ y ∈ xs, lo y = hi x := by
  obtain ⟨ys, zs, rfl⟩ := List.append_of_mem hx
  obtain ⟨_, -, -, hzs⟩ := tiles_append.1 h
  cases zs with
  | nil => exact .inl hzs
  | cons z zs => exact .inr ⟨z, by simp, hzs.1⟩

theorem Tiles.exists_last (hne : xs ≠ []) : ∃ x ∈ xs, hi x = e := by
  induction xs generalizing a with
  | nil => exact absurd rfl hne
  | cons x xs ih =>
    obtain ⟨-, hxs⟩ := h
    cases xs with
    | nil => exact ⟨x, List.mem_cons_self, hxs⟩
    | cons y ys =>
      obtain ⟨z, hz, he⟩ := ih hxs (by simp)
      exact ⟨z, List.mem_cons_of_mem _ hz, he⟩

theorem Tiles.length_le {k : Nat} (hk : ∀ x ∈ xs, lo x + k ≤ hi x) : a + k * xs.length ≤ e := by
  induction xs generalizing a with
  | nil => simpa using Nat.le_of_eq h
  | cons x xs ih =>
    obtain ⟨hx, hxs⟩ := h
    have h1 := ih hxs fun y hy => hk y (List.mem_cons_of_mem _ hy)
    have h2 := hk x List.mem_cons_self
    simp only [List.length_cons, Nat.mul_succ]
    omega

end

/-! ## Gaps

Some blocks are gaps. When no two gaps meet, the other blocks determine where
the gaps are. -/

section Gaps

variable {gap : β → Prop} {a e e' : Nat} {x y w w' : β} {xs ys : List β}

def GapsApart (lo hi : β → Nat) (gap : β → Prop) (xs : List β) : Prop :=
  ∀ x ∈ xs, ∀ y ∈ xs, hi x = lo y → gap x → gap y → False

theorem GapsApart.tail (h : GapsApart lo hi gap (x :: xs)) : GapsApart lo hi gap xs :=
  fun y hy z hz => h y (List.mem_cons_of_mem _ hy) z (List.mem_cons_of_mem _ hz)

/-- After a first gap that is not the last block comes a block that is none. -/
theorem Tiles.next_solid (h : Tiles lo hi a (x :: (xs ++ [w])) e)
    (hap : GapsApart lo hi gap (x :: (xs ++ [w]))) (hx : gap x) :
    ∃ z ∈ xs ++ [w], lo z = hi x ∧ ¬ gap z := by
  obtain ⟨z, zs, hz⟩ := List.exists_cons_of_ne_nil (show xs ++ [w] ≠ [] by simp)
  rw [hz] at h hap ⊢
  exact ⟨z, List.mem_cons_self, h.2.1, hap x List.mem_cons_self z (by simp) h.2.1.symm hx⟩

theorem Tiles.exists_solid (h : Tiles lo hi a (x :: (xs ++ [w])) e)
    (hap : GapsApart lo hi gap (x :: (xs ++ [w]))) : ∃ z ∈ x :: (xs ++ [w]), ¬ gap z := by
  by_cases hx : gap x
  · obtain ⟨z, hz, -, hzg⟩ := h.next_solid hap hx
    exact ⟨z, List.mem_cons_of_mem _ hz, hzg⟩
  · exact ⟨x, List.mem_cons_self, hx⟩

theorem Tiles.eq_head (hlt : ∀ z, lo z < hi z) (h : Tiles lo hi a (y :: ys) e) (hx : lo x = a)
    (hmem : x ∈ y :: ys) : x = y := by
  have hy : lo y = a := h.1
  have := hlt x
  have := hlt y
  rcases h.apart (fun z _ => Nat.le_of_lt (hlt z)) hmem List.mem_cons_self with he | he | he
  · exact he
  all_goals omega

/-- A first gap reaches as far as the first gap of a tiling with the same solid blocks. -/
theorem Tiles.gap_le (hlt : ∀ z, lo z < hi z) (hx : Tiles lo hi a (x :: (xs ++ [w])) e)
    (hap : GapsApart lo hi gap (x :: (xs ++ [w]))) (hg : gap x) (hy : Tiles lo hi a (y :: ys) e')
    (hsub : ∀ z, ¬ gap z → z ∈ x :: (xs ++ [w]) → z ∈ y :: ys) : hi y ≤ hi x := by
  obtain ⟨z, hz, hzx, hzg⟩ := hx.next_solid hap hg
  have hmem := hsub z hzg (List.mem_cons_of_mem _ hz)
  have hxa : lo x = a := hx.1
  have hya : lo y = a := hy.1
  have := hlt x
  have := hlt z
  rcases hy.apart (fun z _ => Nat.le_of_lt (hlt z)) hmem List.mem_cons_self with rfl | he | he
  all_goals omega

/-- Two tilings from the same address with the same solid blocks, each with a gap
at its end, differ in that last gap alone. -/
theorem Tiles.eq_of_solid (hlt : ∀ z, lo z < hi z) (hx : Tiles lo hi a (xs ++ [w]) e)
    (hy : Tiles lo hi a (ys ++ [w']) e') (hapx : GapsApart lo hi gap (xs ++ [w]))
    (hapy : GapsApart lo hi gap (ys ++ [w'])) (hw : gap w) (hw' : gap w')
    (hsame : ∀ z, ¬ gap z → (z ∈ xs ++ [w] ↔ z ∈ ys ++ [w']))
    (hgap : ∀ z ∈ xs, ∀ z' ∈ ys, gap z → gap z' → lo z = lo z' → hi z = hi z' → z = z') :
    xs = ys ∧ lo w = lo w' := by
  induction xs generalizing a ys with
  | nil =>
    cases ys with
    | nil => exact ⟨rfl, hx.1.trans hy.1.symm⟩
    | cons y ys =>
      obtain ⟨z, hz, hzg⟩ := hy.exists_solid hapy
      have hzw : z = w := by simpa using (hsame z hzg).2 hz
      exact (hzg (hzw ▸ hw)).elim
  | cons x xs ih =>
    cases ys with
    | nil =>
      obtain ⟨z, hz, hzg⟩ := hx.exists_solid hapx
      have hzw : z = w' := by simpa using (hsame z hzg).1 hz
      exact (hzg (hzw ▸ hw')).elim
    | cons y ys =>
      have hxa : lo x = a := hx.1
      have hya : lo y = a := hy.1
      have hxy : x = y := by
        by_cases hgx : gap x
        · by_cases hgy : gap y
          · have h1 := hx.gap_le hlt hapx hgx hy fun z hz => (hsame z hz).1
            have h2 := hy.gap_le hlt hapy hgy hx fun z hz => (hsame z hz).2
            exact hgap x (by simp) y (by simp) hgx hgy (hxa.trans hya.symm) (by omega)
          · exact (hx.eq_head hlt hya ((hsame y hgy).2 (by simp))).symm
        · exact hy.eq_head hlt hxa ((hsame x hgx).1 (by simp))
      subst hxy
      -- no later block is the first one
      have hne : ∀ {zs : List β} {b : Nat}, Tiles lo hi (hi x) zs b → x ∉ zs := by
        intro zs b hzs hmem
        have := ((hzs.bounds fun z _ => Nat.le_of_lt (hlt z)).2 x hmem).1
        have := hlt x
        omega
      obtain ⟨rfl, hlast⟩ := ih hx.2 hy.2 hapx.tail hapy.tail
        (fun z hz => by
          have hiff := hsame z hz
          simp only [List.cons_append, List.mem_cons] at hiff
          constructor
          · intro hmem
            exact (hiff.1 (.inr hmem)).resolve_left fun he => hne hx.2 (he ▸ hmem)
          · intro hmem
            exact (hiff.2 (.inr hmem)).resolve_left fun he => hne hy.2 (he ▸ hmem))
        fun z hz z' hz' => hgap z (List.mem_cons_of_mem _ hz) z' (List.mem_cons_of_mem _ hz')
      exact ⟨rfl, hlast⟩

end Gaps

end GarbageOS.Lib
