import Mathlib.Data.Nat.Dist

/-!
# Nearest quotients

`Nearest n d q`: no multiple of `d` is closer to `n` than `q * d`. With two multiples at the same
distance both are nearest. The quotient rounded down is nearest when the remainder is at most half
the divisor, and the next one when it is at least half.
-/

namespace GarbageOS.Lib

def Nearest (n d q : Nat) : Prop := ∀ m, Nat.dist n (q * d) ≤ Nat.dist n (m * d)

section

variable {n d q : Nat}

theorem div_mul_bounds (hd : 0 < d) : n / d * d + n % d = n ∧ n % d < d ∧
    (n / d + 1) * d = n / d * d + d :=
  ⟨Nat.div_add_mod' n d, Nat.mod_lt n hd, Nat.succ_mul _ _⟩

theorem dist_div_mul (hd : 0 < d) : Nat.dist n (n / d * d) = n % d := by
  obtain ⟨hn, -, -⟩ := div_mul_bounds (n := n) hd
  unfold Nat.dist
  omega

theorem dist_div_succ_mul (hd : 0 < d) : Nat.dist n ((n / d + 1) * d) = d - n % d := by
  obtain ⟨hn, hlt, hsucc⟩ := div_mul_bounds (n := n) hd
  rw [hsucc]
  unfold Nat.dist
  omega

theorem le_dist_mul (hd : 0 < d) (m : Nat) :
    (m ≤ n / d → n % d ≤ Nat.dist n (m * d)) ∧
      (n / d < m → d - n % d ≤ Nat.dist n (m * d)) := by
  obtain ⟨hn, hlt, hsucc⟩ := div_mul_bounds (n := n) hd
  constructor
  · intro hm
    have hle : m * d ≤ n / d * d := Nat.mul_le_mul_right d hm
    unfold Nat.dist
    omega
  · intro hm
    have hle : (n / d + 1) * d ≤ m * d := Nat.mul_le_mul_right d hm
    unfold Nat.dist
    omega

theorem nearest_div_iff (hd : 0 < d) : Nearest n d (n / d) ↔ 2 * (n % d) ≤ d := by
  have hlt := Nat.mod_lt n hd
  constructor
  · intro h
    have hnext := h (n / d + 1)
    rw [dist_div_mul hd, dist_div_succ_mul hd] at hnext
    omega
  · intro h m
    rw [dist_div_mul hd]
    rcases Nat.lt_or_ge (n / d) m with hm | hm
    · have hfar := (le_dist_mul hd m).2 hm
      omega
    · exact (le_dist_mul hd m).1 hm

theorem nearest_div_succ_iff (hd : 0 < d) : Nearest n d (n / d + 1) ↔ d ≤ 2 * (n % d) := by
  have hlt := Nat.mod_lt n hd
  constructor
  · intro h
    have hprev := h (n / d)
    rw [dist_div_mul hd, dist_div_succ_mul hd] at hprev
    omega
  · intro h m
    rw [dist_div_succ_mul hd]
    rcases Nat.lt_or_ge (n / d) m with hm | hm
    · exact (le_dist_mul hd m).2 hm
    · have hfar := (le_dist_mul hd m).1 hm
      omega

theorem exists_nearest (hd : 0 < d) : ∃ q, Nearest n d q ∧ n / d ≤ q ∧ q ≤ n / d + 1 := by
  rcases Nat.le_total (2 * (n % d)) d with h | h
  · exact ⟨_, (nearest_div_iff hd).2 h, by omega⟩
  · exact ⟨_, (nearest_div_succ_iff hd).2 h, by omega⟩

theorem Nearest.eq_or_eq_succ (hd : 0 < d) (h : Nearest n d q) : q = n / d ∨ q = n / d + 1 := by
  obtain ⟨hn, hlt, hsucc⟩ := div_mul_bounds (n := n) hd
  have hdown := h (n / d)
  have hup := h (n / d + 1)
  rw [dist_div_mul hd] at hdown
  rw [dist_div_succ_mul hd] at hup
  by_contra hne
  rcases Nat.lt_or_ge q (n / d) with hq | hq
  · have hle : (q + 1) * d ≤ n / d * d := Nat.mul_le_mul_right d hq
    rw [Nat.succ_mul] at hle
    unfold Nat.dist at hdown
    omega
  · have hle : (n / d + 2) * d ≤ q * d := Nat.mul_le_mul_right d (by omega)
    have hsucc₂ : (n / d + 2) * d = (n / d + 1) * d + d := Nat.succ_mul _ _
    unfold Nat.dist at hup
    omega

theorem two_mul_mod_lt (hd : 0 < d) (h : d ≤ n) : 2 * (n % d) < n := by
  obtain ⟨hn, hlt, -⟩ := div_mul_bounds (n := n) hd
  have hle : 1 * d ≤ n / d * d := Nat.mul_le_mul_right d (Nat.div_pos h hd)
  omega

end

end GarbageOS.Lib
