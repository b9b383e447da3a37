import Mathlib.Algebra.Group.Nat.Defs

/-!
# Byte buffers

A buffer maps an offset to a byte. Words are little-endian. `copy` and `fill` are
`memcpy` and `memset` into a buffer.
-/

namespace GarbageOS.Lib

abbrev Bytes := Nat → UInt8

namespace Bytes

def get8 (b : Bytes) (o : Nat) : Nat := (b o).toNat

def get16 (b : Bytes) (o : Nat) : Nat := b.get8 o + 2 ^ 8 * b.get8 (o + 1)

def get32 (b : Bytes) (o : Nat) : Nat := b.get16 o + 2 ^ 16 * b.get16 (o + 2)

def get64 (b : Bytes) (o : Nat) : Nat := b.get32 o + 2 ^ 32 * b.get32 (o + 4)

def put8 (b : Bytes) (o v : Nat) : Bytes := fun i => if i = o then UInt8.ofNat v else b i

def put16 (b : Bytes) (o v : Nat) : Bytes := (b.put8 o v).put8 (o + 1) (v / 2 ^ 8)

def put32 (b : Bytes) (o v : Nat) : Bytes := (b.put16 o v).put16 (o + 2) (v / 2 ^ 16)

def put64 (b : Bytes) (o v : Nat) : Bytes := (b.put32 o v).put32 (o + 4) (v / 2 ^ 32)

def fill (b : Bytes) (o n : Nat) (v : UInt8) : Bytes :=
  fun i => if o ≤ i ∧ i < o + n then v else b i

/-- The bytes of `[o, o + n)` replaced by the first `n` bytes of `src`. -/
def copy (b : Bytes) (o : Nat) (src : Bytes) (n : Nat) : Bytes :=
  fun i => if o ≤ i ∧ i < o + n then src (i - o) else b i

def ofList (l : List UInt8) : Bytes := fun i => l.getD i 0

variable {b src : Bytes} {o o' n v i : Nat}

theorem get8_lt : b.get8 o < 2 ^ 8 := (b o).toNat_lt

theorem get16_lt : b.get16 o < 2 ^ 16 := by
  have h₁ : b.get8 o < 2 ^ 8 := get8_lt
  have h₂ : b.get8 (o + 1) < 2 ^ 8 := get8_lt
  unfold get16
  omega

theorem get32_lt : b.get32 o < 2 ^ 32 := by
  have h₁ : b.get16 o < 2 ^ 16 := get16_lt
  have h₂ : b.get16 (o + 2) < 2 ^ 16 := get16_lt
  unfold get32
  omega

theorem get8_congr {c : Bytes} (h : b o = c o') : b.get8 o = c.get8 o' := by
  unfold get8; rw [h]

theorem get16_congr {c : Bytes} (h : ∀ i < 2, b (o + i) = c (o' + i)) : b.get16 o = c.get16 o' := by
  have h₀ : b.get8 o = c.get8 o' := get8_congr (h 0 (by decide))
  unfold get16
  rw [h₀, get8_congr (h 1 (by decide))]

theorem get32_congr {c : Bytes} (h : ∀ i < 4, b (o + i) = c (o' + i)) : b.get32 o = c.get32 o' := by
  have h₀ : b.get16 o = c.get16 o' := get16_congr fun i hi => h i (by omega)
  have h₁ : b.get16 (o + 2) = c.get16 (o' + 2) := get16_congr fun i hi => by
    rw [Nat.add_assoc, Nat.add_assoc]
    exact h (2 + i) (by omega)
  unfold get32
  rw [h₀, h₁]

theorem put8_ne (h : i ≠ o) : b.put8 o v i = b i := if_neg h

theorem put16_out (h : i < o ∨ o + 2 ≤ i) : b.put16 o v i = b i := by
  unfold put16
  rw [put8_ne (by omega), put8_ne (by omega)]

theorem put32_out (h : i < o ∨ o + 4 ≤ i) : b.put32 o v i = b i := by
  unfold put32
  rw [put16_out (by omega), put16_out (by omega)]

theorem get8_put8_self : (b.put8 o v).get8 o = v % 2 ^ 8 := by
  simp [get8, put8]

theorem get16_put16_self : (b.put16 o v).get16 o = v % 2 ^ 16 := by
  unfold get16 put16
  rw [get8_put8_self, get8_congr (put8_ne (by omega)), get8_put8_self]
  omega

theorem get32_put32_self : (b.put32 o v).get32 o = v % 2 ^ 32 := by
  unfold get32 put32
  rw [get16_put16_self, get16_congr fun i hi => put16_out (by omega), get16_put16_self]
  omega

theorem put32_get32 {p : Nat} (h : i < 4) : b.put32 o (src.get32 p) (o + i) = src (p + i) := by
  have h₀ := (src p).toNat_lt
  have h₁ := (src (p + 1)).toNat_lt
  have h₂ := (src (p + 2)).toNat_lt
  have h₃ := (src (p + 3)).toNat_lt
  apply UInt8.toNat_inj.1
  match i, h with
  | 0, _ => simp [put32, put16, put8, get32, get16, get8, Nat.add_assoc]
  | 1, _ => simp [put32, put16, put8, get32, get16, get8, Nat.add_assoc]; omega
  | 2, _ => simp [put32, put16, put8, get32, get16, get8, Nat.add_assoc]; omega
  | 3, _ => simp [put32, put16, put8, get32, get16, get8, Nat.add_assoc]; omega

theorem copy_in (h : i < n) : b.copy o src n (o + i) = src i := by
  simp [copy, h]

theorem copy_out (h : i < o ∨ o + n ≤ i) : b.copy o src n i = b i := by
  unfold copy
  rw [if_neg (by omega)]

end Bytes

end GarbageOS.Lib
