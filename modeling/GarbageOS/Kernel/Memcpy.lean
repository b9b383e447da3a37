import GarbageOS.Lib.Bytes

/-!
# `memcpy`

Blocks of eight words first, then single bytes; both loops use one counter of bytes.
-/

namespace GarbageOS

open Lib

section

variable (dst src : Nat)

/-- `count` bytes at `offset` are loaded and stored at once: a word, or a single byte. -/
def copyAt (offset count : Nat) (m : Bytes) : Bytes :=
  m.copy (dst + offset) (fun i => m (src + offset + i)) count

/-- `uidst[word + (byte_index/8)] = uisrc[word + (byte_index/8)]`. -/
def copyWord (byteIndex word : Nat) : Bytes → Bytes :=
  copyAt dst src (8 * (word + byteIndex / 8)) 8

/-- The first loop also returns the counter, which the second one goes on with. -/
def copyBlocks (alignedSize byteIndex : Nat) (m : Bytes) : Nat × Bytes :=
  if byteIndex < alignedSize then
    let m := copyWord dst src byteIndex 0 m
    let m := copyWord dst src byteIndex 1 m
    let m := copyWord dst src byteIndex 2 m
    let m := copyWord dst src byteIndex 3 m
    let m := copyWord dst src byteIndex 4 m
    let m := copyWord dst src byteIndex 5 m
    let m := copyWord dst src byteIndex 6 m
    let m := copyWord dst src byteIndex 7 m
    copyBlocks alignedSize (byteIndex + 64) m
  else (byteIndex, m)
termination_by alignedSize - byteIndex

def copyTail (size byteIndex : Nat) (m : Bytes) : Bytes :=
  if byteIndex < size then copyTail size (byteIndex + 1) (copyAt dst src byteIndex 1 m) else m
termination_by size - byteIndex

def memcpy (size : Nat) (m : Bytes) : Bytes :=
  let (byteIndex, m) := copyBlocks dst src (size - size % 64) 0 m
  copyTail dst src size byteIndex m

end

section

variable {dst src size n k r : Nat} {m : Bytes} (h : dst + size ≤ src ∨ src + size ≤ dst)

include h

/-- The next bytes after the first `n`, which are still as they were. -/
theorem copyAt_copyAt (hn : n + k ≤ size) :
    copyAt dst src n k (copyAt dst src 0 n m) = copyAt dst src 0 (n + k) m := by
  funext a
  unfold copyAt Bytes.copy
  dsimp only
  by_cases hin : dst + n ≤ a ∧ a < dst + n + k
  · rw [if_pos hin, if_neg (by omega), if_pos (by omega)]
    congr 1
    omega
  · rw [if_neg hin]
    by_cases hlow : dst ≤ a ∧ a < dst + n
    · rw [if_pos (by omega), if_pos (by omega)]
    · rw [if_neg (by omega), if_neg (by omega)]

theorem copyWord_copyAt (w : Nat) (hn : 64 * n + 8 * w + 8 ≤ size) :
    copyWord dst src (64 * n) w (copyAt dst src 0 (64 * n + 8 * w) m) =
      copyAt dst src 0 (64 * n + 8 * (w + 1)) m := by
  rw [copyWord, show 8 * (w + 64 * n / 8) = 64 * n + 8 * w by omega]
  exact copyAt_copyAt h hn

/-- The counter is handed over at the end of the last block. -/
theorem copyBlocks_eq (hr : 64 * (n + r) ≤ size) :
    copyBlocks dst src (64 * (n + r)) (64 * n) (copyAt dst src 0 (64 * n) m) =
      (64 * (n + r), copyAt dst src 0 (64 * (n + r)) m) := by
  induction r generalizing n with
  | zero => rw [Nat.add_zero, copyBlocks, if_neg (Nat.lt_irrefl _)]
  | succ r ih =>
    have hword := fun w (hw : w < 8) => copyWord_copyAt (n := n) (m := m) h w (by omega)
    have hfirst : copyWord dst src (64 * n) 0 (copyAt dst src 0 (64 * n) m) = _ :=
      hword 0 (by decide)
    rw [copyBlocks, if_pos (by omega)]
    dsimp only
    rw [hfirst, hword 1 (by decide), hword 2 (by decide), hword 3 (by decide), hword 4 (by decide),
      hword 5 (by decide), hword 6 (by decide), hword 7 (by decide),
      show n + (r + 1) = n + 1 + r by omega]
    exact ih (by omega)

theorem copyTail_eq (hr : n + r = size) :
    copyTail dst src size n (copyAt dst src 0 n m) = copyAt dst src 0 size m := by
  induction r generalizing n with
  | zero =>
    subst hr
    rw [Nat.add_zero, copyTail, if_neg (Nat.lt_irrefl _)]
  | succ r ih =>
    rw [copyTail, if_pos (by omega), copyAt_copyAt h (by omega)]
    exact ih (by omega)

theorem memcpy_eq (m : Bytes) : memcpy dst src size m = copyAt dst src 0 size m := by
  have hnone : copyAt dst src 0 0 m = m := funext fun a => Bytes.copy_out (by omega)
  have hblocks := copyBlocks_eq (n := 0) (r := size / 64) (m := m) h (by omega)
  rw [Nat.zero_add, Nat.mul_zero, hnone] at hblocks
  rw [memcpy, show size - size % 64 = 64 * (size / 64) by omega, hblocks]
  exact @copyTail_eq _ _ _ _ (size % 64) _ h (by omega)

/-- Every byte is copied, and nothing else is written. -/
theorem memcpy_exact (m : Bytes) : (∀ i < size, memcpy dst src size m (dst + i) = m (src + i)) ∧
    ∀ a, a < dst ∨ dst + size ≤ a → memcpy dst src size m a = m a := by
  rw [memcpy_eq h]
  exact ⟨fun i hi => Bytes.copy_in hi, fun a ha => Bytes.copy_out ha⟩

end

theorem memcpy_exact_odd : memcpy 200 0 131 (fun i => UInt8.ofNat i) 330 = 130 :=
  (memcpy_exact (.inr (by decide)) _).1 130 (by decide)

end GarbageOS
