import GarbageOS.Kernel.Defs
import Mathlib.Logic.Function.Basic

/-!
# `circular_buffer.c`

A ring of bytes with a read and a write index; it is empty when they are equal, so
it holds one byte less than its size. A write never fails: on a full ring it moves
the write index onto the read index and everything unread is gone.
-/

namespace GarbageOS

open Lib Function

structure CircularBuffer where
  buffer : Nat → Char
  bufferSize : Nat
  readIdx : Nat
  oldWriteIdx : Nat
  writeIdx : Nat
  dataLost : Bool

namespace CircularBuffer

/-- `make_circular_buffer`; what `kmalloc` returns and the old write index are not set. -/
def make (size : Nat) (contents : Nat → Char) (oldWriteIdx : Nat) : CircularBuffer :=
  { buffer := contents
    bufferSize := size
    readIdx := 0
    oldWriteIdx := oldWriteIdx
    writeIdx := 0
    dataLost := false }

def isEmpty (buff : CircularBuffer) : Bool := buff.readIdx == buff.writeIdx

def write (buff : CircularBuffer) (b : Char) : CircularBuffer :=
  { buff with
    dataLost := buff.dataLost ||
      (sub64 buff.oldWriteIdx 1 == buff.readIdx && buff.writeIdx == buff.readIdx)
    buffer := update buff.buffer buff.writeIdx b
    oldWriteIdx := buff.writeIdx
    writeIdx := (buff.writeIdx + 1) % buff.bufferSize }

def read (buff : CircularBuffer) : Char × CircularBuffer :=
  (buff.buffer buff.readIdx, { buff with readIdx := (buff.readIdx + 1) % buff.bufferSize })

def writtenBytes (buff : CircularBuffer) : Nat :=
  if buff.writeIdx > buff.readIdx then buff.writeIdx - buff.readIdx
  else buff.bufferSize - buff.readIdx + buff.writeIdx

/-! ## The unread bytes -/

def count (buff : CircularBuffer) : Nat :=
  if buff.readIdx ≤ buff.writeIdx then buff.writeIdx - buff.readIdx
  else buff.bufferSize - buff.readIdx + buff.writeIdx

/-- The index of the `i`-th unread byte. -/
def slot (buff : CircularBuffer) (i : Nat) : Nat :=
  if buff.readIdx + i < buff.bufferSize then buff.readIdx + i
  else buff.readIdx + i - buff.bufferSize

def unread (buff : CircularBuffer) : List Char :=
  (List.range buff.count).map fun i => buff.buffer (buff.slot i)

structure WellFormed (buff : CircularBuffer) : Prop where
  read_lt : buff.readIdx < buff.bufferSize
  write_lt : buff.writeIdx < buff.bufferSize

variable {buff : CircularBuffer}

@[simp] theorem length_unread : buff.unread.length = buff.count := by simp [unread]

theorem next_eq {i n : Nat} (h : i < n) : (i + 1) % n = if i + 1 = n then 0 else i + 1 := by
  split
  · rename_i he; rw [he, Nat.mod_self]
  · exact Nat.mod_eq_of_lt (by omega)

theorem WellFormed.make {size : Nat} (h : 0 < size) (contents : Nat → Char) (old : Nat) :
    (make size contents old).WellFormed := ⟨h, h⟩

section

variable (h : buff.WellFormed)

include h

theorem WellFormed.count_lt : buff.count < buff.bufferSize := by
  have := h.read_lt; have := h.write_lt
  unfold count; split <;> omega

theorem WellFormed.isEmpty_iff : buff.isEmpty = true ↔ buff.count = 0 := by
  have := h.read_lt; have := h.write_lt
  rw [isEmpty, beq_iff_eq, count]
  split <;> omega

/-- The code's own count is right except that it takes an empty ring for a full one. -/
theorem WellFormed.writtenBytes_eq :
    buff.writtenBytes = if buff.count = 0 then buff.bufferSize else buff.count := by
  have := h.read_lt; have := h.write_lt
  unfold writtenBytes
  rcases Nat.lt_trichotomy buff.readIdx buff.writeIdx with hlt | he | hgt
  · have hc : buff.count = buff.writeIdx - buff.readIdx := if_pos (Nat.le_of_lt hlt)
    rw [if_pos hlt, hc, if_neg (by omega)]
  · have hc : buff.count = buff.writeIdx - buff.readIdx := if_pos (Nat.le_of_eq he)
    rw [if_neg (by omega), hc, if_pos (by omega)]
    omega
  · have hc : buff.count = buff.bufferSize - buff.readIdx + buff.writeIdx := if_neg (by omega)
    rw [if_neg (by omega), hc, if_neg (by omega)]

/-! ## Writing -/

theorem WellFormed.write (b : Char) : (buff.write b).WellFormed :=
  ⟨h.read_lt, Nat.mod_lt _ (by have := h.read_lt; show 0 < buff.bufferSize; omega)⟩

theorem WellFormed.slot_count : buff.slot buff.count = buff.writeIdx := by
  have := h.read_lt; have := h.write_lt
  unfold slot count
  split <;> split <;> omega

theorem WellFormed.slot_ne {i : Nat} (hi : i < buff.count) : buff.slot i ≠ buff.writeIdx := by
  have := h.read_lt; have := h.write_lt
  unfold count at hi
  unfold slot
  split at hi <;> split <;> omega

theorem WellFormed.count_write (b : Char) :
    (buff.write b).count = if buff.count + 1 = buff.bufferSize then 0 else buff.count + 1 := by
  have hr := h.read_lt; have hw := h.write_lt
  have hnext := next_eq hw
  show (if buff.readIdx ≤ (buff.writeIdx + 1) % buff.bufferSize
    then (buff.writeIdx + 1) % buff.bufferSize - buff.readIdx
    else buff.bufferSize - buff.readIdx + (buff.writeIdx + 1) % buff.bufferSize) = _
  rw [hnext]
  unfold count
  by_cases hlast : buff.writeIdx + 1 = buff.bufferSize
  · rw [if_pos hlast]
    split <;> split <;> split <;> omega
  · rw [if_neg hlast]
    split <;> split <;> split <;> omega

theorem WellFormed.unread_write (b : Char) (hlt : buff.count + 1 < buff.bufferSize) :
    (buff.write b).unread = buff.unread ++ [b] := by
  have hcount : (buff.write b).count = buff.count + 1 := by
    rw [h.count_write, if_neg (by omega)]
  rw [unread, hcount, List.range_succ, List.map_append, unread]
  congr 1
  · apply List.map_congr_left
    intro i hi
    exact update_of_ne (h.slot_ne (List.mem_range.1 hi)) ..
  · show [update buff.buffer buff.writeIdx b (buff.slot buff.count)] = [b]
    rw [h.slot_count, update_self]

/-! ## Reading -/

theorem WellFormed.read : buff.read.2.WellFormed :=
  ⟨Nat.mod_lt _ (by have := h.read_lt; show 0 < buff.bufferSize; omega), h.write_lt⟩

theorem WellFormed.unread_read (hne : buff.count ≠ 0) :
    buff.unread = buff.read.1 :: buff.read.2.unread := by
  have hr := h.read_lt; have hw := h.write_lt
  have hnext := next_eq hr
  have hcount : buff.count = buff.read.2.count + 1 := by
    show _ = (if (buff.readIdx + 1) % buff.bufferSize ≤ buff.writeIdx
      then buff.writeIdx - (buff.readIdx + 1) % buff.bufferSize
      else buff.bufferSize - (buff.readIdx + 1) % buff.bufferSize + buff.writeIdx) + 1
    rw [hnext]
    unfold count at hne ⊢
    by_cases hlast : buff.readIdx + 1 = buff.bufferSize
    · rw [if_pos hlast]
      split at hne <;> split <;> split <;> omega
    · rw [if_neg hlast]
      split at hne <;> split <;> split <;> omega
  have hslot (i : Nat) (hi : i < buff.read.2.count) : buff.slot (i + 1) = buff.read.2.slot i := by
    show _ = if (buff.readIdx + 1) % buff.bufferSize + i < buff.bufferSize
      then (buff.readIdx + 1) % buff.bufferSize + i
      else (buff.readIdx + 1) % buff.bufferSize + i - buff.bufferSize
    have hlt := h.count_lt
    rw [hnext]
    unfold slot
    by_cases hlast : buff.readIdx + 1 = buff.bufferSize
    · rw [if_pos hlast]
      split <;> split <;> omega
    · rw [if_neg hlast]
      split <;> split <;> omega
  rw [unread, hcount, List.range_succ_eq_map, List.map_cons, List.map_map, unread]
  congr 1
  · show buff.buffer (buff.slot 0) = buff.buffer buff.readIdx
    rw [slot, if_pos (by omega), Nat.add_zero]
  · apply List.map_congr_left
    intro i hi
    show buff.buffer (buff.slot (i + 1)) = buff.buffer (buff.read.2.slot i)
    rw [hslot i (List.mem_range.1 hi)]

end

end CircularBuffer

end GarbageOS
