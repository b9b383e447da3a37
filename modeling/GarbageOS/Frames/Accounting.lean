import GarbageOS.Lib.Links
import GarbageOS.Frames.Partition
import Mathlib.Algebra.GroupWithZero.Nat
import Mathlib.Tactic.ByContra
import Mathlib.Tactic.IntervalCases

/-!
# Counting the free frames

`free_frames` is counted down before `alloc_frame` has found a frame. Every call that returns
moves one frame between the allocator and its clients, so the counter is the number of frames
on the stack and in the ranges, and after the boot stage `alloc_frame` finds a frame as long as
there is one. A frame at address 0 is found, too, but is then taken for a failure.
-/

namespace GarbageOS

open Lib Relation

/-- The frames on the stack and the whole pages left in the ranges. -/
def FrameAllocator.freeCount (f : FrameAllocator) : Nat :=
  frameStackCount f.frameStack +
    ((List.range f.numberOfRanges).map fun i => (f.freeRanges i).size / pageSize).sum

section

variable {f f' : FrameAllocator} {owned all : List Nat} {hal : Bool} {x i n : Nat} {u : Unit}
  {ranges : Nat → PhysicalMemoryRange} {test : PhysicalMemoryRange → Bool}

/-! ## Lengths -/

theorem length_stackFrames (f : FrameAllocator) :
    (stackFrames f).length = frameStackCount f.frameStack := by
  rw [stackFrames, List.length_map, List.length_range]

theorem length_rangeFrames (ranges : Nat → PhysicalMemoryRange) (n : Nat) :
    (rangeFrames ranges n).length =
      ((List.range n).map fun i => (ranges i).size / pageSize).sum := by
  simp [rangeFrames, framesOf, List.length_flatMap]

theorem FramesInv.freeCount_add (h : FramesInv f owned all) :
    f.freeCount + owned.length = all.length := by
  rw [← h.perm.length_eq, List.length_append, List.length_append, length_stackFrames,
    length_rangeFrames]
  rfl

theorem findRange_none : ∀ {count start : Nat}, findRange ranges test count start = none →
    ∀ i, start ≤ i → i < start + count → test (ranges i) = false
  | 0, _, _, _, _, _ => by omega
  | count + 1, start, h, i, hlo, hhi => by
    rw [findRange] at h
    split at h
    · cases h
    · next hno =>
      by_cases hi : i = start
      · rw [hi]
        exact Bool.eq_false_iff.2 hno
      · exact findRange_none h i (by omega) (by omega)

theorem FramesInv.stack_valid (h : FramesInv f owned all) (hbase : f.frameStack.base ≠ 0)
    (hmax : f.frameStack.maxSizeBytes ≠ 0)
    (hend : f.frameStack.base + f.frameStack.maxSizeBytes < 2 ^ 64) :
    isFrameStackValid f.frameStack = true := by
  obtain ⟨c, hc, hle⟩ := h.stack
  rw [add64_eq (by omega)] at hc
  simp only [isFrameStackValid, bne_iff_ne, Bool.and_eq_true, decide_eq_true_eq, ne_eq]
  exact ⟨⟨⟨hmax, hbase⟩, by omega⟩, by omega⟩

theorem isLargeEnough_iff {r : PhysicalMemoryRange} : isLargeEnough r = true ↔ r.size / pageSize ≠ 0 := by
  rw [isLargeEnough, decide_eq_true_eq]
  simp only [pageSize]
  omega

theorem FrameAllocator.freeCount_set (f : FrameAllocator) (n : Nat) :
    ({ f with freeFrames := n } : FrameAllocator).freeCount = f.freeCount := rfl

theorem takeFreeFrame_returns (hvalid : isFrameStackValid f.frameStack = true)
    (hpos : f.freeCount ≠ 0) : ∃ x f', (takeFreeFrame true).run f = .ok x f' := by
  obtain ⟨g, hg, heq⟩ := run_takeFreeFrame true f
  rw [← f.freeCount_set (sub64 f.freeFrames 1), ← hg] at hpos
  rw [heq, if_pos hvalid]
  split
  · exact ⟨_, _, rfl⟩
  · next hcount =>
    split
    · exact ⟨_, _, rfl⟩
    · next hnone =>
      -- the stack is empty, so one of the ranges is not
      have hlen : 0 < (rangeFrames g.freeRanges g.numberOfRanges).length := by
        unfold FrameAllocator.freeCount at hpos
        rw [length_rangeFrames]
        omega
      obtain ⟨y, hy⟩ := List.exists_mem_of_length_pos hlen
      obtain ⟨i, hi, hy⟩ := mem_rangeFrames.1 hy
      obtain ⟨j, hj, -⟩ := mem_framesOf.1 hy
      have hlarge := isLargeEnough_iff.2 (Nat.ne_zero_of_lt hj)
      unfold FrameAllocator.source at hnone
      rw [isServed_true] at hnone
      split at hnone
      · cases hnone
      · rw [findRange_none hnone i (Nat.zero_le i) (by omega)] at hlarge
        cases hlarge

theorem putFreeFrame_returns (h : FramesInv f owned all)
    (hcap : 8 * all.length ≤ f.frameStack.maxSizeBytes) (hx : x ∈ owned) :
    ∃ f', (putFreeFrame x).run f = .ok () f' := by
  obtain ⟨c, hc, hmax⟩ := h.stack
  have hcount := h.count_eq hc hmax
  have hroom := h.room
  have hlen := h.freeCount_add
  have hpos := List.length_pos_of_mem hx
  have hfits : add64 (frameStackSizeBytes f.frameStack) 8 ≤ f.frameStack.maxSizeBytes := by
    unfold FrameAllocator.freeCount at hlen
    rw [frameStackSizeBytes_eq hc (by omega), add64_eq (by omega)]
    omega
  rw [run_putFreeFrame, if_pos hfits]
  exact ⟨_, rfl⟩

/-! ## The counter -/

theorem run_takeFreeFrame_counter (hrun : (takeFreeFrame hal).run f = .ok x f') :
    f'.freeFrames = sub64 f.freeFrames 1 := by
  obtain ⟨g, rfl, ⟨-, -, rfl⟩ | ⟨i, -, -, rfl⟩⟩ := run_takeFreeFrame_ok hrun
  · exact setStackTop_freeFrames _ _
  · rfl

theorem run_putFreeFrame_counter (hrun : (putFreeFrame x).run f = .ok u f') :
    f'.freeFrames = add64 f.freeFrames 1 := by
  obtain ⟨-, rfl⟩ := run_putFreeFrame_ok hrun
  exact setStackTop_freeFrames _ _

/-- The counter is what the clients do not have. -/
structure Counted (f : FrameAllocator) (owned all : List Nat) : Prop extends FramesInv f owned all where
  total : f.freeFrames + owned.length = all.length
  small_total : all.length < 2 ^ 64

theorem Counted.take (h : Counted f owned all) (hrun : (takeFreeFrame hal).run f = .ok x f') :
    Counted f' (x :: owned) all := by
  have hinv := takeFreeFrame_inv h.toFramesInv hrun
  have hlen := hinv.freeCount_add
  have htotal := h.total
  have hsmall := h.small_total
  refine ⟨hinv, ?_, hsmall⟩
  rw [List.length_cons] at hlen ⊢
  rw [run_takeFreeFrame_counter hrun, sub64_eq (by omega) (by omega)]
  omega

theorem Counted.put (h : Counted f owned all) (hx : x ∈ owned)
    (hrun : (putFreeFrame x).run f = .ok u f') : Counted f' (owned.erase x) all := by
  have htotal := h.total
  have hsmall := h.small_total
  have hpos := List.length_pos_of_mem hx
  refine ⟨putFreeFrame_inv h.toFramesInv hx hrun, ?_, hsmall⟩
  rw [run_putFreeFrame_counter hrun, List.length_erase_of_mem hx, add64_eq (by omega)]
  omega

/-! ## Starting -/

theorem foldl_add64_eq {α : Type} (g : α → Nat) (l : List α) :
    ∀ {acc : Nat}, acc + (l.map g).sum < 2 ^ 64 →
      l.foldl (fun n a => add64 n (g a)) acc = acc + (l.map g).sum := by
  induction l with
  | nil => intro acc _; rfl
  | cons a l ih =>
    intro acc h
    rw [List.map_cons, List.sum_cons] at h ⊢
    rw [List.foldl_cons, add64_eq (by omega), ih (by omega)]
    omega

theorem initFrameAllocator_max {ram : Nat}
    (hrun : (initFrameAllocator ranges n ram).run f = .ok u f') :
    f'.frameStack.maxSizeBytes = neededBytesStackFrame ram := by
  obtain ⟨i, -, -, -, rfl⟩ := run_initFrameAllocator_ok hrun
  rfl

/-- The stack has a word for every frame of the RAM, and a page more. -/
theorem le_neededBytesStackFrame {ram : Nat} (h : ram < 2 ^ 64) :
    8 * (ram / pageSize) + pageSize ≤ neededBytesStackFrame ram := by
  simp only [neededBytesStackFrame, pageSize, add64]
  omega

theorem Started.aligned (h : Started ranges n f i) (hr : FreeRanges ranges n) :
    ∀ x ∈ rangeFrames f.freeRanges n, x % pageSize = 0 := by
  intro x hx
  obtain ⟨j, hj, hx⟩ := GarbageOS.mem_rangeFrames.1 ((h.mem_rangeFrames hr).1 hx).1
  obtain ⟨m, -, rfl⟩ := mem_framesOf.1 hx
  have := (hr.aligned j hj).1
  simp only [pageSize] at this ⊢
  omega

end

section

variable {k k' : Kernel} {f : FrameAllocator} {x : Nat} {e : Stop}

theorem run_allocFrame_of_take (hl : .frameAllocator ∉ k.cpu.held)
    (h : (takeFreeFrame k.sh.halArchInitialized).run k.sh.frames = .ok x f) (hx : x ≠ 0) :
    allocFrame.run k = .ok x
      (({ k.locked .frameAllocator with sh := { k.sh with frames := f } } : Kernel).unlocked
        .frameAllocator k.cpu.interrupts) := by
  have hlocked : (do onFrames (takeFreeFrame (← get).sh.halArchInitialized)).run
      (k.locked .frameAllocator) =
        .ok x { k.locked .frameAllocator with sh := { k.sh with frames := f } } := by
    rw [run_get_bind]
    exact run_onFrames_ok.2 ⟨f, h, rfl⟩
  unfold allocFrame
  rw [run_ok_bind (run_withLock_ok.2 ⟨hl, _, hlocked, rfl⟩),
    run_ok_bind (run_check_true (by simpa using hx)), EStateM.run_pure]

end

def halKernel : Kernel := { staticKernel with sh := { staticKernel.sh with halArchInitialized := true } }

end GarbageOS
