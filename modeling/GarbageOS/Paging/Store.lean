import GarbageOS.Frames.Accounting
import GarbageOS.Lib.Budget
import GarbageOS.Paging.Walk

/-!
# The frames that are left

A frame is free or given out, never both. What the allocator needs to return is said in
two parts: `FrameStore` has room on the frame stack for every frame, so giving a frame
back always works, and `FramesLeft` says how many frames can be taken.
-/

namespace GarbageOS

open Lib

def FreeFrame (f : FrameAllocator) (a : Nat) : Prop :=
  a ∈ stackFrames f ++ rangeFrames f.freeRanges f.numberOfRanges

/-- An allocator of distinct frames below 2^47 with room on its stack for all of them. -/
structure FrameStore (f : FrameAllocator) (owned all : List Nat) : Prop
    extends FramesInv f owned all where
  nodup : all.Nodup
  aligned : ∀ x ∈ all, x % pageSize = 0
  low : ∀ x ∈ all, x < 2 ^ 47
  capacity : 8 * all.length ≤ f.frameStack.maxSizeBytes

section

variable {hal : Bool} {f f' : FrameAllocator} {owned all xs : List Nat} {x a n : Nat} {u : Unit}

namespace FrameStore

section

variable (h : FrameStore f owned all)

include h

theorem isFrame (hx : x ∈ all) : IsFrame x := by
  have := h.low x hx
  exact ⟨h.aligned x hx, by omega⟩

theorem mem_all (hx : x ∈ owned) : x ∈ all :=
  h.perm.mem_iff.1 (List.mem_append_right _ hx)

theorem owned_nodup : owned.Nodup :=
  (List.nodup_append.1 (h.perm.nodup_iff.2 h.nodup)).2.1

theorem free_iff : FreeFrame f a ↔ a ∈ all ∧ a ∉ owned := by
  have hmem : a ∈ all ↔ FreeFrame f a ∨ a ∈ owned := by
    rw [← h.perm.mem_iff, List.mem_append]
    rfl
  have hapart : FreeFrame f a → a ∉ owned := fun hf ho =>
    (List.nodup_append.1 (h.perm.nodup_iff.2 h.nodup)).2.2 a hf a ho rfl
  tauto

theorem not_free (hx : x ∈ owned) : ¬ FreeFrame f x :=
  fun hf => (h.free_iff.1 hf).2 hx

/-! ## Taking and giving back -/

theorem take (hrun : (takeFreeFrame hal).run f = .ok x f') : FrameStore f' (x :: owned) all where
  toFramesInv := takeFreeFrame_inv h.toFramesInv hrun
  nodup := h.nodup
  aligned := h.aligned
  low := h.low
  capacity := by rw [(stays_takeFreeFrame hrun).max]; exact h.capacity

theorem take_free (hrun : (takeFreeFrame hal).run f = .ok x f') : FreeFrame f x := by
  have h' := h.take hrun
  exact h.free_iff.2 ⟨h'.mem_all List.mem_cons_self, (List.nodup_cons.1 h'.owned_nodup).1⟩

theorem takes (ht : Takes hal f xs f') : FrameStore f' (xs.reverse ++ owned) all := by
  induction ht generalizing owned with
  | nil => exact h
  | cons hx _ ih =>
    rw [List.reverse_cons, List.append_assoc]
    exact ih (h.take hx)

theorem supplies {used : Nat → Prop} (hused : ∀ a, used a → ¬ FreeFrame f a) :
    Supplies hal used n f := by
  induction n generalizing used f owned with
  | zero => trivial
  | succ n ih =>
    intro x g hx
    have h' := h.take hx
    have hfree := h.take_free hx
    refine ⟨h.isFrame (h.free_iff.1 hfree).1, fun hu => hused x hu hfree, ih h' fun a ha => ?_⟩
    rw [h'.free_iff, List.mem_cons]
    rcases ha with ha | rfl
    · have := hused a ha
      rw [h.free_iff] at this
      tauto
    · tauto

theorem put (hx : x ∈ owned) (hrun : (putFreeFrame x).run f = .ok u f') :
    FrameStore f' (owned.erase x) all where
  toFramesInv := putFreeFrame_inv h.toFramesInv hx hrun
  nodup := h.nodup
  aligned := h.aligned
  low := h.low
  capacity := by rw [(stays_putFreeFrame hrun).max]; exact h.capacity

theorem put_returns (hx : x ∈ owned) : ∃ f', (putFreeFrame x).run f = .ok () f' :=
  putFreeFrame_returns h.toFramesInv h.capacity hx

end

end FrameStore

end

/-! ## How many frames can be taken -/

/-- `alloc_frame` finds a frame `n` times in a row. -/
def CanTake (hal : Bool) : (n : Nat) → FrameAllocator → Prop
  | 0, _ => True
  | n + 1, f => ∃ x f', (takeFreeFrame hal).run f = .ok x f' ∧ x ≠ 0 ∧ CanTake hal n f'

instance CanTake.decide (hal : Bool) : (n : Nat) → (f : FrameAllocator) → Decidable (CanTake hal n f)
  | 0, _ => .isTrue trivial
  | n + 1, f =>
    match h : (takeFreeFrame hal).run f with
    | .ok x f' =>
      have := CanTake.decide hal n f'
      if hx : x ≠ 0 ∧ CanTake hal n f' then .isTrue ⟨x, f', h, hx⟩
      else .isFalse fun ⟨y, g, hy, hg⟩ => hx (by rw [h] at hy; cases hy; exact hg)
    | .error _ _ => .isFalse fun ⟨y, g, hy, _⟩ => by rw [h] at hy; cases hy

/-- The CPU can take `n` more frames. -/
structure FramesLeft (n : Nat) (k : Kernel) : Prop where
  lock : .frameAllocator ∉ k.cpu.held
  frames : CanTake k.sh.halArchInitialized n k.sh.frames

section

variable {k k' : Kernel} {n : Nat}

theorem CanTake.pred {hal : Bool} {f : FrameAllocator} (h : CanTake hal (n + 1) f) :
    CanTake hal n f := by
  induction n generalizing f with
  | zero => trivial
  | succ n ih =>
    obtain ⟨x, f', hx, hx0, hrest⟩ := h
    exact ⟨x, f', hx, hx0, ih hrest⟩

theorem affords_framesLeft : Affords FramesLeft := fun _ _ h => ⟨h.lock, h.frames.pred⟩

theorem FramesLeft.congr (h : FramesLeft n k) (hheld : k'.cpu.held = k.cpu.held)
    (hhal : k'.sh.halArchInitialized = k.sh.halArchInitialized)
    (hframes : k'.sh.frames = k.sh.frames) : FramesLeft n k' :=
  ⟨hheld ▸ h.lock, by rw [hhal, hframes]; exact h.frames⟩

theorem within_allocFrame : Within FramesLeft 1 allocFrame := by
  intro n k h
  obtain ⟨x, f, hx, hx0, hrest⟩ := (Nat.add_comm 1 n ▸ h.frames : CanTake _ (n + 1) _)
  refine ⟨x, _, run_allocFrame_of_take h.lock hx hx0, ?_, hrest⟩
  simpa [Kernel.unlocked, Kernel.locked] using h.lock

theorem within_readPmem (addr : Nat) : Within FramesLeft 0 (readPmem addr) :=
  .bind .get fun _ => .pure _

theorem within_modifyCpu {f : Cpu → Cpu} (hf : ∀ c, (f c).held = c.held) :
    Within FramesLeft 0 (modifyCpu f) :=
  .modify fun _ k h => h.congr (hf k.cpu) rfl rfl

theorem within_modifyPmem (f : Shared → Mem) :
    Within FramesLeft 0 (modifyShared fun s => { s with pmem := f s }) :=
  .modify fun _ _ h => h.congr rfl rfl rfl

theorem within_writePmem (addr value : Nat) : Within FramesLeft 0 (writePmem addr value) :=
  within_modifyPmem _

theorem within_allocateTable (entry : Nat) : Within FramesLeft 1 (allocateTable entry) :=
  .bind within_allocFrame fun _ => .bind (within_modifyPmem _) fun _ => within_writePmem _ _

theorem within_getNextTable (entry : Nat) : Within FramesLeft 1 (getNextTable entry) :=
  .bind (within_readPmem _) fun _ => .bind ((within_allocateTable _).onlyIf affords_framesLeft)
    fun _ => .bind (within_readPmem _) fun _ => .pure _

theorem within_unsyncGetPageTableEntry (root vaddr : Nat) :
    Within FramesLeft 3 (unsyncGetPageTableEntry root vaddr) :=
  .bind (within_getNextTable _) fun _ => .bind (within_getNextTable _) fun _ =>
    .bind (within_getNextTable _) fun _ => .pure _

theorem within_writePte (root vaddr entry value : Nat) :
    Within FramesLeft 0 (writePte root vaddr entry value) := by
  refine .bind (within_writePmem _ _) fun _ => within_modifyCpu ?_
  exact fun _ => rfl

theorem within_pagingMap (ps vaddr paddr flags : Nat) :
    Within FramesLeft 3 (pagingMap ps vaddr paddr flags) :=
  .bind (within_readPmem _) fun _ => .bind (within_unsyncGetPageTableEntry _ _) fun _ =>
    within_writePte _ _ _ _

theorem within_invalidatePagingMapping (ps vaddr : Nat) :
    Within FramesLeft 3 (invalidatePagingMapping ps vaddr) :=
  .bind (within_readPmem _) fun _ => .bind (within_unsyncGetPageTableEntry _ _) fun _ =>
    .bind (within_readPmem _) fun _ => within_writePte _ _ _ _

theorem within_copyPagingEntry (src dst vaddr newFlags : Nat) :
    Within FramesLeft 6 (copyPagingEntry src dst vaddr newFlags) :=
  .bind (within_readPmem _) fun _ => .bind (within_unsyncGetPageTableEntry _ _) fun _ =>
    .bind (within_readPmem _) fun _ => .bind (within_unsyncGetPageTableEntry _ _) fun _ =>
    .bind (within_readPmem _) fun _ => within_writePte _ _ _ _

theorem within_forPages {size c : Nat} {body : Nat → KM Unit} (hsize : size ≤ 2 ^ 64 - pageSize)
    (h : ∀ i, Within FramesLeft c (body i)) :
    Within FramesLeft (pageCount size * c) (forPages size body) := by
  unfold forPages
  refine Within.bind (d := 0) (.forRange h _ _) fun _ => ?_
  unfold check
  rw [if_pos (decide_eq_true hsize)]
  exact .pure ()

end

end GarbageOS
