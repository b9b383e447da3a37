import GarbageOS.Lib.Effect
import GarbageOS.Paging.Code

/-!
# What the frame allocator and the paging code change

Frames, physical memory and the ghost logs; nothing else. `PagingEffect` says so
as an equation, from which every other field is read off.
-/

namespace GarbageOS

open Lib

structure PagingEffect (k k' : Kernel) : Prop where
  eq : k' =
    { k with
      cpu := { k.cpu with
        pteWrites := k'.cpu.pteWrites, freed := k'.cpu.freed, flushed := k'.cpu.flushed }
      sh := { k.sh with frames := k'.sh.frames, pmem := k'.sh.pmem } }

theorem PagingEffect.trans {k₁ k₂ k₃ : Kernel} (h₁ : PagingEffect k₁ k₂)
    (h₂ : PagingEffect k₂ k₃) : PagingEffect k₁ k₃ :=
  ⟨h₂.eq.trans (by rw [h₁.eq])⟩

instance : IsPreorder Kernel PagingEffect where
  refl _ := ⟨rfl⟩
  trans _ _ _ := PagingEffect.trans

section

variable {k k' : Kernel}

theorem PagingEffect.heap (h : PagingEffect k k') : k'.sh.heap = k.sh.heap := by rw [h.eq]

theorem PagingEffect.descs (h : PagingEffect k k') : k'.sh.descs = k.sh.descs := by rw [h.eq]

theorem PagingEffect.vmm (h : PagingEffect k k') : k'.sh.vmm = k.sh.vmm := by rw [h.eq]

theorem PagingEffect.held (h : PagingEffect k k') : k'.cpu.held = k.cpu.held := by rw [h.eq]

theorem PagingEffect.unlock {l : Lock} (h : PagingEffect (k.locked l) k') :
    PagingEffect k (k'.unlocked l k.cpu.interrupts) := by
  constructor
  rw [h.eq]
  simp [Kernel.unlocked, Kernel.locked]

theorem PagingEffect.of_run {α : Type} {x : KM α} [Kept PagingEffect x] {a : α}
    (h : x.run k = .ok a k') : PagingEffect k k' :=
  Kept.keeps h

end

/-- A critical section does what its body does. -/
class LockKeeps (R : Kernel → Kernel → Prop) : Prop where
  unlock {l : Lock} {k k' : Kernel} : R (k.locked l) k' → R k (k'.unlocked l k.cpu.interrupts)

section

variable {R : Kernel → Kernel → Prop}

instance [LockKeeps R] {α : Type} {l : Lock} {x : KM α} [hx : Kept R x] :
    Kept R (withLock l x) where
  keeps k a k' hr := by
    obtain ⟨_, t, ht, rfl⟩ := run_withLock_ok.1 hr
    exact LockKeeps.unlock (hx.keeps ht)

variable [IsPreorder Kernel R]

instance (b : Bool) : Kept R (kassert b : KM Unit) := ⟨.check⟩

instance (addr : Nat) : Kept R (readPmem addr) := by unfold readPmem; infer_instance

instance {size : Nat} {body : Nat → KM Unit} [∀ i, Kept R (body i)] :
    Kept R (forPages size body) := by
  unfold forPages; infer_instance

end

instance : LockKeeps PagingEffect := ⟨PagingEffect.unlock⟩

/-- Frames and physical memory are what building tables changes. -/
class TableKeeps (R : Kernel → Kernel → Prop) : Prop extends LockKeeps R where
  frames (f : FrameAllocator) (k : Kernel) : R k { k with sh := { k.sh with frames := f } }
  pmem (m : Mem) (k : Kernel) : R k { k with sh := { k.sh with pmem := m } }

section

variable {R : Kernel → Kernel → Prop} [h : TableKeeps R]

instance {α : Type} (x : FrameM α) : Kept R (onFrames x) := ⟨.zoom h.frames⟩

instance (addr value : Nat) : Kept R (writePmem addr value) := ⟨.modify fun k => h.pmem _ k⟩

variable [IsPreorder Kernel R]

instance : Kept R allocFrame := by unfold allocFrame; infer_instance

instance (entry : Nat) : Kept R (allocateTable entry) :=
  ⟨.bind Kept.keeps fun _ => .bind (.modify fun k => h.pmem _ k) fun _ => Kept.keeps⟩

instance (entry : Nat) : Kept R (getNextTable entry) := by unfold getNextTable; infer_instance

instance (root vaddr : Nat) : Kept R (unsyncGetPageTableEntry root vaddr) := by
  unfold unsyncGetPageTableEntry; infer_instance

end

instance : TableKeeps PagingEffect := ⟨fun _ _ => ⟨rfl⟩, fun _ _ => ⟨rfl⟩⟩

instance (paddr : Nat) : Kept PagingEffect (deallocFrame paddr) :=
  ⟨.bind (.modify fun _ => ⟨rfl⟩) fun _ => Kept.keeps⟩

instance (root vaddr entry value : Nat) : Kept PagingEffect (writePte root vaddr entry value) :=
  ⟨.bind Kept.keeps fun _ => .modify fun _ => ⟨rfl⟩⟩

instance (ps vaddr paddr flags : Nat) : Kept PagingEffect (pagingMap ps vaddr paddr flags) := by
  unfold pagingMap; infer_instance

instance (ps vaddr : Nat) : Kept PagingEffect (invalidatePagingMapping ps vaddr) := by
  unfold invalidatePagingMapping; infer_instance

instance (src dst vaddr newFlags : Nat) :
    Kept PagingEffect (copyPagingEntry src dst vaddr newFlags) := by
  unfold copyPagingEntry; infer_instance

instance (src dst startVaddr sizeBytes newFlags : Nat) : Kept PagingEffect
    (copyPagingStructureMappingNoPageInvalidation src dst startVaddr sizeBytes newFlags) := by
  unfold copyPagingStructureMappingNoPageInvalidation; infer_instance

end GarbageOS
