import GarbageOS.Lib.Runs
import GarbageOS.Vmm.DescKeeps

/-!
# Locks and interrupts around the operations

Every operation of the virtual memory manager takes its lock with interrupts off.
`Restores` says that a run ends with the locks and the interrupt state it began
with. All operations do but one: an expansion that is refused returns with the lock
held and interrupts off.
-/

namespace GarbageOS

open Lib

instance (type : VirtualMemoryType) (vaddr : Nat) : Kept PagingEffect (unmapPage type vaddr) := by
  unfold unmapPage; infer_instance

/-- What the two operations do with the lock held. -/
def placeRegion (ft ut : VirtualMemoryType) (a n : Nat) : KM (Option DescPtr) := do
  kassert (← get).sh.vmm.kernelMode
  let p ← findFromHead (endsAbove a)
  let d ← readDesc p
  if !containsRange d a n || d.type != ft then return none
  else
    let cut ← cutDescriptor p a n
    kassert ((← readDesc cut).startVaddr % pageSize == 0)
    modifyDesc cut fun n => { n with type := ut }
    return some cut

set_option synthInstance.maxSize 1000000 in
instance {R : Kernel → Kernel → Prop} [IsPreorder Kernel R] [DescKeeps R]
    (ft ut : VirtualMemoryType) (a n : Nat) : Kept R (placeRegion ft ut a n) := by
  unfold placeRegion; infer_instance

/-- What the copy operation does with a reserved range. -/
def fillCopy (src flags a n : Nat) : KM Unit := do
  copyPagingStructureMappingNoPageInvalidation src (← get).sh.vmm.pagingStructure a n flags
  forPages n fun i => deletePageTranslationCache (add64 a (i * pageSize))
  shootdown kmalloc a n
  withLock .vmm (pure ())

theorem copyMemoryMapping_eq (src a n flags : Nat) :
    copyMemoryMappingFromPagingStructure src a n flags = (do
      kassert (n % pageSize == 0)
      match ← withLock .vmm (placeRegion .free .memoryMapping a n) with
      | none => return .null
      | some cut =>
        fillCopy src flags a n
        return cut) := by
  have hflags : (if flags = copyFlagsOnMmapCopy then 0 else flags) = flags := by
    unfold copyFlagsOnMmapCopy
    split
    · next he => exact he.symm
    · rfl
  unfold copyMemoryMappingFromPagingStructure placeRegion fillCopy withLock
  simp only [bind_assoc, pure_bind, hflags]
  refine bind_congr fun _ => bind_congr fun _ => bind_congr fun _ => bind_congr fun _ =>
    bind_congr fun _ => bind_congr fun d => ?_
  by_cases hc : (!containsRange d a n || d.type != .free) = true
  · simp [hc]
  · simp [hc]

/-- The locks the CPU holds and its interrupt state are what they were. -/
structure Restores (k k' : Kernel) : Prop where
  held : k'.cpu.held = k.cpu.held
  interrupts : k'.cpu.interrupts = k.cpu.interrupts

theorem Restores.trans {k₁ k₂ k₃ : Kernel} (h₁ : Restores k₁ k₂) (h₂ : Restores k₂ k₃) :
    Restores k₁ k₃ :=
  ⟨h₂.held.trans h₁.held, h₂.interrupts.trans h₁.interrupts⟩

instance : IsPreorder Kernel Restores where
  refl _ := ⟨rfl, rfl⟩
  trans _ _ _ := Restores.trans

namespace Restores

variable {α : Type} {k k' : Kernel} {l : Lock}

theorem unlock (h : Restores (k.locked l) k') : Restores k (k'.unlocked l k.cpu.interrupts) := by
  constructor
  · show k'.cpu.held.erase l = k.cpu.held
    rw [h.held]
    exact List.erase_cons_head l k.cpu.held
  · -- the body left interrupts off, so the restore gives the saved state
    show restoreInterruptState k.cpu.interrupts k'.cpu.interrupts = k.cpu.interrupts
    rw [h.interrupts]
    exact restoreInterruptState_off _

instance : ShootdownKeeps Restores where
  unlock := unlock
  queues _ _ := ⟨rfl, rfl⟩
  nodes _ _ := ⟨rfl, rfl⟩
  states _ _ := ⟨rfl, rfl⟩
  handed _ _ := ⟨rfl, rfl⟩
  waits _ := ⟨rfl, rfl⟩

instance {x : HeapM α} : Kept Restores (onHeap x) := ⟨.zoom fun _ _ => ⟨rfl, rfl⟩⟩

instance (ptr : Nat) : Kept Restores (kfree ptr) := by unfold kfree; infer_instance

instance : DescKeeps Restores where
  kmalloc _ _ _ _ h := ⟨(kmalloc_effect h).held, by rw [(kmalloc_effect h).eq]⟩
  kfree _ := Kept.keeps
  setDesc _ _ _ := ⟨rfl, rfl⟩
  setHead _ _ := ⟨rfl, rfl⟩
  setNext _ _ := ⟨rfl, rfl⟩

instance (priority := low) {x : KM α} [hx : Kept PagingEffect x] : Kept Restores x :=
  ⟨hx.keeps.mono fun _ _ h => ⟨h.held, by rw [h.eq]⟩⟩

set_option synthInstance.maxSize 1000000 in
instance (paddr size : Nat) : Kept Restores (identityMap paddr size) := by
  unfold identityMap; infer_instance

set_option synthInstance.maxSize 1000000 in
instance (paddr size : Nat) (handle : VMemHandle) :
    Kept Restores (loadIdentityMapPages paddr size handle) := by
  unfold loadIdentityMapPages; infer_instance

set_option synthInstance.maxSize 1000000 in
instance (paddr size pageFlags : Nat) : Kept Restores (memoryMap paddr size pageFlags) := by
  unfold memoryMap; infer_instance

set_option synthInstance.maxSize 1000000 in
instance (size : Nat) (type : VirtualMemoryType) (upperPadding lowerPadding : Nat) :
    Kept Restores (allocateKernelVirtualMemory size type upperPadding lowerPadding) := by
  unfold allocateKernelVirtualMemory; infer_instance

set_option synthInstance.maxSize 1000000 in
instance (handle : VMemHandle) : Kept Restores (deallocateKernelVirtualMemory handle) := by
  unfold deallocateKernelVirtualMemory; infer_instance

set_option synthInstance.maxSize 1000000 in
instance (src vaddr size pageFlags : Nat) :
    Kept Restores (copyMemoryMappingFromPagingStructure src vaddr size pageFlags) := by
  rw [copyMemoryMapping_eq]
  -- a refused range only releases the lock, a reserved one is filled behind it
  refine ⟨.bind Kept.keeps fun _ => .bind Kept.keeps fun r => ?_⟩
  unfold fillCopy
  cases r <;> exact Kept.keeps

end Restores

/-! ## Calls -/

/-- Code that gets nowhere on a CPU that holds the lock of the virtual memory manager. -/
def TakesVmmLock {α : Type} (x : KM α) : Prop :=
  ∀ ⦃k a k'⦄, x.run k = .ok a k' → .vmm ∉ k.cpu.held

namespace TakesVmmLock

variable {α β : Type}

theorem withLock {x : KM α} : TakesVmmLock (withLock .vmm x) :=
  fun _ _ _ h => (run_withLock_ok.1 h).1

theorem acquireSpinlockHard : TakesVmmLock (acquireSpinlockHard .vmm) :=
  fun _ _ _ h => (run_acquireSpinlockHard_ok.1 h).1

theorem bind {x : KM α} {f : α → KM β} (hx : TakesVmmLock x) : TakesVmmLock (x >>= f) := by
  intro k b k' h
  obtain ⟨a, t, h, -⟩ := run_bind_ok.1 h
  exact hx h

theorem afterCheck {b : Bool} {e : Stop} {f : Unit → KM α} (hf : TakesVmmLock (f ())) :
    TakesVmmLock (check b e >>= f) :=
  fun _ _ _ h => hf (run_check_bind.1 h).2

end TakesVmmLock

/-- A call of one of the operations. -/
inductive VmmCall where
  | identityMap (paddr size : Nat)
  | loadIdentityMapPages (paddr size : Nat) (handle : VMemHandle)
  | memoryMap (paddr size pageFlags : Nat)
  | copyMemoryMapping (srcPagingStructure vaddr size pageFlags : Nat)
  | allocate (size : Nat) (type : VirtualMemoryType) (upperPadding lowerPadding : Nat)
  | deallocate (handle : VMemHandle)
  | tryExpandVmemTop (handle : VMemHandle) (size : Nat)
  | tryExpandVmemBottom (handle : VMemHandle) (size : Nat)

namespace VmmCall

def Returns (k k' : Kernel) : VmmCall → Prop
  | identityMap paddr size => ∃ h, (GarbageOS.identityMap paddr size).run k = .ok h k'
  | loadIdentityMapPages paddr size handle =>
    (GarbageOS.loadIdentityMapPages paddr size handle).run k = .ok () k'
  | memoryMap paddr size pageFlags =>
    ∃ h, (GarbageOS.memoryMap paddr size pageFlags).run k = .ok h k'
  | copyMemoryMapping src vaddr size pageFlags =>
    ∃ h, (copyMemoryMappingFromPagingStructure src vaddr size pageFlags).run k = .ok h k'
  | allocate size type upperPadding lowerPadding =>
    ∃ h, (allocateKernelVirtualMemory size type upperPadding lowerPadding).run k = .ok h k'
  | deallocate handle => ∃ b, (deallocateKernelVirtualMemory handle).run k = .ok b k'
  | tryExpandVmemTop handle size =>
    ∃ b, (GarbageOS.tryExpandVmemTop handle size).run k = .ok b k'
  | tryExpandVmemBottom handle size =>
    ∃ b, (GarbageOS.tryExpandVmemBottom handle size).run k = .ok b k'

/-- An expansion of a region of the wrong type, or by more than its padding. -/
def Refused (k : Kernel) : VmmCall → Prop
  | tryExpandVmemTop handle size =>
    (k.sh.descs handle).type.isBacked = false ∨
      (k.sh.descs handle).upperPadding < roundUpToPage size
  | tryExpandVmemBottom handle size =>
    (k.sh.descs handle).type.isBacked = false ∨
      (k.sh.descs handle).lowerPadding < roundUpToPage size
  | _ => False

/-- The lock is free after the call and interrupts are as before it. -/
def LockRestored (k k' : Kernel) : Prop :=
  .vmm ∉ k'.cpu.held ∧ k'.cpu.interrupts = k.cpu.interrupts

variable {k k' : Kernel} {c : VmmCall}

theorem lockRestored_of_keeps {α : Type} {x : KM α} {a : α} [hk : Kept Restores x]
    (h : x.run k = .ok a k') (hl : TakesVmmLock x) : LockRestored k k' := by
  have hr := hk.keeps h
  exact ⟨hr.held ▸ hl h, hr.interrupts⟩

theorem tryExpandWith_lockRestored_iff {side : Side} {handle : VMemHandle} {size : Nat} {b : Bool}
    (h : (tryExpandWith kmalloc side handle size true).run k = .ok b k') :
    LockRestored k k' ↔ ¬ ((k.sh.descs handle).type.isBacked = false ∨
      side.padding (k.sh.descs handle) < roundUpToPage size) := by
  obtain ⟨hfree, ⟨-, rfl, hrefused⟩ | ⟨-, hbacked, hpad, k₁, hpages, hshoot⟩⟩ :=
    tryExpandWith_cases h
  · -- refused: the lock that was taken is still held
    exact ⟨fun hr => absurd List.mem_cons_self hr.1, fun hn => absurd hrefused hn⟩
  · have hr : Restores _ k' := .trans (Kept.keeps hpages) (Kept.keeps hshoot)
    refine ⟨fun _ => by simp [hbacked, hpad], fun _ => ⟨?_, hr.interrupts⟩⟩
    rw [hr.held]
    exact hfree

theorem lockRestored_iff (h : c.Returns k k') : LockRestored k k' ↔ ¬ c.Refused k := by
  have hother : LockRestored k k' → (LockRestored k k' ↔ ¬ False) := fun hr =>
    ⟨fun _ => id, fun _ => hr⟩
  cases c with
  | identityMap paddr size =>
    obtain ⟨_, h⟩ := h
    exact hother (lockRestored_of_keeps h (.afterCheck (.afterCheck (.afterCheck .withLock))))
  | loadIdentityMapPages paddr size handle =>
    exact hother (lockRestored_of_keeps h
      (.afterCheck (.afterCheck (.afterCheck (.bind .withLock)))))
  | memoryMap paddr size pageFlags =>
    obtain ⟨_, h⟩ := h
    exact hother (lockRestored_of_keeps h (.bind .withLock))
  | copyMemoryMapping src vaddr size pageFlags =>
    obtain ⟨_, h⟩ := h
    exact hother (lockRestored_of_keeps h (.afterCheck (.bind .acquireSpinlockHard)))
  | allocate size type upperPadding lowerPadding =>
    obtain ⟨_, h⟩ := h
    exact hother (lockRestored_of_keeps h (.afterCheck (.afterCheck (.bind .withLock))))
  | deallocate handle =>
    obtain ⟨_, h⟩ := h
    exact hother (lockRestored_of_keeps h .withLock)
  | tryExpandVmemTop handle size =>
    obtain ⟨_, h⟩ := h
    exact tryExpandWith_lockRestored_iff h
  | tryExpandVmemBottom handle size =>
    obtain ⟨_, h⟩ := h
    exact tryExpandWith_lockRestored_iff h

theorem LockRestored.trans {k₁ k₂ k₃ : Kernel} (h₁ : LockRestored k₁ k₂)
    (h₂ : LockRestored k₂ k₃) : LockRestored k₁ k₃ :=
  ⟨h₂.1, h₂.2.trans h₁.2⟩

/-- A call that returns leaves the lock free and interrupts as they were exactly if it is
not a refused expansion, and so does any sequence of calls without one. -/
theorem calls_restore_lock (k k' : Kernel) :
    (∀ c : VmmCall, c.Returns k k' → (LockRestored k k' ↔ ¬ c.Refused k)) ∧
    (.vmm ∉ k.cpu.held →
      Relation.ReflTransGen (fun k k' => ∃ c : VmmCall, c.Returns k k' ∧ ¬ c.Refused k) k k' →
      LockRestored k k') := by
  refine ⟨fun _ h => lockRestored_iff h, fun hfree hrun => ?_⟩
  induction hrun with
  | refl => exact ⟨hfree, rfl⟩
  | tail _ hstep ih =>
    obtain ⟨c, hc, hgranted⟩ := hstep
    exact ih.trans ((lockRestored_iff hc).2 hgranted)

/-- A kernel with interrupts on, after `initialize_kernel_VMM`. -/
def freshKernel : Kernel :=
  finalState ((initializeKernelVMM (5 * pageSize)).run
    { staticKernel with cpu := { staticKernel.cpu with interrupts := true } })

theorem identityMap_freshKernel : (GarbageOS.identityMap MB pageSize).run freshKernel =
    .ok (.early 0) (finalState ((GarbageOS.identityMap MB pageSize).run freshKernel)) :=
  eq_of_returned (by decide +kernel)

theorem calls_restore_lock_freshKernel :
    LockRestored freshKernel
      (finalState ((GarbageOS.identityMap MB pageSize).run freshKernel)) :=
  (calls_restore_lock _ _).2 (by decide +kernel)
    (.single ⟨.identityMap MB pageSize, ⟨_, identityMap_freshKernel⟩, id⟩)

/-- One page is identity mapped. Expanding it is refused, since its type is not one that
can be expanded, and the lock stays held with interrupts off. -/
theorem exists_lock_kept : ∃ k k' k'' : Kernel,
    (GarbageOS.identityMap MB pageSize).run k = .ok (.early 0) k' ∧
    (GarbageOS.tryExpandVmemTop (.early 0) pageSize).run k' = .ok false k'' ∧
    .vmm ∉ k'.cpu.held ∧ k'.cpu.interrupts = true ∧
    .vmm ∈ k''.cpu.held ∧ k''.cpu.interrupts = false :=
  ⟨freshKernel, _, _, identityMap_freshKernel, eq_of_returned (by decide +kernel),
    by decide +kernel, by decide +kernel, by decide +kernel, by decide +kernel⟩

end VmmCall

end GarbageOS
