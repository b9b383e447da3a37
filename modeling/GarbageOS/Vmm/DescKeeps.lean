import GarbageOS.Vmm.DescPool

/-!
# What the code on descriptors keeps

`vmm.c` searches, allocates, cuts, links and merges descriptors with a few basic steps: it
reads and writes descriptors, moves the head of the list and calls `kmalloc` and `kfree`.
A relation that holds across each of these steps (`DescKeeps`) holds across all of that code.
-/

namespace GarbageOS

open Lib

/-- The relation holds across the steps that code on descriptors is made of. -/
structure DescKeeps (R : Kernel → Kernel → Prop) : Prop where
  kmalloc : ∀ n, Keeps R (kmalloc n)
  kfree : ∀ p, Keeps R (kfree p)
  setDesc : ∀ k p d, R k (k.setDesc p d)
  setHead : ∀ k p, R k (k.setHead p)
  setNext : ∀ (k : Kernel) n, R k { k with sh := { k.sh with nextFreeDescriptor := n } }

attribute [class] DescKeeps

section

variable {R : Kernel → Kernel → Prop} [IsPreorder Kernel R]

instance (p : DescPtr) : Kept R (readDesc p) := by unfold readDesc; infer_instance

instance (test : VirtualMemoryDescriptor → Bool) (steps : Nat) (p : DescPtr) :
    Kept R (findDescriptor test steps p) := by
  induction steps generalizing p <;> (unfold findDescriptor; infer_instance)

instance (test : VirtualMemoryDescriptor → Bool) : Kept R (findFromHead test) := by
  unfold findFromHead; infer_instance

instance (desc : DescPtr) (freeType : VirtualMemoryType) :
    Kept R (freePredecessor desc freeType) := by
  unfold freePredecessor; infer_instance

instance : Kept R isKheapInitialized := by unfold isKheapInitialized; infer_instance

theorem keeps_updateHeadFrom (h : ∀ k p, R k (Kernel.setHead k p)) :
    ∀ steps, Keeps R (updateHeadFrom steps)
  | 0 => .throw
  | steps + 1 => .bind .get fun _ => .bind Kept.keeps fun _ => .ite (fun _ => .pure _) fun _ =>
      .bind (.modify fun k => h k _) fun _ => keeps_updateHeadFrom h steps

instance [ShootdownKeeps R] {kmalloc : Nat → KM Nat} [∀ n, Kept R (kmalloc n)]
    (vaddrStart sizeBytes : Nat) : Kept R (shootdown kmalloc vaddrStart sizeBytes) := by
  unfold shootdown; infer_instance

variable [h : DescKeeps R]

instance (n : Nat) : Kept R (kmalloc n) := ⟨h.kmalloc n⟩

instance (p : DescPtr) (f : VirtualMemoryDescriptor → VirtualMemoryDescriptor) :
    Kept R (modifyDesc p f) := ⟨.bind .check fun _ => .modify fun k => h.setDesc k p _⟩

instance (p : DescPtr) (f : VirtualMemoryDescriptor → VirtualMemoryDescriptor) :
    Kept R (modifyDescIf p f) := by
  unfold modifyDescIf; infer_instance

set_option synthInstance.maxSize 1000000 in
instance : Kept R allocateVmemDescriptor := by
  have hnext (n : Nat) : Kept R (modifyShared fun s => { s with nextFreeDescriptor := n }) :=
    ⟨.modify fun k => h.setNext k n⟩
  unfold allocateVmemDescriptor
  infer_instance

instance (p : DescPtr) : Kept R (deallocateVmmDescriptor p) := by
  have hfree (a : Nat) : Kept R (kfree a) := ⟨h.kfree a⟩
  cases p <;> (unfold deallocateVmmDescriptor; infer_instance)

instance : Kept R updateHead := ⟨keeps_updateHeadFrom h.setHead _⟩

set_option synthInstance.maxSize 1000000 in
instance (p q r s : DescPtr) : Kept R (linkAfter p q r s) := by unfold linkAfter; infer_instance

set_option synthInstance.maxSize 1000000 in
instance (p : DescPtr) (size : Nat) : Kept R (cutDescriptorStart p size) := by
  unfold cutDescriptorStart; infer_instance

set_option synthInstance.maxSize 1000000 in
instance (p : DescPtr) (start size : Nat) : Kept R (cutDescriptorEnd p start size) := by
  unfold cutDescriptorEnd; infer_instance

set_option synthInstance.maxSize 1000000 in
instance (p : DescPtr) (start size : Nat) : Kept R (cutDescriptorMiddle p start size) := by
  unfold cutDescriptorMiddle; infer_instance

set_option synthInstance.maxSize 1000000 in
instance (p : DescPtr) (start size : Nat) : Kept R (cutDescriptor p start size) := by
  unfold cutDescriptor; infer_instance

set_option synthInstance.maxSize 1000000 in
instance (size : Nat) (type : VirtualMemoryType) (upperPadding lowerPadding : Nat) :
    Kept R (cutRegion size type upperPadding lowerPadding) := by
  unfold cutRegion; infer_instance

instance (freeType : VirtualMemoryType) (steps : Nat) (last : DescPtr) (totalSize : Nat) :
    Kept R (absorbFollowing freeType steps last totalSize) := by
  induction steps generalizing last totalSize <;> (unfold absorbFollowing; infer_instance)

instance (desc : DescPtr) (freeType : VirtualMemoryType) : Kept R (coalesce desc freeType) := by
  unfold coalesce; infer_instance

end

theorem DescEffect.unlock {l : Lock} {k k' : Kernel} (h : DescEffect (k.locked l) k') :
    DescEffect k (k'.unlocked l k.cpu.interrupts) := by
  constructor
  rw [h.eq]
  simp [Kernel.unlocked, Kernel.locked]

/-- With the lock of the virtual memory manager held, only what descriptors are made of changes. -/
def LockedEffect (k k' : Kernel) : Prop := .vmm ∈ k.cpu.held → DescEffect k k'

instance : IsPreorder Kernel LockedEffect where
  refl _ _ := ⟨rfl⟩
  trans _ _ _ h₁ h₂ hheld := (h₁ hheld).trans (h₂ ((h₁ hheld).held ▸ hheld))

theorem LockedEffect.withLock {α : Type} {x : KM α} [hx : Kept LockedEffect x] {a : α}
    {k k' : Kernel} (h : (withLock .vmm x).run k = .ok a k') : DescEffect k k' := by
  obtain ⟨-, t, ht, rfl⟩ := run_withLock_ok.1 h
  exact (hx.keeps ht List.mem_cons_self).unlock

instance : DescKeeps LockedEffect where
  kmalloc _ _ _ _ h hheld := (kmalloc_heapEffect h hheld).desc
  kfree _ _ _ _ h _ := (keeps_heapEffect_kfree _ h).desc
  setDesc k p d _ := DescEffect.setDesc k p d
  setHead k p _ := DescEffect.setHead k p
  setNext _ _ _ := ⟨rfl⟩

end GarbageOS
