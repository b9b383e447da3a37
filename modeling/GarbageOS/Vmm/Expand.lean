import GarbageOS.Paging.Writes
import GarbageOS.Shootdown.Effects
import GarbageOS.Vmm.Code

/-!
# Expanding a region

Reading and writing descriptors, and what `try_expand_vmem_top` and
`try_expand_vmem_bottom` do: refuse and keep the lock, or take the request out
of the padding and map its pages.
-/

namespace GarbageOS

open Lib

def Kernel.setDesc (k : Kernel) (p : DescPtr) (d : VirtualMemoryDescriptor) : Kernel :=
  { k with sh := { k.sh with descs := Function.update k.sh.descs p d } }

@[simp] theorem Kernel.setDesc_descs (k : Kernel) (p : DescPtr) (d : VirtualMemoryDescriptor) :
    (k.setDesc p d).sh.descs = Function.update k.sh.descs p d := rfl

section

variable {α : Type} {k k' : Kernel} {p : DescPtr} {d : VirtualMemoryDescriptor} {a : α}

theorem run_readDesc_ok : (readDesc p).run k = .ok d k' ↔ p ≠ .null ∧ d = k.sh.descs p ∧ k' = k := by
  unfold readDesc
  rw [run_check_bind, run_get_bind, EStateM.run_pure, bne_iff_ne]
  constructor
  · rintro ⟨hp, h⟩; cases h; exact ⟨hp, rfl, rfl⟩
  · rintro ⟨hp, rfl, rfl⟩; exact ⟨hp, rfl⟩

theorem run_readDesc_bind {f : VirtualMemoryDescriptor → KM α} :
    (readDesc p >>= f).run k = .ok a k' ↔ p ≠ .null ∧ (f (k.sh.descs p)).run k = .ok a k' := by
  unfold readDesc
  rw [bind_assoc, run_check_bind, run_gets_bind, bne_iff_ne]

theorem run_modifyDesc_ok {f : VirtualMemoryDescriptor → VirtualMemoryDescriptor} {u : Unit} :
    (modifyDesc p f).run k = .ok u k' ↔ p ≠ .null ∧ k' = k.setDesc p (f (k.sh.descs p)) := by
  unfold modifyDesc
  rw [run_check_bind, run_modifyShared, bne_iff_ne]
  constructor
  · rintro ⟨hp, h⟩; cases h; exact ⟨hp, rfl⟩
  · rintro ⟨hp, rfl⟩; exact ⟨hp, rfl⟩

theorem run_modifyDesc_bind {f : VirtualMemoryDescriptor → VirtualMemoryDescriptor}
    {g : Unit → KM α} : (modifyDesc p f >>= g).run k = .ok a k' ↔
      p ≠ .null ∧ (g ()).run (k.setDesc p (f (k.sh.descs p))) = .ok a k' := by
  unfold modifyDesc
  rw [bind_assoc, run_check_bind, run_modifyShared_bind, bne_iff_ne]
  rfl

end

theorem roundUpToPage_eq {size : Nat} (h : size % pageSize = 0) : roundUpToPage size = size := by
  rw [roundUpToPage, if_neg (by simpa using h)]

section

variable {kmalloc : Nat → KM Nat} {k k' : Kernel} {handle : VMemHandle} {size : Nat} {b : Bool}

theorem Kernel.setDesc_relocked (k : Kernel) (p : DescPtr) (d : VirtualMemoryDescriptor) :
    ((k.locked .vmm).setDesc p d).unlocked .vmm k.cpu.interrupts = k.setDesc p d := by
  simp [Kernel.unlocked, Kernel.locked, Kernel.setDesc]

/-- The loop that maps the new pages, after the padding was changed. -/
def expandPages (side : Side) (d : VirtualMemoryDescriptor) (size : Nat) : KM Unit :=
  forPages size fun i => do
    kassert (side.isInside d (add64 (side.firstPage d size) (i * pageSize)))
    mapNewFrame (add64 (side.firstPage d size) (i * pageSize))

/-- A descriptor that is not expanded by `size` bytes. -/
def Side.Refuses (side : Side) (size : Nat) (d : VirtualMemoryDescriptor) : Prop :=
  d.type.isBacked = false ∨ side.padding d < roundUpToPage size

/-- What a granted request does after the padding of the descriptor `d` was changed. -/
def Side.Grants (side : Side) (kmalloc : Nat → KM Nat) (size : Nat) (d : VirtualMemoryDescriptor)
    (k k' : Kernel) : Prop :=
  d.type.isBacked = true ∧ roundUpToPage size ≤ side.padding d ∧
    ∃ k₁, (expandPages side d (roundUpToPage size)).run k = .ok () k₁ ∧
      (shootdown kmalloc (add64 (side.firstPage d (roundUpToPage size))
        (pageCount (roundUpToPage size) * pageSize)) (roundUpToPage size)).run k₁ = .ok () k'

variable {side : Side}

/-- A request is refused and the lock kept, or it is granted and the lock given back. -/
theorem run_tryExpandWith_iff {useSpinlock : Bool} :
    (tryExpandWith kmalloc side handle size useSpinlock).run k = .ok b k' ↔
      ∃ i t, (acquireIf useSpinlock).run k = .ok i t ∧ handle ≠ .null ∧
        ((b = false ∧ k' = t ∧ side.Refuses size (t.sh.descs handle)) ∨
          (b = true ∧ ∃ k₀, (releaseIf useSpinlock i).run (t.setDesc handle
            (side.shrinkPadding (roundUpToPage size) (t.sh.descs handle))) = .ok () k₀ ∧
            side.Grants kmalloc size (t.sh.descs handle) k₀ k')) := by
  unfold tryExpandWith
  rw [run_bind_ok]
  refine exists_congr fun i => exists_congr fun t => and_congr_right fun _ => ?_
  rw [run_readDesc_bind]
  refine and_congr_right fun hnull => ?_
  by_cases hc : side.Refuses size (t.sh.descs handle)
  · have hno : ∀ k₀, ¬ side.Grants kmalloc size (t.sh.descs handle) k₀ k' := by
      rintro k₀ ⟨hbacked, hroom, -⟩
      rcases hc with hc | hc
      · rw [hc] at hbacked; cases hbacked
      · omega
    rw [if_pos (by simpa [Side.Refuses] using hc), EStateM.run_pure]
    simp [hc, hno, eq_comm]
  · have hc' : (t.sh.descs handle).type.isBacked = true ∧
        roundUpToPage size ≤ side.padding (t.sh.descs handle) := by
      simpa [Side.Refuses] using hc
    rw [if_neg (by simpa using hc'), run_modifyDesc_bind, run_bind_ok]
    constructor
    · rintro ⟨-, _, k₀, hrel, h⟩
      obtain ⟨_, k₁, hpages, h⟩ := run_bind_ok.1 h
      obtain ⟨_, k₂, hshoot, h⟩ := run_bind_ok.1 h
      cases h
      exact .inr ⟨rfl, k₀, hrel, hc'.1, hc'.2, k₁, hpages, hshoot⟩
    · rintro (⟨-, -, hno⟩ | ⟨rfl, k₀, hrel, -, -, k₁, hpages, hshoot⟩)
      · exact (hc hno).elim
      · exact ⟨hnull, (), k₀, hrel, run_bind_ok.2 ⟨(), k₁, hpages, run_bind_ok.2 ⟨(), k', hshoot, rfl⟩⟩⟩

theorem tryExpandWith_cases (h : (tryExpandWith kmalloc side handle size true).run k = .ok b k') :
    .vmm ∉ k.cpu.held ∧
      ((b = false ∧ k' = k.locked .vmm ∧ side.Refuses size (k.sh.descs handle)) ∨
        (b = true ∧ side.Grants kmalloc size (k.sh.descs handle) (k.setDesc handle
          (side.shrinkPadding (roundUpToPage size) (k.sh.descs handle))) k')) := by
  obtain ⟨i, t, hacq, -, h⟩ := run_tryExpandWith_iff.1 h
  obtain ⟨hl, rfl, rfl⟩ := run_acquireSpinlockHard_ok.1 hacq
  refine ⟨hl, h.imp_right ?_⟩
  rintro ⟨rfl, k₀, hrel, hgrants⟩
  rw [releaseIf, onlyIf_pos rfl, run_releaseSpinlockHard, Kernel.setDesc_relocked] at hrel
  cases hrel
  exact ⟨rfl, hgrants⟩

/-- Without the lock, as the page fault handler calls it. -/
theorem tryExpandWith_unlocked_cases
    (h : (tryExpandWith kmalloc side handle size false).run k = .ok b k') :
    (b = false ∧ k' = k ∧ side.Refuses size (k.sh.descs handle)) ∨
      (b = true ∧ side.Grants kmalloc size (k.sh.descs handle) (k.setDesc handle
        (side.shrinkPadding (roundUpToPage size) (k.sh.descs handle))) k') := by
  obtain ⟨i, t, hacq, -, h⟩ := run_tryExpandWith_iff.1 h
  cases hacq
  refine h.imp_right ?_
  rintro ⟨rfl, k₀, hrel, hgrants⟩
  cases hrel
  exact ⟨rfl, hgrants⟩

instance (vaddr : Nat) : Kept PagingEffect (mapNewFrame vaddr) := by
  unfold mapNewFrame; infer_instance

instance (side : Side) (d : VirtualMemoryDescriptor) (size : Nat) :
    Kept PagingEffect (expandPages side d size) := by
  unfold expandPages; infer_instance

end

/-! ## Identity mappings -/

theorem writes_mapIdentityPages (first count : Nat) :
    Emits writtenPages (mapIdentityPages first count)
      ((List.range count).map fun i => add64 first (i * pageSize) / pageSize) := by
  unfold mapIdentityPages
  rw [List.range_eq_range']
  exact .bind .silent fun _ => Emits.forRange (fun i => writes_pagingMap _ _ _ _) _ _

instance (first count : Nat) : Kept PagingEffect (mapIdentityPages first count) := by
  unfold mapIdentityPages; infer_instance

end GarbageOS
