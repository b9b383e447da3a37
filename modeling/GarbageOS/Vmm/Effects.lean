import GarbageOS.Heap.Growth

/-!
# What `kmalloc` changes

`kmalloc` reaches most of the memory subsystem when it grows the heap, but returns
only if that found no other CPU to wait for. `MallocEffect` says as an equation what
it may have changed: the heap, its descriptor, frames, physical memory and the ghost
logs. With the lock of the virtual memory manager held it can not grow the heap at all.
-/

namespace GarbageOS

open Lib

structure MallocEffect (k k' : Kernel) : Prop where
  eq : k' =
    { k with
      cpu := { k.cpu with
        pteWrites := k'.cpu.pteWrites, handed := k'.cpu.handed, freed := k'.cpu.freed
        flushed := k'.cpu.flushed }
      sh := { k.sh with
        heap := k'.sh.heap, frames := k'.sh.frames, pmem := k'.sh.pmem, descs := k'.sh.descs
        shootdownStates := k'.sh.shootdownStates } }

theorem MallocEffect.trans {k₁ k₂ k₃ : Kernel} (h₁ : MallocEffect k₁ k₂)
    (h₂ : MallocEffect k₂ k₃) : MallocEffect k₁ k₃ :=
  ⟨h₂.eq.trans (by rw [h₁.eq])⟩

/-- Only the heap changes. -/
structure HeapEffect (k k' : Kernel) : Prop where
  eq : k' = { k with sh := { k.sh with heap := k'.sh.heap } }

theorem HeapEffect.trans {k₁ k₂ k₃ : Kernel} (h₁ : HeapEffect k₁ k₂) (h₂ : HeapEffect k₂ k₃) :
    HeapEffect k₁ k₃ :=
  ⟨h₂.eq.trans (by rw [h₁.eq])⟩

instance : IsPreorder Kernel HeapEffect where
  refl _ := ⟨rfl⟩
  trans _ _ _ := HeapEffect.trans

variable {k k' k₁ : Kernel} {n p found size : Nat} {u : Unit}

theorem HeapEffect.malloc (h : HeapEffect k k') : MallocEffect k k' := ⟨by rw [h.eq]⟩

theorem HeapEffect.held (h : HeapEffect k k') : k'.cpu.held = k.cpu.held := by rw [h.eq]

theorem HeapEffect.onHeap {α : Type} {x : HeapM α} {a : α} (h : (onHeap x).run k = .ok a k') :
    HeapEffect k k' := by
  obtain ⟨heap, -, rfl⟩ := run_onHeap_ok.1 h
  exact ⟨rfl⟩

theorem PagingEffect.malloc (h : PagingEffect k k') : MallocEffect k k' := ⟨by rw [h.eq]⟩

theorem ShootdownEffect.malloc (h : ShootdownEffect k k') : MallocEffect k k' := ⟨by rw [h.eq]⟩

theorem PagingEffect.sameQueues (h : PagingEffect k k') : SameQueues k k' := by
  rw [h.eq]
  exact ⟨rfl, rfl, rfl, fun _ => rfl⟩

theorem HeapEffect.sameQueues (h : HeapEffect k k') : SameQueues k k' := by
  rw [h.eq]
  exact ⟨rfl, rfl, rfl, fun _ => rfl⟩

theorem SameQueues.symm (h : SameQueues k k') : SameQueues k' k :=
  ⟨h.kernelData.symm, h.lapicId.symm, h.queuesCount.symm, fun i => (h.active i).symm⟩

/-- What has to be so for the heap to grow: nobody holds the lock of the virtual memory manager,
and no other CPU would have to be told. -/
structure CanGrow (k : Kernel) : Prop where
  lock : .vmm ∉ k.cpu.held
  idle : k.sh.queueArray ≠ 0 → OthersIdle k

theorem CanGrow.before (h : CanGrow k₁) (heff : HeapEffect k k₁) : CanGrow k := by
  refine ⟨heff.held ▸ h.lock, fun hq => (h.idle ?_).congr heff.sameQueues.symm⟩
  rw [heff.eq]
  exact hq

theorem expandHeapVmem_effect {handle : VMemHandle} {g : Nat} (hheld : .kheap ∈ k.cpu.held)
    (h : (expandHeapVmem handle g).run k = .ok true k') : CanGrow k ∧ MallocEffect k k' := by
  obtain ⟨hfree, ⟨hb, -⟩ | ⟨-, -, -, k₁, hpages, hshoot⟩⟩ := tryExpandWith_cases h
  · cases hb
  · have heff := PagingEffect.of_run hpages
    unfold shootdown at hshoot
    obtain ⟨hq, hidle⟩ := shootdownRange_quiet (kmallocWith_needsHeapLock _)
      (by rw [heff.held]; exact hheld) (run_kassert_bind.1 hshoot).2
    refine ⟨⟨hfree, fun hinit => ?_⟩, MallocEffect.trans ⟨rfl⟩ (heff.malloc.trans hq.malloc)⟩
    have hidle₁ := hidle (by rw [heff.eq]; exact hinit)
    have hidle₀ := hidle₁.congr heff.sameQueues.symm
    exact hidle₀.congr ⟨rfl, rfl, rfl, fun _ => rfl⟩

/-- A critical section of `kmalloc`: it touched only the heap, or it grew the heap, which
takes the lock of the virtual memory manager and needs the other CPUs to be idle. -/
def MallocCase (k k' : Kernel) : Prop :=
  HeapEffect k k' ∨ CanGrow k ∧ MallocEffect k k'

theorem MallocCase.after (h₁ : HeapEffect k k₁) (h₂ : MallocCase k₁ k') : MallocCase k k' := by
  rcases h₂ with h₂ | ⟨hgrow, h₂⟩
  · exact .inl (h₁.trans h₂)
  · exact .inr ⟨hgrow.before h₁, h₁.malloc.trans h₂⟩

theorem tryIncreaseWildernessChunk_effect (hheld : .kheap ∈ k.cpu.held)
    (h : (tryIncreaseWildernessChunk expandHeapVmem n).run k = .ok true k') :
    CanGrow k ∧ MallocEffect k k' := by
  unfold tryIncreaseWildernessChunk at h
  rw [run_kassert_bind, run_get_bind] at h
  obtain ⟨-, h⟩ := h
  split at h
  · cases h
  · rw [run_get_bind] at h
    obtain ⟨granted, t, hexp, h⟩ := run_bind_ok.1 h
    cases granted with
    | false => cases h
    | true =>
      obtain ⟨hfree, heff⟩ := expandHeapVmem_effect hheld hexp
      obtain ⟨_, t', hheap, h⟩ := run_bind_ok.1 h
      cases h
      exact ⟨hfree, heff.trans (HeapEffect.onHeap hheap).malloc⟩

theorem takeWilderness_effect (hheld : .kheap ∈ k.cpu.held)
    (h : (takeWilderness expandHeapVmem found size).run k = .ok u k') : MallocCase k k' := by
  unfold takeWilderness at h
  obtain ⟨b, t, hsplit, h⟩ := run_bind_ok.1 h
  have heff := HeapEffect.onHeap hsplit
  cases b with
  | true =>
    cases h
    exact .inl heff
  | false =>
    obtain ⟨grown, t', hgrow, h⟩ := run_bind_ok.1 h
    cases grown with
    | false => exact (run_throw_ok.1 h).elim
    | true =>
      obtain ⟨hfree, heff'⟩ := tryIncreaseWildernessChunk_effect (heff.held ▸ hheld) hgrow
      obtain ⟨b, t'', hsplit', h⟩ := run_bind_ok.1 h
      cases b with
      | false => exact (run_throw_ok.1 h).elim
      | true =>
        cases h
        exact .after heff (.inr ⟨hfree, heff'.trans (HeapEffect.onHeap hsplit').malloc⟩)

theorem mallocChunk_effect (hheld : .kheap ∈ k.cpu.held)
    (h : (mallocChunk expandHeapVmem n).run k = .ok p k') : MallocCase k k' := by
  unfold mallocChunk at h
  obtain ⟨found, t, hfind, h⟩ := run_bind_ok.1 h
  have heff := HeapEffect.onHeap hfind
  obtain ⟨_, t', htake, h⟩ := run_bind_ok.1 h
  cases h
  unfold takeFound at htake
  rw [run_get_bind] at htake
  split at htake
  · exact .after heff (takeWilderness_effect (heff.held ▸ hheld) htake)
  · exact .after heff (.inl (HeapEffect.onHeap htake))

section

variable (h : (kmalloc n).run k = .ok p k')

include h

theorem kmalloc_case : MallocCase k k' := by
  obtain ⟨-, t, ht, rfl⟩ := run_kmalloc_ok.1 h
  rcases mallocChunk_effect List.mem_cons_self ht with heff | ⟨hgrow, heff⟩
  · left
    constructor
    rw [heff.eq]
    simp [Kernel.unlocked, Kernel.locked]
  · right
    refine ⟨⟨fun hv => hgrow.lock (List.mem_cons_of_mem _ hv), fun hq => ?_⟩, ⟨?_⟩⟩
    · exact (hgrow.idle hq).congr ⟨rfl, rfl, rfl, fun _ => rfl⟩
    · rw [heff.eq]
      simp [Kernel.unlocked, Kernel.locked]

theorem kmalloc_effect : MallocEffect k k' := by
  rcases kmalloc_case h with heff | ⟨-, heff⟩
  · exact heff.malloc
  · exact heff

theorem kmalloc_heapEffect (hheld : .vmm ∈ k.cpu.held) : HeapEffect k k' := by
  rcases kmalloc_case h with heff | ⟨hgrow, -⟩
  · exact heff
  · exact absurd hheld hgrow.lock

/-- So it does if the heap may not grow. -/
theorem kmalloc_heapEffect_of_off {cs : List Chunk} {L : Int → List Nat}
    (hinv : HeapInv k.sh.heap cs L) (hb : HeapBacked k) (hn : n ≤ 2 ^ 63)
    (hoff : k.sh.heap.heap.enableGrowth = false) : HeapEffect k k' := by
  obtain ⟨-, t, ht, rfl⟩ := run_kmalloc_ok.1 h
  have hb' : HeapBacked (k.locked .kheap) := { hb with }
  rcases mallocChunk_ok (k := k.locked .kheap) hinv (le_trans (by decide) hb.upper) hn
    (hb'.expandsHeap List.mem_cons_self) ht with ⟨-, k₁, g, s', -, -, -, hroom, rfl, -⟩ | ⟨-, rfl, -⟩
  · cases hroom with
    | enough => exact ⟨by simp [Kernel.unlocked, Kernel.locked, Kernel.setHeap]⟩
    | grew hon => cases hoff.symm.trans hon
  · exact ⟨by simp [Kernel.unlocked, Kernel.locked]⟩

/-- With another queue active it changes only the heap as well. -/
theorem kmalloc_heapEffect_of_active {self i : Nat} (hq : k.sh.queueArray ≠ 0) (hself : IsSelf self k)
    (hi : i < k.sh.queuesCount) (hactive : (i != self && (k.sh.queues i).active) = true) :
    HeapEffect k k' := by
  rcases kmalloc_case h with heff | ⟨hgrow, -⟩
  · exact heff
  · obtain ⟨self', hself', hidle⟩ := hgrow.idle hq
    obtain rfl := hself.eq hself'
    rw [hidle i hi] at hactive
    cases hactive

end

theorem MallocEffect.kernelData (h : MallocEffect k k') : k'.sh.kernelData = k.sh.kernelData := by
  rw [h.eq]

theorem MallocEffect.held (h : MallocEffect k k') : k'.cpu.held = k.cpu.held := by rw [h.eq]

end GarbageOS
