import GarbageOS.Heap.Alloc
import GarbageOS.Heap.Free
import GarbageOS.Vmm.Expand

/-!
# The kernel heap and its virtual memory

The heap fills the unpadded part of its descriptor, so `try_expand_vmem_top`
gives it exactly the bytes after its end. `HeapBacked` is kept by `kmalloc` and
`kfree`, and with it the facts of `Alloc` hold for `kmalloc` itself.
-/

namespace GarbageOS

open Lib

/-- The heap ends where the upper padding of its descriptor starts, in the
kernel's half of the address space. -/
structure HeapBacked (k : Kernel) : Prop where
  top : k.sh.heap.heap.stop + (k.sh.descs k.sh.heap.heap.heapVmem).upperPadding =
    (k.sh.descs k.sh.heap.heap.heapVmem).startVaddr + (k.sh.descs k.sh.heap.heap.heapVmem).sizeBytes
  fits : (k.sh.descs k.sh.heap.heap.heapVmem).startVaddr +
    (k.sh.descs k.sh.heap.heap.heapVmem).sizeBytes < 2 ^ 64
  upper : kernelVmemStart ≤ k.sh.heap.heap.start

/-- `try_expand_vmem_top` as `kmalloc` calls it. -/
def expandHeapVmem (handle : VMemHandle) (growth : Nat) : KM Bool :=
  tryExpandVmemTopWith (kmallocAt 1) handle growth true

variable {k k' k₁ : Kernel} {cs : List Chunk} {L : Int → List Nat} {n p g : Nat}

/-- Expanding the memory of the heap, with its lock held, changes one padding. -/
theorem expandHeapVmem_granted {handle : VMemHandle} (hheld : .kheap ∈ k.cpu.held)
    (hg : g % pageSize = 0) (h : (expandHeapVmem handle g).run k = .ok true k₁) :
    k₁.sh.heap = k.sh.heap ∧ k₁.cpu.held = k.cpu.held ∧
      g ≤ (k.sh.descs handle).upperPadding ∧
      k₁.sh.descs = Function.update k.sh.descs handle { k.sh.descs handle with
        upperPadding := sub64 (k.sh.descs handle).upperPadding g } := by
  obtain ⟨-, hcase⟩ := tryExpandWith_cases h
  unfold Side.Grants at hcase
  rw [roundUpToPage_eq hg] at hcase
  rcases hcase with ⟨hb, -⟩ | ⟨-, -, hle, k₂, hpages, hshoot⟩
  · cases hb
  · have heff := PagingEffect.of_run hpages
    unfold shootdown at hshoot
    obtain ⟨hq, -⟩ := shootdownRange_quiet (kmallocWith_needsHeapLock _)
      (by rw [heff.held]; exact hheld) (run_kassert_bind.1 hshoot).2
    refine ⟨?_, ?_, hle, ?_⟩
    · rw [hq.heap, heff.heap]; rfl
    · rw [hq.held, heff.held]; rfl
    · rw [hq.descs, heff.descs]; rfl

theorem HeapBacked.expandsHeap (h : HeapBacked k) (hheld : .kheap ∈ k.cpu.held) :
    ExpandsHeap expandHeapVmem k := by
  intro g k₁ hg hrun
  obtain ⟨hheap, -, hle, -⟩ := expandHeapVmem_granted hheld hg hrun
  have := h.top
  have := h.fits
  exact ⟨hheap, by omega⟩

theorem HeapBacked.madeRoom {s' : HeapState} (h : HeapBacked k) (hheld : .kheap ∈ k.cpu.held)
    (hn : n ≤ 2 ^ 63) (hroom : MadeRoom expandHeapVmem k n k₁ g)
    (hext : Extends k.sh.heap.heap s'.heap g) :
    HeapBacked (k₁.setHeap s') ∧ k₁.cpu.held = k.cpu.held := by
  have hstart := hext.start
  have hsize := hext.size
  have htop := h.top
  have hfits := h.fits
  unfold Heap.stop at htop
  cases hroom with
  | enough =>
    refine ⟨⟨?_, ?_, ?_⟩, rfl⟩ <;>
      simp only [Kernel.setHeap, Heap.stop, hext.vmem, hstart, hsize, Nat.add_zero]
    · exact htop
    · exact hfits
    · exact h.upper
  | grew _ hrun =>
    obtain ⟨-, hmod, -⟩ := growthSize_spec hn
    obtain ⟨hheap, hheld', hle, hdescs⟩ := expandHeapVmem_granted hheld hmod hrun
    refine ⟨⟨?_, ?_, ?_⟩, hheld'⟩ <;>
      simp only [Kernel.setHeap, Heap.stop, hext.vmem, hstart, hsize, hdescs, Function.update_self]
    · rw [sub64_eq hle (by omega)]
      omega
    · exact hfits
    · exact h.upper

theorem run_kmalloc_ok : (kmalloc n).run k = .ok p k' ↔
    .kheap ∉ k.cpu.held ∧ ∃ t, (mallocChunk expandHeapVmem n).run (k.locked .kheap) = .ok p t ∧
      k' = t.unlocked .kheap k.cpu.interrupts :=
  run_withLock_ok

theorem kmalloc_ok (h : HeapInv k.sh.heap cs L) (hb : HeapBacked k) (hn : n ≤ 2 ^ 63)
    (hrun : (kmalloc n).run k = .ok p k') :
    HeapBacked k' ∧ (∃ g, Extends k.sh.heap.heap k'.sh.heap.heap g) ∧
    ((FitsRequest k.sh.heap n ∧ ∃ cs' L' c, HeapInv k'.sh.heap cs' L' ∧
        Allocates k.sh.heap k'.sh.heap cs cs' c ∧ n ≤ c.size ∧ p = c.addr + 8) ∨
      (¬ FitsRequest k.sh.heap n ∧ k'.sh.heap = k.sh.heap ∧
        ∃ d ∈ cs, d.free = true ∧ p = d.addr + 8)) := by
  obtain ⟨-, t, ht, rfl⟩ := run_kmalloc_ok.1 hrun
  -- in its critical section `kmalloc` holds the heap lock
  have hheld : .kheap ∈ (k.locked .kheap).cpu.held := List.mem_cons_self
  have hb' : HeapBacked (k.locked .kheap) := { hb with }
  have hlo : 2 ^ 63 ≤ k.sh.heap.heap.start := le_trans (by decide) hb.upper
  obtain ⟨hle, -, -, hround⟩ := roundRequest_spec hn
  rcases mallocChunk_ok (k := k.locked .kheap) h hlo hn (hb'.expandsHeap hheld) ht with
    ⟨hfits, k₁, g, s', cs', L', c, hroom, rfl, hinv, halloc, hsize, hp, hext⟩ | ⟨hfits, rfl, hd⟩
  · obtain ⟨hback, -⟩ := hb'.madeRoom hheld (by omega) hroom hext
    exact ⟨{ hback with }, ⟨g, hext⟩,
      .inl ⟨hfits, cs', L', c, hinv, halloc, hsize ▸ hle, hp⟩⟩
  · exact ⟨⟨hb'.top, hb'.fits, hb'.upper⟩, ⟨0, rfl, rfl, rfl, rfl⟩, .inr ⟨hfits, rfl, hd⟩⟩

theorem kfree_ok {c : Chunk} {u : Unit} (h : HeapInv k.sh.heap cs L) (hb : HeapBacked k)
    (hc : c ∈ cs) (hcf : c.free = false) (hrun : (kfree (c.addr + 8)).run k = .ok u k') :
    HeapBacked k' ∧ Extends k.sh.heap.heap k'.sh.heap.heap 0 ∧ ∃ cs' L', HeapInv k'.sh.heap cs' L' ∧
      Frees k.sh.heap k'.sh.heap cs cs' c := by
  unfold kfree at hrun
  obtain ⟨-, t, ht, rfl⟩ := run_withLock_ok.1 hrun
  obtain ⟨s₁, hs₁, rfl⟩ := run_onHeap_ok.1 ht
  obtain ⟨s', cs', L', hs', hinv, harena, hfrees⟩ := freeChunk_spec h hc hcf
  rw [show (k.locked .kheap).sh.heap = k.sh.heap from rfl, hs'] at hs₁
  cases hs₁
  have hstop : s₁.heap.stop = k.sh.heap.heap.stop := by
    rw [Heap.stop, Heap.stop, harena.start, harena.size]
  refine ⟨⟨?_, ?_, ?_⟩, harena.extends, cs', L', hinv, hfrees⟩
  · simpa [Kernel.setHeap, Kernel.unlocked, Kernel.locked, harena.vmem, hstop] using hb.top
  · simpa [Kernel.setHeap, Kernel.unlocked, Kernel.locked, harena.vmem] using hb.fits
  · simpa [Kernel.setHeap, Kernel.unlocked, Kernel.locked, harena.start] using hb.upper

theorem initializeHeapOn_ok {handle : VMemHandle} {u : Unit}
    (hlow : kernelVmemStart ≤ (k.sh.descs handle).startVaddr)
    (hpad : (k.sh.descs handle).lowerPadding + (k.sh.descs handle).upperPadding ≤
      (k.sh.descs handle).sizeBytes)
    (hfits : (k.sh.descs handle).startVaddr + (k.sh.descs handle).sizeBytes < 2 ^ 64)
    (hrun : (initializeHeapOn handle).run k = .ok u k') :
    HeapBacked k' ∧ ∃ c L, HeapInv k'.sh.heap [c] L := by
  have hstart : getNoPaddingStartAddr (k.sh.descs handle) =
      (k.sh.descs handle).startVaddr + (k.sh.descs handle).lowerPadding :=
    add64_eq (by omega)
  have hsize : getNoPaddingSize (k.sh.descs handle) = (k.sh.descs handle).sizeBytes -
      (k.sh.descs handle).upperPadding - (k.sh.descs handle).lowerPadding := by
    unfold getNoPaddingSize sub64; omega
  unfold initializeHeapOn getVmemAddr getVmemSize at hrun
  rw [bind_assoc, run_readDesc_bind, pure_bind, bind_assoc, run_readDesc_bind, pure_bind]
    at hrun
  obtain ⟨s₁, hs₁, rfl⟩ := run_onHeap_ok.1 hrun.2.2
  have hpos : 0 < kernelVmemStart := by decide
  -- the assertions of `initialize_heap` held, since it returned
  have hok := hs₁
  unfold initializeHeap at hok
  obtain ⟨h128, hok⟩ := run_kassert_bind.1 hok
  obtain ⟨hmod, hok⟩ := run_kassert_bind.1 hok
  obtain ⟨hmod', -⟩ := run_kassert_bind.1 hok
  simp only [decide_eq_true_eq, beq_iff_eq] at h128 hmod hmod'
  obtain ⟨s', c, L, hs', hinv, -, hst, hsz, hvm, -⟩ :=
    @initializeHeap_spec k.sh.heap handle _ _ (by omega) (by omega) h128 hmod hmod'
  rw [hs'] at hs₁
  cases hs₁
  refine ⟨⟨?_, ?_, ?_⟩, c, L, hinv⟩ <;>
    simp only [Kernel.setHeap, Heap.stop, hst, hsz, hvm]
  · omega
  · exact hfits
  · omega

end GarbageOS
