import GarbageOS.Vmm.DescList
import GarbageOS.Vmm.Effects

/-!
# Where descriptors come from

Before the kernel heap is initialised descriptors are taken from a static array, later
from `kmalloc`. On a heap that holds nothing but descriptors every block has 64 bytes
and every chunk that is not the wilderness fills a multiple of 80 bytes, so a request
never meets a chunk that it can neither take whole nor split: a new descriptor is none
of those in use.
-/

namespace GarbageOS

open Lib

/-! ## A heap of descriptors -/

/-- The blocks of the heap have 64 bytes and start on a grid of 80 bytes. -/
structure DescHeap (s : HeapState) (cs : List Chunk) (L : Int → List Nat) : Prop
    extends HeapInv s cs L where
  high : 2 ^ 63 ≤ s.heap.start
  grid : ∀ c ∈ cs, c.free = false → c.size = 64 ∧ c.addr % 80 = s.heap.start % 80

section

variable {s s' : HeapState} {cs cs' : List Chunk} {L L' : Int → List Nat} {c d : Chunk}

/-- The chunks between the blocks start on the grid and, the wilderness apart, end there. -/
theorem DescHeap.free_grid (h : DescHeap s cs L) (hd : d ∈ cs) (hf : d.free = true) :
    d.addr % 80 = s.heap.start % 80 ∧ (d.wild = false → (d.size + 16) % 80 = 0) := by
  have hstart : d.addr % 80 = s.heap.start % 80 := by
    rcases h.tiles.exists_prev hd with he | ⟨c, hc, he⟩
    · rw [he]
    · have hused : c.free = false := by
        cases hcf : c.free with
        | false => rfl
        | true => exact (h.coalesced c hc d hd he hcf hf).elim
      obtain ⟨hsize, haddr⟩ := h.grid c hc hused
      unfold Chunk.stop at he
      omega
  refine ⟨hstart, fun hw => ?_⟩
  rcases h.tiles.exists_next hd with he | ⟨c, hc, he⟩
  · rw [(h.wild d hd).2 he] at hw; cases hw
  · have hused : c.free = false := by
      cases hcf : c.free with
      | false => rfl
      | true => exact (h.coalesced d hd c hc he.symm hf hcf).elim
    obtain ⟨-, haddr⟩ := h.grid c hc hused
    unfold Chunk.stop at he
    omega

theorem DescHeap.fitsRequest (h : DescHeap s cs L) : FitsRequest s 64 := by
  have hround : roundRequest 64 = 64 := by decide
  obtain ⟨d, hd, hf, -, hcand, -⟩ := findChunk_spec h.toHeapInv (n := 64) (by decide)
  refine (fitsRequest_iff h.toHeapInv hd (by rw [hround]; exact hcand)).2 ?_
  cases hw : d.wild with
  | true => exact .inl rfl
  | false =>
    have hgrid := (h.free_grid hd hf).2 hw
    right
    unfold Chunk.Serves
    rw [hround]
    omega

theorem DescHeap.allocates {g : Nat} (h : DescHeap s cs L) (hinv : HeapInv s' cs' L')
    (ha : Allocates s s' cs cs' c) (hsize : c.size = 64) (hext : Extends s.heap s'.heap g) :
    DescHeap s' cs' L' where
  toHeapInv := hinv
  high := hext.start ▸ h.high
  grid x hx hxf := by
    rw [hext.start]
    rcases (ha.blocks x hxf).1 hx with rfl | hx
    · obtain ⟨d, hd, hdf, hda⟩ := ha.taken
      exact ⟨hsize, hda ▸ (h.free_grid hd hdf).1⟩
    · exact h.grid x hx hxf

theorem DescHeap.frees (h : DescHeap s cs L) (hinv : HeapInv s' cs' L')
    (hblocks : ∀ d, d.free = false → d ∈ cs' → d ∈ cs) (harena : SameArena s.heap s'.heap) :
    DescHeap s' cs' L' where
  toHeapInv := hinv
  high := harena.start ▸ h.high
  grid x hx hxf := by
    rw [harena.start]
    exact h.grid x (hblocks x hxf hx) hxf

end

section

variable {k k' : Kernel} {cs : List Chunk} {L : Int → List Nat} {p : Nat} {c : Chunk} {u : Unit}

theorem kmalloc_descHeap (h : DescHeap k.sh.heap cs L) (hheld : .vmm ∈ k.cpu.held)
    (hrun : (kmalloc 64).run k = .ok p k') :
    ∃ cs' L' c, DescHeap k'.sh.heap cs' L' ∧ c ∈ cs' ∧ c.free = false ∧ p = c.addr + 8 ∧
      ∀ d ∈ cs, d.free = false → d ∈ cs' ∧ d.addr ≠ c.addr := by
  obtain ⟨-, t, ht, rfl⟩ := run_kmalloc_ok.1 hrun
  -- the lock of the virtual memory manager is held: the heap can not grow
  have hex : ExpandsHeap expandHeapVmem (k.locked .kheap) := fun g k₁ _ hexp =>
    ((tryExpandWith_cases hexp).1 (List.mem_cons_of_mem _ hheld)).elim
  rcases mallocChunk_ok (k := k.locked .kheap) h.toHeapInv h.high (by decide) hex ht with
    ⟨-, k₁, g, s', cs', L', c, hroom, rfl, hinv, halloc, hsize, hp, hext⟩ | ⟨hfits, -⟩
  · refine ⟨cs', L', c, h.allocates hinv halloc (hsize.trans (by decide)) hext, ?_,
      halloc.allocated, hp, fun d hd hdf => ⟨(halloc.blocks d hdf).2 (.inr hd), fun e => ?_⟩⟩
    · exact (halloc.blocks c halloc.allocated).2 (.inl rfl)
    · obtain ⟨x, hx, hxf, hxa⟩ := halloc.taken
      have hxd : d = x := by
        have h1 := d.addr_le_stop
        have h2 := x.addr_le_stop
        rcases h.apart d hd x hx with he | he | he
        · exact he
        all_goals omega
      rw [hxd, hxf] at hdf
      cases hdf
  · exact (hfits h.fitsRequest).elim

theorem keeps_heapEffect_kfree (a : Nat) : Keeps HeapEffect (kfree a) := by
  intro k _ k' hrun
  unfold kfree at hrun
  obtain ⟨-, t, ht, rfl⟩ := run_withLock_ok.1 hrun
  obtain ⟨s', -, rfl⟩ := run_onHeap_ok.1 ht
  constructor
  simp [Kernel.unlocked, Kernel.locked, Kernel.setHeap]

theorem kfree_runs (h : DescHeap k.sh.heap cs L) (hc : c ∈ cs) (hcf : c.free = false)
    (hheld : .kheap ∉ k.cpu.held) : ∃ k' cs' L', (kfree (c.addr + 8)).run k = .ok () k' ∧
      DescHeap k'.sh.heap cs' L' ∧ ∀ d ∈ cs, d.free = false → d ≠ c → d ∈ cs' := by
  obtain ⟨s', cs', L', hs', hinv, harena, hfrees⟩ := freeChunk_spec h.toHeapInv hc hcf
  have hrun : (kfree (c.addr + 8)).run k =
      .ok () (((k.locked .kheap).setHeap s').unlocked .kheap k.cpu.interrupts) :=
    run_withLock_ok.2 ⟨hheld, _, run_onHeap_ok.2 ⟨s', hs', rfl⟩, rfl⟩
  refine ⟨_, cs', L', hrun, h.frees hinv (fun d hdf hd => ?_) harena, fun d hd hdf hdc => ?_⟩
  · exact ((hfrees.blocks d hdf).1 hd).1
  · exact (hfrees.blocks d hdf).2 ⟨hd, hdc⟩

end

/-! ## Descriptors in use -/

/-- The descriptors `ps` are in use: none of them is the next one to be given out. -/
structure DescPool (sh : Shared) (ps : List DescPtr) : Prop where
  early : ∀ i, .early i ∈ ps → i < sh.nextFreeDescriptor
  static : sh.kheapInitialized = false → ∀ a, .heap a ∉ ps
  heap : sh.kheapInitialized = true → ∃ cs L, DescHeap sh.heap cs L ∧
    ∀ a, .heap a ∈ ps → ∃ c ∈ cs, c.free = false ∧ a = c.addr + 8

/-- What allocating and linking descriptors changes. -/
structure DescEffect (k k' : Kernel) : Prop where
  eq : k' =
    { k with
      sh := { k.sh with
        heap := k'.sh.heap, descs := k'.sh.descs, nextFreeDescriptor := k'.sh.nextFreeDescriptor
        vmm := { k.sh.vmm with vmListHead := k'.sh.vmm.vmListHead } } }

theorem DescEffect.trans {k₁ k₂ k₃ : Kernel} (h₁ : DescEffect k₁ k₂) (h₂ : DescEffect k₂ k₃) :
    DescEffect k₁ k₃ :=
  ⟨h₂.eq.trans (by rw [h₁.eq])⟩

section

variable {k k' : Kernel} {ps qs : List DescPtr} {p : DescPtr} {u : Unit}

theorem DescEffect.held (h : DescEffect k k') : k'.cpu.held = k.cpu.held := by rw [h.eq]

theorem HeapEffect.desc (h : HeapEffect k k') : DescEffect k k' := ⟨by rw [h.eq]⟩

theorem DescEffect.setDesc (k : Kernel) (p : DescPtr) (d : VirtualMemoryDescriptor) :
    DescEffect k (k.setDesc p d) := ⟨rfl⟩

theorem DescEffect.setHead (k : Kernel) (p : DescPtr) : DescEffect k (k.setHead p) := ⟨rfl⟩

theorem DescPool.mono (h : DescPool k.sh ps) (hsub : ∀ q ∈ qs, q ∈ ps) : DescPool k.sh qs where
  early i hi := h.early i (hsub _ hi)
  static hk a ha := h.static hk a (hsub _ ha)
  heap hk := by
    obtain ⟨cs, L, hd, hblocks⟩ := h.heap hk
    exact ⟨cs, L, hd, fun a ha => hblocks a (hsub _ ha)⟩

def freshDesc (descs : DescPtr → VirtualMemoryDescriptor) (p : DescPtr) : VirtualMemoryDescriptor :=
  { descs p with isFromHeap := p.isHeap, lowerPadding := 0, upperPadding := 0 }

theorem run_allocateVmemDescriptor_ok (hpool : DescPool k.sh ps) (hheld : .vmm ∈ k.cpu.held)
    (h : allocateVmemDescriptor.run k = .ok p k') :
    p ≠ .null ∧ p ∉ ps ∧ DescPool k'.sh (p :: ps) ∧ DescEffect k k' ∧
      k'.sh.vmm = k.sh.vmm ∧
      k'.sh.descs = Function.update k.sh.descs p (freshDesc k.sh.descs p) := by
  unfold allocateVmemDescriptor isKheapInitialized at h
  rw [run_gets_bind] at h
  split at h
  · next hinit =>
    obtain ⟨a, k₁, hmalloc, h⟩ := run_bind_ok.1 h
    have heff := kmalloc_heapEffect hmalloc hheld
    rw [run_modifyDesc_bind] at h
    obtain ⟨hne, h⟩ := h
    cases h
    obtain ⟨cs, L, hheap, hblocks⟩ := hpool.heap hinit
    obtain ⟨cs', L', c, hheap', hc, hcf, rfl, hkept⟩ := kmalloc_descHeap hheap hheld hmalloc
    refine ⟨hne, fun hmem => ?_, ⟨fun i hi => ?_, fun hk => ?_, fun _ => ?_⟩,
      heff.desc.trans (DescEffect.setDesc _ _ _), by rw [heff.eq]; rfl, by rw [heff.eq]; rfl⟩
    · obtain ⟨d, hd, hdf, hda⟩ := hblocks _ hmem
      exact (hkept d hd hdf).2 (by omega)
    · have hi' : .early i ∈ ps := by simpa using hi
      have := hpool.early i hi'
      rw [heff.eq]
      exact this
    · rw [heff.eq] at hk
      exact absurd (hinit.symm.trans hk) (by decide)
    · refine ⟨cs', L', hheap', fun a ha => ?_⟩
      rcases List.mem_cons.1 ha with he | ha
      · cases he
        exact ⟨c, hc, hcf, rfl⟩
      · obtain ⟨d, hd, hdf, rfl⟩ := hblocks a ha
        exact ⟨d, (hkept d hd hdf).1, hdf, rfl⟩
  · next hinit =>
    rw [run_get_bind, run_check_bind, run_modifyShared_bind, run_modifyDesc_bind] at h
    obtain ⟨-, hne, h⟩ := h
    cases h
    have hinit' : k.sh.kheapInitialized = false := by simpa using hinit
    refine ⟨hne, fun hmem => ?_, ⟨fun i hi => ?_, fun _ a ha => ?_, fun hk => ?_⟩,
      ⟨rfl⟩, rfl, rfl⟩
    · exact Nat.lt_irrefl _ (hpool.early _ hmem)
    · show i < k.sh.nextFreeDescriptor + 1
      rcases List.mem_cons.1 hi with he | hi
      · cases he
        exact Nat.lt_succ_self _
      · exact Nat.lt_succ_of_lt (hpool.early i hi)
    · have ha' : .heap a ∈ ps := by simpa using ha
      exact hpool.static hinit' a ha'
    · exact absurd (hinit'.symm.trans hk) (by decide)

theorem deallocateVmmDescriptor_runs (hpool : DescPool k.sh ps) (hp : p ∈ ps) (hp0 : p ≠ .null)
    (horigin : (k.sh.descs p).isFromHeap = p.isHeap) (hheld : .kheap ∉ k.cpu.held) :
    ∃ k', (deallocateVmmDescriptor p).run k = .ok () k' ∧ HeapEffect k k' ∧
      ∀ qs : List DescPtr, (∀ q ∈ qs, q ∈ ps ∧ q ≠ p) → DescPool k'.sh qs := by
  unfold deallocateVmmDescriptor
  simp only [run_readDesc_bind, horigin]
  cases p with
  | null => exact (hp0 rfl).elim
  | early i => exact ⟨k, ⟨hp0, rfl⟩, ⟨rfl⟩, fun qs hqs => hpool.mono fun q hq => (hqs q hq).1⟩
  | heap a =>
    have hinit : k.sh.kheapInitialized = true := by
      cases hk : k.sh.kheapInitialized with
      | true => rfl
      | false => exact (hpool.static hk a hp).elim
    obtain ⟨cs, L, hheap, hblocks⟩ := hpool.heap hinit
    obtain ⟨c, hc, hcf, rfl⟩ := hblocks a hp
    obtain ⟨k', cs', L', hrun, hheap', hkept⟩ := kfree_runs hheap hc hcf hheld
    have heff := keeps_heapEffect_kfree _ hrun
    refine ⟨k', ⟨hp0, hrun⟩, heff, fun qs hqs => ⟨fun i hi => ?_, fun hk b hb => ?_, fun _ => ?_⟩⟩
    · rw [heff.eq]
      exact hpool.early i (hqs _ hi).1
    · rw [heff.eq] at hk
      exact hpool.static hk b (hqs _ hb).1
    · refine ⟨cs', L', hheap', fun b hb => ?_⟩
      obtain ⟨hbps, hbne⟩ := hqs _ hb
      obtain ⟨d, hd, hdf, rfl⟩ := hblocks b hbps
      exact ⟨d, hkept d hd hdf fun e => hbne (by rw [e]), hdf, rfl⟩

end

end GarbageOS
