import GarbageOS.Heap.Growth
import GarbageOS.Lib.Runs

/-!
# Runs of `kmalloc` and `kfree`

The heap is well formed in every state that calls of `kmalloc` and `kfree`
reach, and the blocks a client holds are sound as long as each request finds a
chunk that serves it.
-/

namespace GarbageOS

variable {k k' : Kernel} {cs : List Chunk} {c : HeapClient}

open Lib Relation

/-- A kernel whose heap `initialize_heap` has just set up, on a descriptor of
the kernel partition. -/
inductive StartsHeap : Kernel → Prop where
  | initialized {k₀ k : Kernel} {handle : VMemHandle}
      (hlow : kernelVmemStart ≤ (k₀.sh.descs handle).startVaddr)
      (hpad : (k₀.sh.descs handle).lowerPadding + (k₀.sh.descs handle).upperPadding ≤
        (k₀.sh.descs handle).sizeBytes)
      (hfits : (k₀.sh.descs handle).startVaddr + (k₀.sh.descs handle).sizeBytes < 2 ^ 64)
      (hrun : (initializeHeapOn handle).run k₀ = .ok () k) : StartsHeap k

theorem StartsHeap.inv (h : StartsHeap k) : HeapBacked k ∧ ∃ c L, HeapInv k.sh.heap [c] L := by
  cases h with
  | initialized hlow hpad hfits hrun => exact initializeHeapOn_ok hlow hpad hfits hrun

theorem run_enableKheapGrowth_ok {u : Unit} (hrun : enableKheapGrowth.run k = .ok u k') :
    k'.sh.descs = k.sh.descs ∧ k'.sh.heap =
      { k.sh.heap with heap := { k.sh.heap.heap with enableGrowth := true } } := by
  unfold enableKheapGrowth at hrun
  obtain ⟨-, t, ht, rfl⟩ := run_withLock_ok.1 hrun
  obtain ⟨s', hs', rfl⟩ := run_onHeap_ok.1 ht
  rw [run_modifyHeap] at hs'
  cases hs'
  exact ⟨rfl, rfl⟩

theorem enableKheapGrowth_ok {L : Int → List Nat} {u : Unit} (h : HeapInv k.sh.heap cs L)
    (hb : HeapBacked k) (hrun : enableKheapGrowth.run k = .ok u k') :
    HeapBacked k' ∧ HeapInv k'.sh.heap cs L := by
  obtain ⟨hdescs, hheap⟩ := run_enableKheapGrowth_ok hrun
  rw [hheap]
  exact ⟨⟨by rw [hheap, hdescs]; exact hb.top, by rw [hheap, hdescs]; exact hb.fits,
      by rw [hheap]; exact hb.upper⟩,
    ⟨⟨⟨h.inMem, h.wild, h.wilderness, h.coalesced,
      h.lists.frame rfl fun _ _ _ => ⟨rfl, rfl, rfl⟩, h.listed⟩, h.tiles, h.nonempty⟩, h.count⟩⟩

/-! ## The representation invariant -/

def chunkEnd (m : Mem) (header : Nat) : Nat := header + 8 + getFixedHeapChunkSize m header + 8

/-- `hs` are the headers met walking over the chunks from `a` to `e`. -/
def Walks (m : Mem) (a : Nat) (hs : List Nat) (e : Nat) : Prop := Tiles id (chunkEnd m) a hs e

instance (m : Mem) (a : Nat) (hs : List Nat) (e : Nat) : Decidable (Walks m a hs e) :=
  decidableTiles a hs e

/-- The chunk with this header is met walking over the heap, and is not free. -/
def IsAllocated (s : HeapState) (header : Nat) : Prop :=
  ∃ hs, Walks s.mem s.heap.start hs s.heap.stop ∧ header ∈ hs ∧
    getHeapChunkFlag s.mem header heapFreeChunk = false

/-- The representation invariant of the heap, as the accessors of `heap.c` see
it: `hs` are the chunk headers from the start of the heap to its end. -/
structure HeapRep (s : HeapState) (hs : List Nat) : Prop where
  tiles : Walks s.mem s.heap.start hs (s.heap.start + s.heap.size)
  sizes : ∀ h ∈ hs, getFixedHeapChunkSize s.mem h % 8 = 0 ∧ 16 ≤ getFixedHeapChunkSize s.mem h ∧
    load s.mem (getHeapChunkFooterFromHeader s.mem h) = getFixedHeapChunkSize s.mem h
  wilderness : ∃ pre, hs = pre ++ [s.heap.wildernessChunk] ∧
    (∀ h ∈ pre, getHeapChunkFlag s.mem h heapWildernessChunk = false) ∧
    getHeapChunkFlag s.mem s.heap.wildernessChunk heapWildernessChunk = true ∧
    getHeapChunkFlag s.mem s.heap.wildernessChunk heapFreeChunk = true
  coalesced : ∀ a ∈ hs, ∀ b ∈ hs, chunkEnd s.mem a = b →
    ¬ (getHeapChunkFlag s.mem a heapFreeChunk = true ∧ getHeapChunkFlag s.mem b heapFreeChunk = true)
  count : s.heap.numberOfChunks = hs.length
  /-- Each bucket is a doubly linked list of exactly the free chunks that belong in it. -/
  buckets : ∀ i : Int, 0 ≤ i → i < bucketsCount → ∃ xs : List Nat,
    s.heap.freeBuckets i = xs.headD 0 ∧ Segment (nextOf s.mem) (prevOf s.mem) 0 xs 0 ∧ xs.Nodup ∧
    ∀ a, a ∈ xs ↔ a ∈ hs ∧ getHeapChunkFlag s.mem a heapFreeChunk = true ∧
      getBucketIndexFromHeader s.mem a = i

section

variable {s : HeapState} {cs : List Chunk} {L : Int → List Nat}
  {m : Mem} {a e : Nat} {hs : List Nat}

theorem Chunk.chunkEnd_eq {c : Chunk} (h : c.InMem m) : chunkEnd m c.addr = c.stop := by
  rw [chunkEnd, Chunk.size_eq h.header, Chunk.stop]

theorem walks_of_tiles (hm : ∀ c ∈ cs, c.InMem m) (h : ChunkTiles a cs e) :
    Walks m a (cs.map Chunk.addr) e := by
  induction cs generalizing a with
  | nil => exact h
  | cons c cs ih =>
    obtain ⟨ha, h⟩ := h
    have hrest := ih (fun d hd => hm d (List.mem_cons_of_mem _ hd)) h
    rw [← Chunk.chunkEnd_eq (hm c List.mem_cons_self)] at hrest
    exact ⟨ha, hrest⟩

theorem Walks.le (h : Walks m a hs e) : a ≤ e :=
  (Tiles.bounds h fun x _ => by unfold chunkEnd; simp only [id]; omega).1

theorem Walks.lt_of_cons {x : Nat} (h : Walks m a (x :: hs) e) : a < e := by
  obtain ⟨rfl, h⟩ := h
  have := Walks.le h
  unfold chunkEnd at this
  simp only [id]
  omega

theorem Walks.unique {hs' : List Nat} (h : Walks m a hs e) (h' : Walks m a hs' e) : hs = hs' := by
  induction hs generalizing a hs' with
  | nil =>
    cases hs' with
    | nil => rfl
    | cons x xs => exact absurd h h'.lt_of_cons.ne
  | cons x xs ih =>
    cases hs' with
    | nil => exact absurd h' h.lt_of_cons.ne
    | cons y ys =>
      obtain ⟨hx, h⟩ := h
      obtain ⟨hy, h'⟩ := h'
      obtain rfl : x = y := hx.trans hy.symm
      rw [ih h h']

theorem HeapInv.rep (h : HeapInv s cs L) : HeapRep s (cs.map Chunk.addr) where
  tiles := walks_of_tiles h.inMem h.tiles
  sizes a ha := by
    obtain ⟨c, hc, rfl⟩ := List.mem_map.1 ha
    have hm := h.inMem c hc
    rw [Chunk.footer_eq hm.header, Chunk.size_eq hm.header]
    exact ⟨c.size_mod, c.size_min, hm.footer⟩
  wilderness := by
    obtain ⟨pre, w, rfl, hw, hf, ha, hstop⟩ := h.exists_wilderness
    have hm := (h.inMem w (by simp)).header
    refine ⟨pre.map Chunk.addr, by simp [ha], fun a hpre => ?_, ?_, ?_⟩
    · obtain ⟨c, hc, rfl⟩ := List.mem_map.1 hpre
      rw [Chunk.flag_wild (h.inMem c (by simp [hc])).header, Bool.eq_false_iff]
      intro hcw
      -- only the last chunk ends at the end of the heap
      have h1 := (h.wild c (by simp [hc])).1 hcw
      have h2 := (ChunkTiles.around h.tiles).1 c hc
      have := w.addr_le_stop
      omega
    · rw [← ha, Chunk.flag_wild hm, hw]
    · rw [← ha, Chunk.flag_free hm, hf]
  coalesced a ha b hb := by
    obtain ⟨c, hc, rfl⟩ := List.mem_map.1 ha
    obtain ⟨d, hd, rfl⟩ := List.mem_map.1 hb
    rw [Chunk.chunkEnd_eq (h.inMem c hc), Chunk.flag_free (h.inMem c hc).header,
      Chunk.flag_free (h.inMem d hd).header]
    rintro hstop ⟨hcf, hdf⟩
    exact h.coalesced c hc d hd hstop hcf hdf
  count := by rw [h.count, List.length_map]
  buckets i h0 h1 := by
    refine ⟨L i, h.lists.head i h0 h1, h.lists.segment i, h.lists.nodup i, fun a => ?_⟩
    rw [h.listed i a]
    constructor
    · rintro ⟨c, hc, hf, hb, rfl⟩
      have hm := (h.inMem c hc).header
      rw [Chunk.flag_free hm, Chunk.bucket_eq hm]
      exact ⟨List.mem_map_of_mem hc, hf, hb⟩
    · rintro ⟨ha, hf, hb⟩
      obtain ⟨c, hc, rfl⟩ := List.mem_map.1 ha
      have hm := (h.inMem c hc).header
      rw [Chunk.flag_free hm] at hf
      rw [Chunk.bucket_eq hm] at hb
      exact ⟨c, hc, hf, hb, rfl⟩

end

/-- A call that returns, of a client that frees only allocated chunks. -/
inductive ChunkStep : Kernel → Kernel → Prop where
  | malloc {k k' : Kernel} {n p : Nat} (hn : n ≤ 2 ^ 32) (hrun : (kmalloc n).run k = .ok p k') :
      ChunkStep k k'
  | free {k k' : Kernel} {hs : List Nat} {header : Nat}
      (hwalk : Walks k.sh.heap.mem k.sh.heap.heap.start hs k.sh.heap.heap.stop)
      (hmem : header ∈ hs) (halloc : getHeapChunkFlag k.sh.heap.mem header heapFreeChunk = false)
      (hrun : (kfree (getHeapChunkUserData header)).run k = .ok () k') : ChunkStep k k'
  | growth {k k' : Kernel} (hrun : enableKheapGrowth.run k = .ok () k') : ChunkStep k k'

theorem ChunkStep.inv (h : ChunkStep k k') (hi : HeapBacked k ∧ ∃ cs L, HeapInv k.sh.heap cs L) :
    HeapBacked k' ∧ ∃ cs L, HeapInv k'.sh.heap cs L := by
  obtain ⟨hb, cs, L, hinv⟩ := hi
  cases h with
  | malloc hn hrun =>
    obtain ⟨hb', -, ⟨-, cs', L', c, hinv', -⟩ | ⟨-, hsame, -⟩⟩ :=
      kmalloc_ok hinv hb (hn.trans (by decide)) hrun
    · exact ⟨hb', cs', L', hinv'⟩
    · exact ⟨hb', cs, L, hsame ▸ hinv⟩
  | free hwalk hmem halloc hrun =>
    rw [hwalk.unique (walks_of_tiles hinv.inMem hinv.tiles)] at hmem
    obtain ⟨c, hc, rfl⟩ := List.mem_map.1 hmem
    rw [Chunk.flag_free (hinv.inMem c hc).header] at halloc
    rw [Chunk.userData_eq] at hrun
    obtain ⟨hb', -, cs', L', hinv', -⟩ := kfree_ok hinv hb hc halloc hrun
    exact ⟨hb', cs', L', hinv'⟩
  | growth hrun =>
    obtain ⟨hb', hinv'⟩ := enableKheapGrowth_ok hinv hb hrun
    exact ⟨hb', cs, L, hinv'⟩

theorem chunks_of_run {k₀ k : Kernel} (h₀ : StartsHeap k₀) (hrun : ReflTransGen ChunkStep k₀ k) :
    HeapBacked k ∧ ∃ cs L, HeapInv k.sh.heap cs L := by
  obtain ⟨hb, c, L, hinv⟩ := h₀.inv
  obtain ⟨hb', hinv'⟩ := invariant_of_steps (fun _ _ hstep => hstep.inv) hrun
    (show _ ∧ ∃ cs L, HeapInv k₀.sh.heap cs L from ⟨hb, [c], L, hinv⟩)
  exact ⟨hb', hinv'⟩

/-- The representation invariant holds in every state that `kmalloc` and `kfree`
calls reach from `initialize_heap`. -/
theorem heap_rep_of_run {k₀ k : Kernel} (h₀ : StartsHeap k₀) (hrun : ReflTransGen ChunkStep k₀ k) :
    ∃ hs, HeapRep k.sh.heap hs := by
  obtain ⟨-, cs, L, hinv⟩ := chunks_of_run h₀ hrun
  exact ⟨_, hinv.rep⟩

def smallDescriptor : VirtualMemoryDescriptor :=
  ⟨kernelVmemStart, 3 * pageSize, 0, pageSize, .heap, .null, .null, false⟩

def smallHeap : Kernel :=
  finalState ((initializeHeapOn (.early 0)).run (staticKernel.setDesc (.early 0) smallDescriptor))

theorem smallHeap_starts : StartsHeap smallHeap :=
  @StartsHeap.initialized (staticKernel.setDesc (.early 0) smallDescriptor) _ (.early 0)
    (by decide) (by decide) (by decide) (eq_of_returned (by decide +kernel))

def afterMalloc (n : Nat) (k : Kernel) : Kernel := finalState ((kmalloc n).run k)

def afterFree (p : Nat) (k : Kernel) : Kernel := finalState ((kfree p).run k)

theorem ChunkStep.afterMalloc {n p : Nat} (hn : n ≤ 2 ^ 32)
    (h : returned ((kmalloc n).run k) = some p) : ChunkStep k (afterMalloc n k) :=
  .malloc hn (eq_of_returned h)

theorem ChunkStep.afterFree {header : Nat} (halloc : IsAllocated k.sh.heap header)
    (h : returned ((kfree (getHeapChunkUserData header)).run k) = some ()) :
    ChunkStep k (afterFree (getHeapChunkUserData header) k) := by
  obtain ⟨hs, hwalk, hmem, hflag⟩ := halloc
  exact .free hwalk hmem hflag (eq_of_returned h)

/-- Two blocks, of 56 and of 16 bytes. -/
def twoMallocs : Kernel := afterMalloc 16 (afterMalloc 56 smallHeap)

/-- The first one is given back: its chunk is free between others. -/
def holedHeap : Kernel := afterFree (kernelVmemStart + 4104) twoMallocs

/-- The headers of both heaps. -/
def threeHeaders : List Nat :=
  [kernelVmemStart + 4096, kernelVmemStart + 4168, kernelVmemStart + 4200]

theorem twoMallocs_reached : ReflTransGen ChunkStep smallHeap twoMallocs :=
  .tail (.single (.afterMalloc (p := kernelVmemStart + 4104) (by decide) (by decide +kernel)))
    (.afterMalloc (p := kernelVmemStart + 4176) (by decide) (by decide +kernel))

theorem twoMallocs_allocated : IsAllocated twoMallocs.sh.heap (kernelVmemStart + 4096) ∧
    IsAllocated twoMallocs.sh.heap (kernelVmemStart + 4168) :=
  ⟨⟨threeHeaders, by decide +kernel⟩, ⟨threeHeaders, by decide +kernel⟩⟩

theorem holedHeap_step : ChunkStep twoMallocs holedHeap :=
  @ChunkStep.afterFree twoMallocs (kernelVmemStart + 4096) twoMallocs_allocated.1 (by decide +kernel)

theorem heap_rep_holedHeap : ∃ hs, HeapRep holedHeap.sh.heap hs :=
  heap_rep_of_run smallHeap_starts (.tail twoMallocs_reached holedHeap_step)

/-! ## The blocks a client holds -/

/-- The kernel, and the blocks a client holds: each pointer with the size it asked for. -/
structure HeapClient where
  kernel : Kernel
  live : List (Nat × Nat)

/-- A call of a client that returns. `P` restricts the requests it makes. -/
inductive ClientStep (P : HeapState → Nat → Prop) : HeapClient → HeapClient → Prop where
  | malloc {k k' : Kernel} {live : List (Nat × Nat)} {n p : Nat} (hn : n ≤ 2 ^ 32)
      (hP : P k.sh.heap n) (hrun : (kmalloc n).run k = .ok p k') :
      ClientStep P ⟨k, live⟩ ⟨k', (p, n) :: live⟩
  | free {k k' : Kernel} {live : List (Nat × Nat)} {n p : Nat} (hlive : (p, n) ∈ live)
      (hrun : (kfree p).run k = .ok () k') : ClientStep P ⟨k, live⟩ ⟨k', live.erase (p, n)⟩
  | growth {k k' : Kernel} {live : List (Nat × Nat)} (hrun : enableKheapGrowth.run k = .ok () k') :
      ClientStep P ⟨k, live⟩ ⟨k', live⟩

/-- The states a client reaches from a heap that was just initialised. -/
def ClientRun (P : HeapState → Nat → Prop) (c : HeapClient) : Prop :=
  ∃ k₀, StartsHeap k₀ ∧ ReflTransGen (ClientStep P) ⟨k₀, []⟩ c

/-- A pointer `b.1` that was returned for a request of `b.2` bytes. -/
structure BlockOk (s : HeapState) (b : Nat × Nat) : Prop where
  aligned : b.1 % 8 = 0
  inside : s.heap.start ≤ getHeapChunkFromUserData b.1 ∧
    chunkEnd s.mem (getHeapChunkFromUserData b.1) ≤ s.heap.start + s.heap.size
  size : b.2 ≤ getFixedHeapChunkSize s.mem (getHeapChunkFromUserData b.1)
  allocated : getHeapChunkFlag s.mem (getHeapChunkFromUserData b.1) heapFreeChunk = false
  unlisted : ∀ i : Int, 0 ≤ i → i < bucketsCount →
    getHeapChunkFromUserData b.1 ∉ bucketList s i

def BlocksApart (s : HeapState) (b b' : Nat × Nat) : Prop :=
  b.1 + getFixedHeapChunkSize s.mem (getHeapChunkFromUserData b.1) ≤ b'.1 ∨
    b'.1 + getFixedHeapChunkSize s.mem (getHeapChunkFromUserData b'.1) ≤ b.1

/-- Every live block is sound, and no two of them overlap. -/
def BlocksOk (c : HeapClient) : Prop :=
  (∀ b ∈ c.live, BlockOk c.kernel.sh.heap b) ∧ c.live.Pairwise (BlocksApart c.kernel.sh.heap)

/-- Every live block is an allocated chunk, each its own. -/
structure ClientInv (c : HeapClient) (cs : List Chunk) (L : Int → List Nat) : Prop where
  heap : HeapInv c.kernel.sh.heap cs L
  backed : HeapBacked c.kernel
  live : ∀ b ∈ c.live, ∃ x ∈ cs, x.free = false ∧ b.1 = x.addr + 8 ∧ b.2 ≤ x.size
  distinct : (c.live.map Prod.fst).Nodup

theorem ClientStep.inv {c' : HeapClient} (h : ClientStep FitsRequest c c')
    (hi : ∃ cs L, ClientInv c cs L) : ∃ cs L, ClientInv c' cs L := by
  obtain ⟨cs, L, hinv, hback, hlive, hdist⟩ := hi
  cases h with
  | malloc hn hP hrun =>
    obtain ⟨hb, -, ⟨-, cs', L', x, hinv', halloc, hsize, rfl⟩ | ⟨hno, -⟩⟩ :=
      kmalloc_ok hinv hback (hn.trans (by decide)) hrun
    · refine ⟨cs', L', hinv', hb, fun b hb' => ?_, List.nodup_cons.2 ⟨fun hmem => ?_, hdist⟩⟩
      · rcases List.mem_cons.1 hb' with rfl | hb'
        · exact ⟨x, (halloc.blocks x halloc.allocated).2 (.inl rfl), halloc.allocated, rfl, hsize⟩
        · obtain ⟨y, hy, hyf, hya, hys⟩ := hlive b hb'
          exact ⟨y, (halloc.blocks y hyf).2 (.inr hy), hyf, hya, hys⟩
      · -- the new block is at the address of a chunk that was free
        obtain ⟨b, hb', he⟩ := List.mem_map.1 hmem
        obtain ⟨y, hy, hyf, hya, -⟩ := hlive b hb'
        obtain ⟨d, hd, hdf, hda⟩ := halloc.taken
        obtain rfl := hinv.eq_of_addr hd hy (by omega)
        rw [hdf] at hyf
        cases hyf
    · exact (hno hP).elim
  | free hmem hrun =>
    obtain ⟨x, hx, hxf, hxa, -⟩ := hlive _ hmem
    obtain rfl := hxa
    obtain ⟨hb, -, cs', L', hinv', hfrees⟩ := kfree_ok hinv hback hx hxf hrun
    refine ⟨cs', L', hinv', hb, fun b hb' => ?_, hdist.sublist (List.erase_sublist.map _)⟩
    obtain ⟨hne, hb'⟩ := (hdist.of_map.mem_erase_iff).1 hb'
    obtain ⟨y, hy, hyf, hya, hys⟩ := hlive b hb'
    refine ⟨y, (hfrees.blocks y hyf).2 ⟨hy, fun he => ?_⟩, hyf, hya, hys⟩
    exact hne (List.inj_on_of_nodup_map hdist hb' hmem (by rw [hya, he]))
  | growth hrun =>
    obtain ⟨hb, hinv'⟩ := enableKheapGrowth_ok hinv hback hrun
    exact ⟨cs, L, hinv', hb, hlive, hdist⟩

theorem ClientInv.congr {live : List (Nat × Nat)} {L : Int → List Nat}
    (h : ClientInv ⟨k, live⟩ cs L) (hheap : k'.sh.heap = k.sh.heap)
    (hdescs : k'.sh.descs = k.sh.descs) : ClientInv ⟨k', live⟩ cs L := by
  obtain ⟨hinv, ⟨htop, hfits, hupper⟩, hlive, hdist⟩ := h
  dsimp only at hinv htop hfits hupper
  rw [← hheap] at hinv htop hfits hupper
  rw [← hdescs] at htop hfits
  exact ⟨hinv, ⟨htop, hfits, hupper⟩, hlive, hdist⟩

theorem ClientInv.bounds {L : Int → List Nat} (h : ClientInv c cs L) :
    ∀ b ∈ c.live, 0 < b.1 ∧ b.1 < 2 ^ 64 := by
  intro b hb
  obtain ⟨x, hx, -, hxa, -⟩ := h.live b hb
  have hhi := ((ChunkTiles.bounds h.heap.tiles).2 x hx).2
  have htop := h.backed.top
  have hfits := h.backed.fits
  unfold Chunk.stop at hhi
  omega

theorem ClientInv.blocksOk {L : Int → List Nat} (h : ClientInv c cs L) : BlocksOk c := by
  constructor
  · intro b hb
    obtain ⟨x, hx, hxf, hxa, hxs⟩ := h.live b hb
    have hm := h.heap.inMem x hx
    have hheader : getHeapChunkFromUserData b.1 = x.addr := by
      rw [hxa, Chunk.ofUserData_eq]
    obtain ⟨hlo, hhi⟩ := (ChunkTiles.bounds h.heap.tiles).2 x hx
    constructor
    · have := x.addr_mod; omega
    · rw [hheader, Chunk.chunkEnd_eq hm]; exact ⟨hlo, hhi⟩
    · rw [hheader, Chunk.size_eq hm.header]; exact hxs
    · rw [hheader, Chunk.flag_free hm.header, hxf]
    · intro i h0 h1 hmem
      -- a listed chunk is free, and its address is that of `x`
      rw [hheader, h.heap.lists.bucketList_eq h0 h1] at hmem
      obtain ⟨d, hd, hdf, -, hda⟩ := (h.heap.listed i x.addr).1 hmem
      rw [h.heap.eq_of_addr hd hx hda, hxf] at hdf
      cases hdf
  · refine (List.pairwise_map.1 h.distinct).imp_of_mem fun {b b'} hb hb' hne => ?_
    obtain ⟨x, hx, -, hxa, -⟩ := h.live b hb
    obtain ⟨y, hy, -, hya, -⟩ := h.live b' hb'
    rw [BlocksApart, hxa, hya, Chunk.ofUserData_eq, Chunk.ofUserData_eq,
      Chunk.size_eq (h.heap.inMem x hx).header, Chunk.size_eq (h.heap.inMem y hy).header]
    rcases h.heap.apart x hx y hy with rfl | he | he
    · exact (hne (by rw [hxa, hya])).elim
    · left; unfold Chunk.stop at he; omega
    · right; unfold Chunk.stop at he; omega

theorem ClientRun.inv {c : HeapClient} (h : ClientRun FitsRequest c) :
    ∃ cs L, ClientInv c cs L := by
  obtain ⟨k₀, h₀, hrun⟩ := h
  obtain ⟨hb, x, L, hinv⟩ := h₀.inv
  have hstart : ∃ cs L, ClientInv ⟨k₀, []⟩ cs L := ⟨[x], L, hinv, hb, by simp, List.nodup_nil⟩
  obtain ⟨cs, L', hc⟩ := invariant_of_steps (fun _ _ hstep => hstep.inv) hrun hstart
  exact ⟨cs, L', hc⟩

/-- In every run whose requests are all served by the chunk the search finds,
every block the client holds is sound. -/
theorem blocksOk_of_run {c : HeapClient} (h : ClientRun FitsRequest c) : BlocksOk c := by
  obtain ⟨cs, L, hc⟩ := h.inv
  exact hc.blocksOk

def twoBlocks : List (Nat × Nat) := [(kernelVmemStart + 4176, 16), (kernelVmemStart + 4104, 56)]

theorem twoMallocs_run {P : HeapState → Nat → Prop} (h₁ : P smallHeap.sh.heap 56)
    (h₂ : P (afterMalloc 56 smallHeap).sh.heap 16) :
    ReflTransGen (ClientStep P) ⟨smallHeap, []⟩ ⟨twoMallocs, twoBlocks⟩ := by
  have hfirst : ClientStep P ⟨smallHeap, []⟩
      ⟨afterMalloc 56 smallHeap, [(kernelVmemStart + 4104, 56)]⟩ :=
    .malloc (by decide) h₁ (eq_of_returned (by decide +kernel))
  exact .tail (.single hfirst) (.malloc (by decide) h₂ (eq_of_returned (by decide +kernel)))

theorem blocksOk_twoMallocs : BlocksOk ⟨twoMallocs, twoBlocks⟩ :=
  blocksOk_of_run ⟨smallHeap, smallHeap_starts,
    twoMallocs_run (by decide +kernel) (by decide +kernel)⟩

theorem holedHeap_run {P : HeapState → Nat → Prop} (h₁ : P smallHeap.sh.heap 56)
    (h₂ : P (afterMalloc 56 smallHeap).sh.heap 16) :
    ReflTransGen (ClientStep P) ⟨smallHeap, []⟩
      ⟨holedHeap, twoBlocks.erase (kernelVmemStart + 4104, 56)⟩ :=
  .tail (twoMallocs_run h₁ h₂) (.free (by decide) (eq_of_returned (by decide +kernel)))

/-- A request of 48 bytes gets the address of the block that was given back, though the chunk is
too small to be split and stays free. -/
theorem exists_unsound_block : ∃ c, ClientRun (fun _ _ => True) c ∧ ¬ BlocksOk c := by
  have h := @ClientStep.malloc (fun _ _ => True) holedHeap _
    (twoBlocks.erase (kernelVmemStart + 4104, 56)) 48 (kernelVmemStart + 4104) (by decide) trivial
    (eq_of_returned (by decide +kernel))
  refine ⟨_, ⟨smallHeap, smallHeap_starts,
    .tail (holedHeap_run trivial trivial) h⟩, fun hok => ?_⟩
  have hflag := (hok.1 _ List.mem_cons_self).allocated
  exact absurd hflag (by decide +kernel)

end GarbageOS
