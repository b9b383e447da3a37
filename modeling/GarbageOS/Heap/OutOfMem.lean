import GarbageOS.Heap.History

/-!
# When `kmalloc` runs out of memory

`kmalloc` takes the first chunk in bucket order that passes its test and panics
if that is a wilderness chunk that can neither be split nor grow. The last bucket
mixes the wilderness chunk with all large chunks, the latest first, so that a
wilderness chunk that is too small can hide a chunk that fits.
-/

namespace GarbageOS

open Lib Relation

/-- Some free chunk can serve a rounded request without growth. -/
def HasRoom (s : HeapState) (size : Nat) : Prop :=
  ∃ vs, ChunkSeq s vs ∧ ∃ v ∈ vs, v.free = true ∧
    ((v.wild = false ∧ (v.size = size ∨ size + 32 ≤ v.size)) ∨
      (v.wild = true ∧ size + 32 ≤ v.size))

/-- The wilderness chunk has room for a rounded request, or does not pass the test of the
search, or stands behind a chunk that passes it. -/
def WildernessWaits (s : HeapState) (size : Nat) : Prop :=
  size + 32 ≤ getFixedHeapChunkSize s.mem s.heap.wildernessChunk ∨
    isCandidateSuitable s.mem size s.heap.wildernessChunk = false ∨
    ∃ before behind, searched (bucketList s) size = before ++ s.heap.wildernessChunk :: behind ∧
      ∃ a ∈ before, isCandidateSuitable s.mem size a = true

def Kernel.setGrowth (k : Kernel) (growth : Bool) : Kernel :=
  k.setHeap { k.sh.heap with heap := { k.sh.heap.heap with enableGrowth := growth } }

section

variable {s : HeapState} {cs : List Chunk} {L : Int → List Nat} {n : Nat}

theorem getBucketIndexFromSize_mono {m n : Nat} (h : m ≤ n) :
    getBucketIndexFromSize m ≤ getBucketIndexFromSize n := by
  have hcount : ((bucketsCount : Nat) : Int) = 128 := rfl
  simp only [getBucketIndexFromSize, hcount]
  split <;> split <;> omega

theorem mem_visited_of_mem {count : Nat} {i j : Int} {a : Nat} (h : a ∈ L j) (hi : i ≤ j)
    (hj : j < i + count) : a ∈ visited L count i := by
  induction count generalizing i with
  | zero => omega
  | succ count ih =>
    rw [visited, List.mem_append]
    rcases Int.lt_or_eq_of_le hi with hlt | rfl
    · exact .inr (ih (by omega) (by omega))
    · exact .inl h

theorem Lists.nodup_visited (h : Lists s L) (count : Nat) (i : Int) :
    (visited L count i).Nodup := by
  induction count generalizing i with
  | zero => exact List.nodup_nil
  | succ count ih =>
    refine List.nodup_append.2 ⟨h.nodup i, ih (i + 1), fun a ha b hb => ?_⟩
    rintro rfl
    -- a chunk is in one bucket only
    obtain ⟨j, hj, -, hmem⟩ := mem_visited hb
    have := h.bucket i a ha
    have := h.bucket j a hmem
    omega

/-- Every free chunk whose bucket is not below that of the request is searched. -/
theorem HeapInv.mem_searched (h : HeapInv s cs L) {c : Chunk} (hc : c ∈ cs) (hf : c.free = true)
    (hb : getBucketIndexFromSize n ≤ c.bucket) (hn : 16 ≤ n) : c.addr ∈ searched L n := by
  have hmem : c.addr ∈ L c.bucket := (h.listed _ _).2 ⟨c, hc, hf, rfl, rfl⟩
  have hlt := (h.lists.range _ _ hmem).2
  have := Chunk.getBucketIndexFromSize_range hn
  exact mem_visited_of_mem hmem hb (by omega)

theorem HeapInv.suitable_iff (h : HeapInv s cs L) {c : Chunk} (hc : c ∈ cs) :
    isCandidateSuitable s.mem n c.addr = true ↔ c.size = n ∨ 32 ≤ c.size := by
  simp only [isCandidateSuitable, Chunk.size_eq (h.inMem c hc).header,
    Bool.or_eq_true, beq_iff_eq, decide_eq_true_eq]
  rfl

theorem Chunk.index_le_bucket {c : Chunk} (hn : 16 ≤ n) (hle : n ≤ c.size) :
    getBucketIndexFromSize n ≤ c.bucket := by
  unfold Chunk.bucket
  split
  · have := (Chunk.getBucketIndexFromSize_range hn).2
    omega
  · exact getBucketIndexFromSize_mono hle

theorem HeapInv.suitable_of_room (h : HeapInv s cs L) (hn : 16 ≤ n) (hroom : HasRoom s n) :
    ∃ c ∈ cs, isCandidateSuitable s.mem n c.addr = true ∧ c.addr ∈ searched L n ∧
      (c.wild = true → n + 32 ≤ c.size) := by
  obtain ⟨vs, hseq, v, hv, hf, hfit⟩ := hroom
  rw [hseq.unique h.chunkSeq] at hv
  obtain ⟨c, hc, rfl⟩ := List.mem_map.1 hv
  have hsize : c.size = n ∨ n + 32 ≤ c.size := by
    rcases hfit with ⟨-, hx⟩ | ⟨-, hx⟩
    · exact hx
    · exact .inr hx
  have hbucket := c.index_le_bucket hn (by omega)
  refine ⟨c, hc, (h.suitable_iff hc).2 (by omega), h.mem_searched hc hf hbucket hn, fun hw => ?_⟩
  rcases hfit with ⟨hx, -⟩ | ⟨-, hx⟩
  · exact absurd (hw.symm.trans hx) (by decide)
  · exact hx

/-- The search for a chunk goes through every free chunk that is large enough, and each of the
first buckets is for one size. -/
theorem bucket_search_complete {t : Nat} (h : HeapInv s cs L) (hn : 16 ≤ n) (ht : n ≤ t) :
    (1 ≤ getBucketIndexFromSize n ∧ getBucketIndexFromSize n ≤ 127) ∧
    getBucketIndexFromSize n ≤ getBucketIndexFromSize t ∧
    (findChunk n).run s = .ok
      (((searched L n).find? (isCandidateSuitable s.mem n)).getD s.heap.wildernessChunk) s ∧
    (∀ c ∈ cs, c.free = true → n ≤ c.size → c.addr ∈ searched L n) ∧
    ∀ i, 1 ≤ i → i ≤ 63 → ∀ a ∈ L i, (getFixedHeapChunkSize s.mem a : Int) = 8 * (i + 1) := by
  have hrange := Chunk.getBucketIndexFromSize_range hn
  refine ⟨⟨hrange.1, by omega⟩, getBucketIndexFromSize_mono ht, run_findChunk h.lists hn,
    fun c hc hf hle => h.mem_searched hc hf (Chunk.index_le_bucket hn hle) hn, fun i _ hi a ha => ?_⟩
  obtain ⟨c, hc, -, rfl, rfl⟩ := (h.listed i a).1 ha
  have hmod := c.size_mod
  have hmin := c.size_min
  have hnext : getBucketIndexFromSize 513 = 64 := rfl
  have hbucket : c.bucket = getBucketIndexFromSize c.size := by
    refine if_neg fun hw => ?_
    simp [Chunk.bucket, hw] at hi
  have hfirst : c.size ≤ 8 * 64 := by
    by_contra hgt
    have := getBucketIndexFromSize_mono (show 513 ≤ c.size by omega)
    omega
  rw [Chunk.size_eq (h.inMem c hc).header, hbucket]
  simp only [getBucketIndexFromSize, hfirst, if_true]
  omega

theorem bucket_search_complete_holedHeap : ∃ cs L, HeapInv holedHeap.sh.heap cs L ∧
    ∀ c ∈ cs, c.free = true → c.addr ∈ searched L 16 := by
  obtain ⟨-, cs, L, hinv⟩ :=
    chunks_of_run smallHeap_starts (.tail twoMallocs_reached holedHeap_step)
  obtain ⟨-, -, -, hmem, -⟩ := bucket_search_complete hinv (Nat.le_refl 16) (Nat.le_refl 16)
  exact ⟨cs, L, hinv, fun c hc hf => hmem c hc hf c.size_min⟩

/-- If some chunk fits, the wilderness chunk waits exactly if the search does not find it
with too little room. -/
theorem HeapInv.waits_iff (h : HeapInv s cs L) (hn : 16 ≤ n) (hroom : HasRoom s n)
    {d : Chunk} (hd : d ∈ cs) (hcand : candidate s n = d.addr) :
    WildernessWaits s n ↔ ¬ (d.wild = true ∧ d.size < n + 32) := by
  obtain ⟨pre, w, rfl, hww, hwf, hwa, -⟩ := h.exists_wilderness
  have hw : w ∈ pre ++ [w] := by simp
  have hsize : getFixedHeapChunkSize s.mem s.heap.wildernessChunk = w.size := by
    rw [← hwa, Chunk.size_eq (h.inMem w hw).header]
  have hsearched := h.lists.searched_eq hn
  have hnodup : (searched L n).Nodup := h.lists.nodup_visited _ _
  rw [candidate, hsearched] at hcand
  rw [WildernessWaits, hsearched, hsize, ← hwa]
  constructor
  · rintro hwaits ⟨hdw, hsmall⟩
    obtain rfl : d = w := h.eq_of_addr hd hw ((h.wilderness d hd hdw).2.symm.trans hwa.symm)
    rcases hwaits with hbig | hunfit | ⟨before, behind, hlist, a, ha, hsuit⟩
    · omega
    · -- the search stops at a chunk that passes the test
      obtain ⟨c, -, hsuit, hmem, -⟩ := h.suitable_of_room hn hroom
      obtain ⟨b, hb⟩ := Option.isSome_iff_exists.1 (List.find?_isSome.2 ⟨c.addr, hmem, hsuit⟩)
      rw [hb, Option.getD_some] at hcand
      have := List.find?_some hb
      rw [hcand, hunfit] at this
      cases this
    · obtain ⟨b, hb⟩ := Option.isSome_iff_exists.1 (List.find?_isSome.2 ⟨a, ha, hsuit⟩)
      rw [hlist, List.find?_append, hb, Option.some_or, Option.getD_some] at hcand
      rw [hlist] at hnodup
      have hmem := List.mem_of_find?_eq_some hb
      exact (List.nodup_append.1 hnodup).2.2 b hmem d.addr List.mem_cons_self hcand
  · intro hlarge
    by_contra hwaits
    obtain ⟨hsmall, hrest⟩ := not_or.1 hwaits
    obtain ⟨hsuit, hfirst⟩ := not_or.1 hrest
    rw [Bool.not_eq_false] at hsuit
    have hbucket : w.bucket = 127 := by simp [Chunk.bucket, hww]
    have hlt := (Chunk.getBucketIndexFromSize_range hn).2
    obtain ⟨before, behind, hlist⟩ :=
      List.append_of_mem (h.mem_searched hw hwf (by omega) hn)
    have hnone : before.find? (isCandidateSuitable s.mem n) = none := by
      rw [List.find?_eq_none]
      exact fun a ha hs => hfirst ⟨before, behind, hlist, a, ha, hs⟩
    rw [hlist, List.find?_append, hnone, Option.none_or, List.find?_cons_of_pos hsuit,
      Option.getD_some] at hcand
    obtain rfl : d = w := h.eq_of_addr hd hw hcand.symm
    exact hlarge ⟨hww, by omega⟩

theorem HeapInv.setGrowth {k : Kernel} (h : HeapInv k.sh.heap cs L) (growth : Bool) :
    HeapInv (k.setGrowth growth).sh.heap cs L :=
  ⟨⟨⟨h.inMem, h.wild, h.wilderness, h.coalesced,
    h.lists.frame rfl fun _ _ _ => ⟨rfl, rfl, rfl⟩, h.listed⟩, h.tiles, h.nonempty⟩, h.count⟩

variable {expand : VMemHandle → Nat → KM Bool} {k : Kernel}

/-- A chunk that is not a wilderness chunk with too little room is taken at once. -/
theorem mallocChunk_returns (h : HeapInv k.sh.heap cs L) (hlo : 2 ^ 63 ≤ k.sh.heap.heap.start)
    (hn : n ≤ 2 ^ 63) {d : Chunk} (hd : d ∈ cs)
    (hcand : candidate k.sh.heap (roundRequest n) = d.addr)
    (hlarge : ¬ (d.wild = true ∧ d.size < roundRequest n + 32)) :
    ∃ p k', (mallocChunk expand n).run k = .ok p k' := by
  obtain ⟨-, hmin, hmod, hlt⟩ := roundRequest_spec hn
  obtain ⟨d', hd', hf, hfind, hcand', hsuit⟩ := findChunk_spec h hmin
  obtain rfl : d' = d := h.eq_of_addr hd' hd (hcand'.symm.trans hcand)
  have hbig := h.size_lt hlo hd
  unfold mallocChunk
  rw [run_ok_bind (run_onHeap_ok.2 ⟨_, hfind, rfl⟩)]
  suffices htake : ∃ t, (takeFound expand d'.addr (roundRequest n)).run k = .ok () t by
    obtain ⟨t, ht⟩ := htake
    exact ⟨_, t, run_bind_ok.2 ⟨(), t, ht, rfl⟩⟩
  unfold takeFound
  rw [run_get_bind, Chunk.flag_wild (h.inMem d' hd).header]
  cases hw : d'.wild with
  | true =>
    obtain ⟨s', -, -, -, hs', -⟩ := split_mallocs h hd hf hmod hmin
      (show Splittable d' (roundRequest n) from ⟨by simp [hw] at hlarge; omega, by omega⟩)
    rw [if_pos rfl]
    exact ⟨_, run_bind_ok.2 ⟨true, _, run_onHeap_ok.2 ⟨s', hs', rfl⟩, rfl⟩⟩
  | false =>
    rw [if_neg (by simp)]
    by_cases hserve : d'.Serves (roundRequest n)
    · obtain ⟨s', -, -, -, hs', -⟩ :=
        takeChunk_mallocs h hd hf hw hlo hmod hmin (by omega) hserve
      exact ⟨_, run_onHeap_ok.2 ⟨s', hs', rfl⟩⟩
    · have h32 : 32 ≤ d'.size := by
        rcases hsuit with hx | hx | hx
        · exact absurd (hw.symm.trans hx) (by decide)
        · exact (hserve (.inl hx)).elim
        · exact hx
      exact ⟨_, run_onHeap_ok.2 ⟨_, takeChunk_unfit h hd hf hmod hmin (by omega) hserve h32, rfl⟩⟩

theorem mallocChunk_panics (h : HeapInv k.sh.heap cs L) (hn : n ≤ 2 ^ 63) {d : Chunk} (hd : d ∈ cs)
    (hcand : candidate k.sh.heap (roundRequest n) = d.addr) (hw : d.wild = true)
    (hsmall : d.size < roundRequest n + 32) (hoff : k.sh.heap.heap.enableGrowth = false)
    {p : Nat} {k' : Kernel} : (mallocChunk expand n).run k ≠ .ok p k' := by
  intro hrun
  obtain ⟨-, hmin, hmod, hlt⟩ := roundRequest_spec hn
  obtain ⟨d', hd', hf, hfind, hcand', -⟩ := findChunk_spec h hmin
  obtain rfl : d' = d := h.eq_of_addr hd' hd (hcand'.symm.trans hcand)
  unfold mallocChunk at hrun
  rw [run_ok_bind (run_onHeap_ok.2 ⟨_, hfind, rfl⟩)] at hrun
  obtain ⟨_, t, htake, -⟩ := run_bind_ok.1 hrun
  unfold takeFound at htake
  rw [run_get_bind, Kernel.setHeap_heap, Chunk.flag_wild (h.inMem d' hd).header, if_pos hw] at htake
  change EStateM.run _ k = _ at htake
  unfold takeWilderness at htake
  have hrefused := splitChunkAndAlloc_refused h hd hf hmod hmin (by omega)
    (show ¬ Splittable d' (roundRequest n) from fun hs => by have := hs.1; omega)
  rw [run_ok_bind (run_onHeap_ok.2 ⟨_, hrefused, rfl⟩), if_neg (by simp)] at htake
  obtain ⟨grew, t, hgrow, htake⟩ := run_bind_ok.1 htake
  unfold tryIncreaseWildernessChunk at hgrow
  replace hgrow := (run_kassert_bind.1 hgrow).2
  rw [run_get_bind,
    if_pos (show (k.setHeap k.sh.heap).sh.heap.heap.enableGrowth = false from hoff)] at hgrow
  cases hgrow
  exact run_kpanic_ok.1 htake

end

/-- In every state that calls of `kmalloc` and `kfree` reach, a request for which some chunk
has room is served with growth and without it exactly if the wilderness chunk waits. -/
theorem kmalloc_returns_iff {k₀ k : Kernel} {n : Nat} (h₀ : StartsHeap k₀)
    (hrun : ReflTransGen ChunkStep k₀ k) (hn : n ≤ 2 ^ 32) (hlock : .kheap ∉ k.cpu.held)
    (hroom : HasRoom k.sh.heap (roundRequest n)) :
    (∀ growth, ∃ p k', (kmalloc n).run (k.setGrowth growth) = .ok p k') ↔
      WildernessWaits k.sh.heap (roundRequest n) := by
  obtain ⟨hb, cs, L, hinv⟩ := chunks_of_run h₀ hrun
  have hn' : n ≤ 2 ^ 63 := hn.trans (by decide)
  have hlo : 2 ^ 63 ≤ k.sh.heap.heap.start := le_trans (by decide) hb.upper
  obtain ⟨-, hmin, -, -⟩ := roundRequest_spec hn'
  obtain ⟨d, hd, -, -, hcand, -⟩ := findChunk_spec hinv hmin
  rw [hinv.waits_iff hmin hroom hd hcand]
  constructor
  · rintro hserved ⟨hw, hsmall⟩
    obtain ⟨p, k', hk⟩ := hserved false
    rw [run_kmalloc_ok] at hk
    obtain ⟨-, t, ht, -⟩ := hk
    exact mallocChunk_panics (k := (k.setGrowth false).locked .kheap) (hinv.setGrowth false) hn' hd
      hcand hw hsmall rfl ht
  · intro hlarge growth
    obtain ⟨p, t, ht⟩ : ∃ p t, (mallocChunk expandHeapVmem n).run
        ((k.setGrowth growth).locked .kheap) = .ok p t :=
      mallocChunk_returns (k := (k.setGrowth growth).locked .kheap) (hinv.setGrowth growth) hlo hn' hd hcand
        hlarge
    exact ⟨p, _, run_kmalloc_ok.2 ⟨hlock, t, ht, rfl⟩⟩

theorem kmalloc_returns_holedHeap : HasRoom holedHeap.sh.heap 104 ∧
    ∃ p k', (kmalloc 100).run (holedHeap.setGrowth false) = .ok p k' := by
  have hroom : HasRoom holedHeap.sh.heap (roundRequest 100) :=
    ⟨[⟨kernelVmemStart + 4096, 56, true, false⟩, ⟨kernelVmemStart + 4168, 16, false, false⟩,
      ⟨kernelVmemStart + 4200, 8072, true, true⟩], ⟨threeHeaders, by decide +kernel⟩, _,
      List.mem_cons_of_mem _ (List.mem_cons_of_mem _ List.mem_cons_self), rfl, .inr ⟨rfl, by decide⟩⟩
  exact ⟨hroom, (kmalloc_returns_iff smallHeap_starts (.tail twoMallocs_reached holedHeap_step)
    (by decide) (by decide +kernel) hroom).2 (.inl (by decide +kernel)) false⟩

/-- A descriptor of six pages after a page of padding. -/
def sixPageDescriptor : VirtualMemoryDescriptor :=
  ⟨kernelVmemStart, 7 * pageSize, 0, pageSize, .heap, .null, .null, false⟩

def sixPageKernel : Kernel :=
  finalState ((initializeHeapOn (.early 0)).run (staticKernel.setDesc (.early 0) sixPageDescriptor))

def threeBlocks : Kernel := afterMalloc 16 (afterMalloc 16 (afterMalloc 20000 sixPageKernel))

/-- The first and the last of them freed: the wilderness chunk, which takes in the last one,
is put in front of the first one. -/
def hiddenBlock : Kernel :=
  afterFree (getHeapChunkUserData (kernelVmemStart + 24144))
    (afterFree (getHeapChunkUserData (kernelVmemStart + 4096)) threeBlocks)

theorem sixPageKernel_starts : StartsHeap sixPageKernel :=
  @StartsHeap.initialized (staticKernel.setDesc (.early 0) sixPageDescriptor) _ (.early 0)
    (by decide) (by decide) (by decide) (eq_of_returned (by decide +kernel))

theorem threeBlocks_reached : ReflTransGen ChunkStep sixPageKernel threeBlocks :=
  .tail (.tail (.single
    (.afterMalloc (p := kernelVmemStart + 4104) (by decide) (by decide +kernel)))
    (.afterMalloc (p := kernelVmemStart + 24120) (by decide) (by decide +kernel)))
    (.afterMalloc (p := kernelVmemStart + 24152) (by decide) (by decide +kernel))

def threeBlocksHeaders : List Nat :=
  [kernelVmemStart + 4096, kernelVmemStart + 24112, kernelVmemStart + 24144,
    kernelVmemStart + 24176]

theorem hiddenBlock_reached : ReflTransGen ChunkStep sixPageKernel hiddenBlock :=
  .tail (.tail threeBlocks_reached (.afterFree ⟨threeBlocksHeaders, by decide +kernel⟩
    (by decide +kernel))) (.afterFree ⟨threeBlocksHeaders, by decide +kernel⟩ (by decide +kernel))

def ranOutOfMem {α : Type} : EStateM.Result Stop Kernel α → Bool
  | .error (.panic .heapOutOfMem) _ => true
  | _ => false

/-- A chunk of 20000 bytes is free, and a request of 20000 bytes panics. -/
theorem exists_needless_panic : ∃ k₀ k, StartsHeap k₀ ∧ ReflTransGen ChunkStep k₀ k ∧
    .kheap ∉ k.cpu.held ∧ HasRoom k.sh.heap (roundRequest 20000) ∧
    ranOutOfMem ((kmalloc 20000).run k) = true := by
  refine ⟨sixPageKernel, hiddenBlock, sixPageKernel_starts, hiddenBlock_reached,
    by decide +kernel, ?_, by decide +kernel⟩
  refine ⟨[⟨kernelVmemStart + 4096, 20000, true, false⟩,
    ⟨kernelVmemStart + 24112, 16, false, false⟩, ⟨kernelVmemStart + 24144, 4512, true, true⟩],
    ⟨[kernelVmemStart + 4096, kernelVmemStart + 24112, kernelVmemStart + 24144],
      by decide +kernel⟩, _, List.mem_cons_self, rfl,
    .inl ⟨rfl, .inl (by decide)⟩⟩

end GarbageOS
