import GarbageOS.Heap.Search
import GarbageOS.Heap.Kmalloc

/-!
# `kmalloc` on a well-formed heap

`Allocates` is what an allocation does to the chunks: one free chunk gives way to
an allocated chunk at its address, and no other allocated chunk is touched. Every
returning `kmalloc` does that, unless the chunk the search found is neither of the
requested size nor large enough to be split, when nothing happens at all.
-/

namespace GarbageOS

open Lib

/-! ## Sizes -/

theorem roundRequest_spec {n : Nat} (hn : n ≤ 2 ^ 63) :
    n ≤ roundRequest n ∧ 16 ≤ roundRequest n ∧ roundRequest n % 8 = 0 ∧ roundRequest n ≤ 2 ^ 63 := by
  have h16 : heapChunkMinSize = 16 := rfl
  unfold roundRequest add64
  grind

theorem growthSize_spec {n : Nat} (hn : n ≤ 2 ^ 63) :
    n + 16 ≤ growthSize n ∧ growthSize n % 4096 = 0 ∧ growthSize n < 2 ^ 64 := by
  have hstep : kernelHeapGrowthStep = 16777216 := rfl
  have hpage : pageSize = 4096 := rfl
  unfold growthSize add64
  grind

/-! ## Allocating a chunk -/

/-- The allocated chunk `c` is new; the other allocated chunks are as before. -/
structure Allocates (s s' : HeapState) (cs cs' : List Chunk) (c : Chunk) : Prop where
  allocated : c.free = false
  taken : ∃ d ∈ cs, d.free = true ∧ d.addr = c.addr
  blocks : ∀ d, d.free = false → (d ∈ cs' ↔ d = c ∨ d ∈ cs)
  untouched : Untouched cs s.mem s'.mem

section

variable {s s' : HeapState} {cs pre post : List Chunk} {c d : Chunk} {n : Nat}
  {L : Int → List Nat}

theorem Allocates.of_splice (rest : List Chunk) (hd : d.free = true) (hc : c.free = false)
    (hrest : ∀ x ∈ rest, x.free = true) (ha : d.addr = c.addr) (hu : Untouched (pre ++ post) s.mem s'.mem) :
    Allocates s s' (pre ++ d :: post) (pre ++ c :: (rest ++ post)) c where
  allocated := hc
  taken := ⟨d, by simp, hd, ha⟩
  blocks x hx := by
    have hxd : x ≠ d := fun e => by rw [e, hd] at hx; cases hx
    have hxr : x ∉ rest := fun e => by rw [hrest x e] at hx; cases hx
    simp only [List.mem_append, List.mem_cons]
    tauto
  untouched x hx hxf := by
    refine hu x ?_ hxf
    have hxd : x ≠ d := fun e => by rw [e, hd] at hxf; cases hxf
    simp only [List.mem_append, List.mem_cons] at hx ⊢
    tauto

theorem HeapInv.size_lt (h : HeapInv s cs L) (hlo : 2 ^ 63 ≤ s.heap.start) (hc : c ∈ cs) :
    c.size < 2 ^ 63 := by
  obtain ⟨h1, h2⟩ := (ChunkTiles.bounds h.tiles).2 c hc
  have := h.stop_lt
  unfold Chunk.stop at h2
  omega

/-- Where the heap lies and how it grows is kept, up to `g` more bytes. -/
structure Extends (h h' : Heap) (g : Nat) : Prop where
  start : h'.start = h.start
  size : h'.size = h.size + g
  vmem : h'.heapVmem = h.heapVmem
  growth : h'.enableGrowth = h.enableGrowth

theorem SameArena.extends {h h' : Heap} (ha : SameArena h h') : Extends h h' 0 :=
  { ha with }

/-- `c` of `n` bytes was allocated at the address of `d`. -/
structure Mallocs (s s' : HeapState) (cs cs' : List Chunk) (d c : Chunk) (n : Nat) : Prop
    extends Allocates s s' cs cs' c where
  addr : c.addr = d.addr
  size : c.size = n

section

variable (h : HeapInv s cs L) (hd : d ∈ cs) (hf : d.free = true)

include h hd hf

theorem split_mallocs (hmod : n % 8 = 0) (hmin : 16 ≤ n) (hfit : Splittable d n) :
    ∃ s' cs' L' c, (splitChunkAndAlloc d.addr n).run s = .ok true s' ∧ HeapInv s' cs' L' ∧
      Mallocs s s' cs cs' d c n ∧ SameArena s.heap s'.heap := by
  obtain ⟨pre, post, rfl⟩ := List.append_of_mem hd
  obtain ⟨s', L', c₁, c₂, hrun, hcut, hsize, hinv, harena, hu⟩ :=
    splitChunkAndAlloc_spec h hf hmod hmin hfit
  refine ⟨s', _, L', c₁, hrun, hinv, ⟨?_, hcut.addr, hsize⟩, harena⟩
  exact Allocates.of_splice [c₂] hf hcut.free₁
    (fun x hx => by rw [List.mem_singleton.1 hx]; exact hcut.free₂) hcut.addr.symm hu

theorem allocChunk_mallocs (hw : d.wild = false) :
    ∃ s' cs' L' c, (allocChunk d.addr).run s = .ok () s' ∧ HeapInv s' cs' L' ∧
      Mallocs s s' cs cs' d c d.size ∧ SameArena s.heap s'.heap := by
  obtain ⟨pre, post, rfl⟩ := List.append_of_mem hd
  obtain ⟨s', L', hrun, hinv, harena, hu⟩ := allocChunk_spec h hf hw
  refine ⟨s', _, L', d.setFree false, hrun, hinv, ⟨?_, rfl, rfl⟩, harena⟩
  exact Allocates.of_splice [] hf rfl (by simp) rfl hu

/-! ## A chunk from a bucket -/

/-- The chunk can serve a request of `n` bytes: it is of that size, or the rest is a chunk. -/
def Chunk.Serves (c : Chunk) (n : Nat) : Prop := c.size = n ∨ n + 32 ≤ c.size

theorem takeChunk_mallocs (hw : d.wild = false) (hlo : 2 ^ 63 ≤ s.heap.start) (hmod : n % 8 = 0)
    (hmin : 16 ≤ n) (hn : n ≤ 2 ^ 63) (hfit : d.Serves n) :
    ∃ s' cs' L' c, (takeChunk d.addr n).run s = .ok () s' ∧ HeapInv s' cs' L' ∧
      Mallocs s s' cs cs' d c n ∧ SameArena s.heap s'.heap := by
  have hsize := Chunk.size_eq (h.inMem d hd).header
  unfold takeChunk
  rw [run_get_bind, hsize]
  by_cases he : d.size = n
  · rw [if_pos he, ← he]
    exact allocChunk_mallocs h hd hf hw
  · have hroom : n + 32 ≤ d.size := hfit.resolve_left he
    have hbig : d.size < 2 ^ 63 := h.size_lt hlo hd
    rw [if_neg he, run_get_bind, hsize]
    obtain ⟨s', cs', L', c, hrun, hrest⟩ :=
      split_mallocs h hd hf hmod hmin ⟨hroom, by omega⟩
    refine ⟨s', cs', L', c, ?_, hrest⟩
    rw [run_kassert_pos (by simp [heapChunkMinSize, heapChunkSplitOverhead]; omega)]
    exact run_bind_ok.2 ⟨true, s', hrun, rfl⟩

/-- The result of the split is not looked at: a chunk that is too small stays
as it is, free and in its bucket. -/
theorem takeChunk_unfit (hmod : n % 8 = 0) (hmin : 16 ≤ n) (hn : n ≤ 2 ^ 63) (hfit : ¬ d.Serves n)
    (h32 : 32 ≤ d.size) : (takeChunk d.addr n).run s = .ok () s := by
  have hsize := Chunk.size_eq (h.inMem d hd).header
  obtain ⟨hne, hroom⟩ := not_or.1 hfit
  unfold takeChunk
  rw [run_get_bind, hsize, if_neg hne, run_get_bind, hsize,
    run_kassert_pos (by simp [heapChunkMinSize, heapChunkSplitOverhead]; omega)]
  have hrun := splitChunkAndAlloc_refused h hd hf hmod hmin hn fun hs => hroom hs.1
  exact run_bind_ok.2 ⟨false, s, hrun, rfl⟩

end

/-! ## The chunk the search finds -/

/-- The chunk `kmalloc` takes for a rounded request: the first one, in bucket
order, that passes its test, else the wilderness chunk. -/
def candidate (s : HeapState) (size : Nat) : Nat :=
  ((searched (bucketList s) size).find? (isCandidateSuitable s.mem size)).getD s.heap.wildernessChunk

theorem Lists.searched_eq (h : Lists s L) (hn : 16 ≤ n) :
    searched (bucketList s) n = searched L n := by
  obtain ⟨hlo, hhi⟩ := Chunk.getBucketIndexFromSize_range hn
  have hvisit : ∀ (count : Nat) (i : Int), 0 ≤ i → i + count ≤ 128 →
      visited (bucketList s) count i = visited L count i := by
    intro count
    induction count with
    | zero => intros; rfl
    | succ count ih =>
      intro i h0 h1
      rw [visited, visited, h.bucketList_eq h0 (by omega), ih (i + 1) (by omega) (by omega)]
  exact hvisit _ _ (by omega) (by omega)

theorem findChunk_spec (h : HeapInv s cs L) (hn : 16 ≤ n) :
    ∃ d ∈ cs, d.free = true ∧ (findChunk n).run s = .ok d.addr s ∧ candidate s n = d.addr ∧
      (d.wild = true ∨ d.size = n ∨ 32 ≤ d.size) := by
  have hrun := run_findChunk h.lists hn
  have hcand : candidate s n =
      ((searched L n).find? (isCandidateSuitable s.mem n)).getD s.heap.wildernessChunk := by
    rw [candidate, h.lists.searched_eq hn]
  cases hfind : (searched L n).find? (isCandidateSuitable s.mem n) with
  | none =>
    rw [hfind, Option.getD_none] at hrun hcand
    obtain ⟨pre, w, rfl, hw, hf, ha, -⟩ := h.exists_wilderness
    exact ⟨w, by simp, hf, ha ▸ hrun, ha ▸ hcand, .inl hw⟩
  | some a =>
    rw [hfind, Option.getD_some] at hrun hcand
    obtain ⟨j, -, -, hj⟩ := mem_visited (List.mem_of_find?_eq_some hfind)
    obtain ⟨d, hd, hf, -, rfl⟩ := (h.listed j a).1 hj
    have hs := List.find?_some hfind
    simp only [isCandidateSuitable, Chunk.size_eq (h.inMem d hd).header,
      Bool.or_eq_true, beq_iff_eq, decide_eq_true_eq] at hs
    exact ⟨d, hd, hf, hrun, hcand, .inr hs⟩

/-! ## The wilderness chunk -/

section

variable {expand : VMemHandle → Nat → KM Bool} {k k' : Kernel} {w : Chunk}

/-- The kernel before the final split: as it was, or with the heap's memory
expanded by `g` bytes. -/
inductive MadeRoom (expand : VMemHandle → Nat → KM Bool) (k : Kernel) (n : Nat) :
    Kernel → Nat → Prop where
  | enough : MadeRoom expand k n k 0
  | grew {k₁ : Kernel} (hon : k.sh.heap.heap.enableGrowth = true)
      (hrun : (expand k.sh.heap.heap.heapVmem (growthSize n)).run k = .ok true k₁) :
      MadeRoom expand k n k₁ (growthSize n)

/-- What the heap needs of the memory it grows into: its own state is not
changed, and the new end of the heap is an address. -/
def ExpandsHeap (expand : VMemHandle → Nat → KM Bool) (k : Kernel) : Prop :=
  ∀ g k₁, g % pageSize = 0 → (expand k.sh.heap.heap.heapVmem g).run k = .ok true k₁ →
    k₁.sh.heap = k.sh.heap ∧ k.sh.heap.heap.stop + g < 2 ^ 64

theorem tryIncreaseWildernessChunk_ok {b : Bool} (hn : n ≤ 2 ^ 63) (hex : ExpandsHeap expand k)
    (h : HeapInv k.sh.heap (pre ++ [w]) L) (hw : w.wild = true) (hf : w.free = true)
    (hstop : w.stop = k.sh.heap.heap.stop)
    (hrun : (tryIncreaseWildernessChunk expand n).run k = .ok b k') (hb : b = true) :
    ∃ k₁ w', MadeRoom expand k n k₁ (growthSize n) ∧ Grown w w' (growthSize n) ∧
      k' = k₁.setHeap (grown k.sh.heap w' (growthSize n)) := by
  unfold tryIncreaseWildernessChunk at hrun
  replace hrun := (run_kassert_bind.1 hrun).2
  rw [run_get_bind] at hrun
  split at hrun
  · cases hrun; cases hb
  · next hon =>
    rw [run_get_bind] at hrun
    obtain ⟨granted, k₁, hexp, hrun⟩ := run_bind_ok.1 hrun
    cases granted with
    | false => cases hrun; cases hb
    | true =>
      obtain ⟨-, hmod, -⟩ := growthSize_spec hn
      obtain ⟨hheap, hfits⟩ := hex _ _ hmod hexp
      obtain ⟨w', hg⟩ := Chunk.exists_grown (g := growthSize n) hf hw (by omega) (by omega)
      obtain ⟨_, _, hx, hrun⟩ := run_bind_ok.1 hrun
      obtain ⟨s₁, hs, rfl⟩ := run_onHeap_ok.1 hx
      rw [hheap, expandWildernessChunk_spec h hg] at hs
      cases hs
      cases hrun
      exact ⟨k₁, w', .grew (by simpa using hon) hexp, hg, rfl⟩

theorem HeapInv.untouched_grown (h : HeapInv s (pre ++ [w]) L) {w' : Chunk} {g : Nat}
    (hg : Grown w w' g) : Untouched (pre ++ [w]) s.mem (grown s w' g).mem := by
  intro d hd hf a _ ha
  rcases List.mem_append.1 hd with hd | hd
  · exact h.grow_keeps hg hd ha
  · rw [List.mem_singleton.1 hd, hg.free] at hf; cases hf

/-- An allocation from the grown wilderness chunk is one from the chunk before it grew. -/
theorem Mallocs.of_grown {s' : HeapState} {w' c : Chunk} {g : Nat} {cs' : List Chunk}
    (h : HeapInv s (pre ++ [w]) L) (hg : Grown w w' g)
    (hm : Mallocs (grown s w' g) s' (pre ++ [w']) cs' w' c n) :
    Mallocs s s' (pre ++ [w]) cs' w c n where
  allocated := hm.allocated
  taken := ⟨w, by simp, hg.free, by rw [hm.addr, hg.addr]⟩
  blocks d hd := by
    have hw : d ≠ w := fun e => by rw [e, hg.free] at hd; cases hd
    have hw' : d ≠ w' := fun e => by rw [e, hg.free'] at hd; cases hd
    rw [hm.blocks d hd]
    simp [hw, hw']
  untouched d hd hf a h1 h2 := by
    have hpre : d ∈ pre := by
      rcases List.mem_append.1 hd with hd | hd
      · exact hd
      · rw [List.mem_singleton.1 hd, hg.free] at hf; cases hf
    exact (hm.untouched d (List.mem_append_left _ hpre) hf a h1 h2).trans
      (h.untouched_grown hg d hd hf a h1 h2)
  addr := hm.addr.trans hg.addr
  size := hm.size

theorem takeWilderness_ok {u : Unit} (h : HeapInv k.sh.heap cs L) (hd : d ∈ cs)
    (hf : d.free = true) (hw : d.wild = true) (hlo : 2 ^ 63 ≤ k.sh.heap.heap.start)
    (hmod : n % 8 = 0) (hmin : 16 ≤ n) (hn : n ≤ 2 ^ 63) (hex : ExpandsHeap expand k)
    (hrun : (takeWilderness expand d.addr n).run k = .ok u k') :
    ∃ k₁ g s' cs' L' c, MadeRoom expand k n k₁ g ∧
      k' = k₁.setHeap s' ∧ HeapInv s' cs' L' ∧
      Mallocs k.sh.heap s' cs cs' d c n ∧ Extends k.sh.heap.heap s'.heap g := by
  have hbig := h.size_lt hlo hd
  unfold takeWilderness at hrun
  obtain ⟨split, t, hsplit, hrun⟩ := run_bind_ok.1 hrun
  obtain ⟨s₁, hs₁, rfl⟩ := run_onHeap_ok.1 hsplit
  by_cases hfit : Splittable d n
  · -- the wilderness chunk is large enough as it is
    obtain ⟨s', cs', L', c, hs', hinv, hm, harena⟩ := split_mallocs h hd hf hmod hmin hfit
    rw [hs'] at hs₁
    cases hs₁
    rw [if_pos rfl] at hrun
    cases hrun
    exact ⟨k, 0, s₁, cs', L', c, .enough, rfl, hinv, hm, harena.extends⟩
  · rw [splitChunkAndAlloc_refused h hd hf hmod hmin hn hfit] at hs₁
    cases hs₁
    rw [if_neg (by simp)] at hrun
    obtain ⟨grew, t, hgrow, hrun⟩ := run_bind_ok.1 hrun
    cases grew with
    | false => exact (run_kpanic_ok.1 hrun).elim
    | true =>
      obtain ⟨pre, w, rfl, hww, hwf, hwa, hstop⟩ := h.exists_wilderness
      obtain rfl : d = w := by
        rcases (h.apart d hd w (by simp)) with he | he | he
        · exact he
        all_goals
          have := (h.wilderness d hd hw).2
          have := d.addr_le_stop
          have := w.addr_le_stop
          omega
      obtain ⟨k₁, w', hroom, hg, rfl⟩ :=
        tryIncreaseWildernessChunk_ok hn hex h hww hwf hstop hgrow rfl
      obtain ⟨again, t, hagain, hrun⟩ := run_bind_ok.1 hrun
      obtain ⟨s₂, hs₂, rfl⟩ := run_onHeap_ok.1 hagain
      have hinv := h.grow hg
      -- growing always makes room: the growth alone covers the request and its overhead
      obtain ⟨hge, -, hlt⟩ := growthSize_spec hn
      have hstop' := hinv.stop_lt
      have hfit' : Splittable w' n := by
        have := hinv.size_lt hlo (c := w') (by simp)
        have := d.size_min
        have := hg.size
        exact ⟨by omega, by omega⟩
      obtain ⟨s', cs', L', c, hs', hinv', hm, harena⟩ :=
        split_mallocs hinv (by simp) hg.free' hmod hmin hfit'
      rw [show d.addr = w'.addr from hg.addr.symm, Kernel.setHeap_heap, hs'] at hs₂
      cases hs₂
      rw [if_pos rfl] at hrun
      cases hrun
      exact ⟨k₁, growthSize n, s₂, cs', L', c, hroom, rfl, hinv', hm.of_grown h hg,
        { harena with }⟩

/-! ## The whole of `kmalloc` -/

/-- The chunk the search finds for a request of `n` bytes can serve it: it is
the wilderness chunk, has the rounded size, or is at least 32 bytes larger. -/
def FitsRequest (s : HeapState) (n : Nat) : Prop :=
  getHeapChunkFlag s.mem (candidate s (roundRequest n)) heapWildernessChunk = true ∨
    getFixedHeapChunkSize s.mem (candidate s (roundRequest n)) = roundRequest n ∨
    roundRequest n + 32 ≤ getFixedHeapChunkSize s.mem (candidate s (roundRequest n))

instance (s : HeapState) (n : Nat) : Decidable (FitsRequest s n) := by
  unfold FitsRequest; infer_instance

theorem fitsRequest_iff (h : HeapInv s cs L) (hd : d ∈ cs)
    (hc : candidate s (roundRequest n) = d.addr) :
    FitsRequest s n ↔ d.wild = true ∨ d.Serves (roundRequest n) := by
  have hm := (h.inMem d hd).header
  rw [FitsRequest, hc, Chunk.flag_wild hm, Chunk.size_eq hm]
  rfl

/-- A returning `kmalloc` allocates a chunk at the address it returns, if the
chunk it found serves the request; otherwise it returns the address of a free
chunk and changes nothing. -/
theorem mallocChunk_ok {p : Nat} (h : HeapInv k.sh.heap cs L)
    (hlo : 2 ^ 63 ≤ k.sh.heap.heap.start) (hn : n ≤ 2 ^ 63) (hex : ExpandsHeap expand k)
    (hrun : (mallocChunk expand n).run k = .ok p k') :
    (FitsRequest k.sh.heap n ∧ ∃ k₁ g s' cs' L' c, MadeRoom expand k (roundRequest n) k₁ g ∧
      k' = k₁.setHeap s' ∧ HeapInv s' cs' L' ∧ Allocates k.sh.heap s' cs cs' c ∧
      c.size = roundRequest n ∧ p = c.addr + 8 ∧ Extends k.sh.heap.heap s'.heap g) ∨
    (¬ FitsRequest k.sh.heap n ∧ k' = k ∧ ∃ d ∈ cs, d.free = true ∧ p = d.addr + 8) := by
  obtain ⟨-, hmin, hmod, hlt⟩ := roundRequest_spec hn
  obtain ⟨d, hd, hf, hfind, hcand, hsuit⟩ := findChunk_spec h hmin
  have hfits := fitsRequest_iff h hd hcand
  unfold mallocChunk at hrun
  rw [run_ok_bind (run_onHeap_ok.2 ⟨_, hfind, rfl⟩)] at hrun
  obtain ⟨_, t, htake, hrun⟩ := run_bind_ok.1 hrun
  cases hrun
  rw [Chunk.userData_eq]
  unfold takeFound at htake
  rw [run_get_bind, Kernel.setHeap_heap, Chunk.flag_wild (h.inMem d hd).header] at htake
  change EStateM.run _ k = _ at htake
  cases hw : d.wild with
  | true =>
    rw [if_pos hw] at htake
    obtain ⟨k₁, g, s', cs', L', c, hroom, hk, hinv, hm, hext⟩ :=
      takeWilderness_ok h hd hf hw hlo hmod hmin (by omega) hex htake
    exact .inl ⟨hfits.2 (.inl hw), k₁, g, s', cs', L', c, hroom, hk, hinv, hm.toAllocates,
      hm.size, by rw [hm.addr], hext⟩
  | false =>
    rw [if_neg (by simp [hw])] at htake
    obtain ⟨s₁, hs₁, rfl⟩ := run_onHeap_ok.1 htake
    by_cases hserve : d.Serves (roundRequest n)
    · obtain ⟨s', cs', L', c, hs', hinv, hm, harena⟩ :=
        takeChunk_mallocs h hd hf hw hlo hmod hmin (by omega) hserve
      rw [hs'] at hs₁
      cases hs₁
      exact .inl ⟨hfits.2 (.inr hserve), k, 0, s₁, cs', L', c, .enough, rfl, hinv,
        hm.toAllocates, hm.size, by rw [hm.addr], harena.extends⟩
    · have h32 : 32 ≤ d.size := by
        rcases hsuit with hx | hx | hx
        · rw [hw] at hx; cases hx
        · exact (hserve (.inl hx)).elim
        · exact hx
      rw [takeChunk_unfit h hd hf hmod hmin (by omega) hserve h32] at hs₁
      cases hs₁
      refine .inr ⟨fun hx => ?_, rfl, d, hd, hf, rfl⟩
      rcases hfits.1 hx with hx | hx
      · rw [hw] at hx; cases hx
      · exact hserve hx

end

end

end GarbageOS
