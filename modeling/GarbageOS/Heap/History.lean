import GarbageOS.Heap.Runs

/-!
# The heap forgets its history

Since freed chunks are always merged with their free neighbours, the allocated
chunks and the end of the heap determine every chunk: two runs that end with the
same allocated chunks end with the same heap, and a run that frees what it
allocated ends with the heap it started from, up to a larger wilderness chunk.
-/

namespace GarbageOS

open Lib

/-! ## What a walk over the heap sees -/

structure ChunkView where
  addr : Nat
  size : Nat
  free : Bool
  wild : Bool
  deriving DecidableEq

def viewChunk (m : Mem) (header : Nat) : ChunkView :=
  ⟨header, getFixedHeapChunkSize m header, getHeapChunkFlag m header heapFreeChunk,
    getHeapChunkFlag m header heapWildernessChunk⟩

/-- The chunks on the walk from the start of the heap to its end. -/
def ChunkSeq (s : HeapState) (vs : List ChunkView) : Prop :=
  ∃ hs, Walks s.mem s.heap.start hs s.heap.stop ∧ vs = hs.map (viewChunk s.mem)

def allocatedChunks (vs : List ChunkView) : List (Nat × Nat) :=
  (vs.filter fun v => !v.free).map fun v => (v.addr, v.size)

theorem ChunkSeq.unique {s : HeapState} {vs vs' : List ChunkView} (h : ChunkSeq s vs)
    (h' : ChunkSeq s vs') : vs = vs' := by
  obtain ⟨hs, hwalk, rfl⟩ := h
  obtain ⟨hs', hwalk', rfl⟩ := h'
  rw [hwalk.unique hwalk']

def Chunk.view (c : Chunk) : ChunkView := ⟨c.addr, c.size, c.free, c.wild⟩

section

variable {s s' : HeapState} {cs cs' : List Chunk} {L L' : Int → List Nat}

theorem HeapInv.chunkSeq (h : HeapInv s cs L) : ChunkSeq s (cs.map Chunk.view) := by
  refine ⟨_, walks_of_tiles h.inMem h.tiles, ?_⟩
  rw [List.map_map]
  refine List.map_congr_left fun c hc => ?_
  have hm := (h.inMem c hc).header
  simp only [Function.comp, viewChunk, Chunk.view, Chunk.size_eq hm,
    Chunk.flag_free hm, Chunk.flag_wild hm]

theorem mem_allocatedChunks {b : Nat × Nat} :
    b ∈ allocatedChunks (cs.map Chunk.view) ↔ ∃ c ∈ cs, c.free = false ∧ (c.addr, c.size) = b := by
  simp [allocatedChunks, Chunk.view, and_assoc]

theorem HeapInv.gapsApart (h : HeapInv s cs L) :
    GapsApart Chunk.addr Chunk.stop (fun c => c.free = true) cs :=
  h.coalesced

theorem HeapInv.allocated_not_wild (h : HeapInv s cs L) {c : Chunk} (hc : c ∈ cs)
    (hf : c.free = false) : c.wild = false := by
  by_contra hw
  rw [Bool.not_eq_false] at hw
  rw [(h.wilderness c hc hw).1] at hf
  cases hf

theorem HeapInv.same_allocated (h : HeapInv s cs L) (h' : HeapInv s' cs' L')
    (hsame : ∀ b, b ∈ allocatedChunks (cs.map Chunk.view) → b ∈ allocatedChunks (cs'.map Chunk.view))
    {c : Chunk} (hc : c ∈ cs) (hf : c.free = false) : c ∈ cs' := by
  obtain ⟨d, hd, hdf, hb⟩ := mem_allocatedChunks.1 (hsame _ (mem_allocatedChunks.2 ⟨c, hc, hf, rfl⟩))
  obtain ⟨ha, hs⟩ := Prod.mk.inj hb
  have hcd : d = c := by
    apply Chunk.ext ha hs
    · rw [hdf, hf]
    · rw [h.allocated_not_wild hc hf, h'.allocated_not_wild hd hdf]
  exact hcd ▸ hd

/-- Heaps that start at the same address and have the same allocated chunks
differ in the wilderness chunk alone. -/
theorem HeapInv.same_prefix (h : HeapInv s cs L) (h' : HeapInv s' cs' L')
    (hstart : s'.heap.start = s.heap.start)
    (hsame : ∀ c : Chunk, c.free = false → (c ∈ cs ↔ c ∈ cs')) :
    ∃ pre w w', cs = pre ++ [w] ∧ cs' = pre ++ [w'] ∧ w.addr = w'.addr ∧ w.free = true ∧
      w'.free = true ∧ w.wild = true ∧ w'.wild = true ∧ w.stop = s.heap.stop ∧
      w'.stop = s'.heap.stop := by
  obtain ⟨pre, w, rfl, hw, hf, -, hstop⟩ := h.exists_wilderness
  obtain ⟨pre', w', rfl, hw', hf', -, hstop'⟩ := h'.exists_wilderness
  have htiles := h.tiles
  have htiles' := h'.tiles
  rw [hstart] at htiles'
  -- a free chunk before the last one is not the wilderness
  have hnotwild : ∀ {t : HeapState} {xs : List Chunk} {x : Chunk} {M : Int → List Nat},
      HeapInv t (xs ++ [x]) M → ∀ c ∈ xs, c.wild = false := by
    intro t xs x M ht c hc
    by_contra hcw
    have hstopc := (ht.wild c (by simp [hc])).1 (by simpa using hcw)
    obtain ⟨b, hxs, hx, he⟩ := tiles_append.1 ht.tiles
    have := ((ChunkTiles.bounds hxs).2 c hc).2
    have := x.addr_le_stop
    have he' : x.stop = t.heap.stop := he
    omega
  obtain ⟨rfl, haddr⟩ := Tiles.eq_of_solid (fun c => by have := c.addr_le_stop; omega)
    htiles htiles' h.gapsApart h'.gapsApart hf hf'
    (fun c hc => hsame c (by simpa using hc))
    (fun c hc d hd hcf hdf ha hs => by
      have hsize : c.size = d.size := by unfold Chunk.stop at hs; omega
      apply Chunk.ext ha hsize (hcf.trans hdf.symm)
      rw [hnotwild h c hc, hnotwild h' d hd])
  exact ⟨pre, w, w', rfl, rfl, haddr, hf, hf', hw, hw', hstop, hstop'⟩

end

/-! ## Sequences of calls -/

inductive HeapCall where
  | malloc (n p : Nat)
  | free (p : Nat)
  | growth
  deriving DecidableEq

/-- A call that returns; `kfree` is given the block of an allocated chunk. -/
inductive HeapCall.Step : Kernel → HeapCall → Kernel → Prop where
  | malloc {k k' : Kernel} {n p : Nat} (hrun : (kmalloc n).run k = .ok p k') :
      Step k (.malloc n p) k'
  | free {k k' : Kernel} {hs : List Nat} {header : Nat}
      (hwalk : Walks k.sh.heap.mem k.sh.heap.heap.start hs k.sh.heap.heap.stop)
      (hmem : header ∈ hs) (halloc : getHeapChunkFlag k.sh.heap.mem header heapFreeChunk = false)
      (hrun : (kfree (getHeapChunkUserData header)).run k = .ok () k') :
      Step k (.free (getHeapChunkUserData header)) k'
  | growth {k k' : Kernel} (hrun : enableKheapGrowth.run k = .ok () k') : Step k .growth k'

inductive HeapCalls : Kernel → List HeapCall → Kernel → Prop where
  | nil {k : Kernel} : HeapCalls k [] k
  | cons {k k₁ k' : Kernel} {c : HeapCall} {calls : List HeapCall} (hstep : c.Step k k₁)
      (hrest : HeapCalls k₁ calls k') : HeapCalls k (c :: calls) k'

def ModestRequests (calls : List HeapCall) : Prop :=
  ∀ n p, HeapCall.malloc n p ∈ calls → n ≤ 2 ^ 63

/-- The blocks a client holds after its calls, if it freed only blocks it held. -/
def heldAfter : (blocks : List Nat) → (calls : List HeapCall) → Option (List Nat)
  | blocks, [] => some blocks
  | blocks, .malloc _ p :: calls => heldAfter (p :: blocks) calls
  | blocks, .free p :: calls => if p ∈ blocks then heldAfter (blocks.erase p) calls else none
  | blocks, .growth :: calls => heldAfter blocks calls

section

variable {k k' k₀ : Kernel} {cs : List Chunk} {L : Int → List Nat} {c : HeapCall}
  {calls : List HeapCall}

structure Later (k k' : Kernel) : Prop where
  backed : HeapBacked k'
  start : k'.sh.heap.heap.start = k.sh.heap.heap.start
  size : k.sh.heap.heap.size ≤ k'.sh.heap.heap.size

theorem Later.trans {k₁ k₂ k₃ : Kernel} (h₁ : Later k₁ k₂) (h₂ : Later k₂ k₃) : Later k₁ k₃ :=
  ⟨h₂.backed, h₂.start.trans h₁.start, h₁.size.trans h₂.size⟩

/-- What a call does to the allocated chunks. -/
inductive Reallocates (cs cs' : List Chunk) : HeapCall → Prop where
  | takes {n : Nat} {x : Chunk} (hfree : ∃ d ∈ cs, d.free = true ∧ d.addr = x.addr)
      (hx : x.free = false) (hblocks : ∀ d : Chunk, d.free = false → (d ∈ cs' ↔ d = x ∨ d ∈ cs)) :
      Reallocates cs cs' (.malloc n (x.addr + 8))
  /-- A request that is not served returns the address of a free chunk. -/
  | fails {n : Nat} {d : Chunk} (hd : d ∈ cs) (hfree : d.free = true) (hsame : cs' = cs) :
      Reallocates cs cs' (.malloc n (d.addr + 8))
  | frees {x : Chunk} (hx : x ∈ cs) (hfree : x.free = false)
      (hblocks : ∀ d : Chunk, d.free = false → (d ∈ cs' ↔ d ∈ cs ∧ d ≠ x)) :
      Reallocates cs cs' (.free (x.addr + 8))
  | growth (hsame : cs' = cs) : Reallocates cs cs' .growth

theorem HeapCall.Step.cases (h : c.Step k k') (hreq : ∀ n p, c = .malloc n p → n ≤ 2 ^ 63)
    (hb : HeapBacked k) (hinv : HeapInv k.sh.heap cs L) :
    Later k k' ∧ ∃ cs' L', HeapInv k'.sh.heap cs' L' ∧ Reallocates cs cs' c := by
  cases h with
  | malloc hrun =>
    obtain ⟨hb', ⟨g, hext⟩, hres⟩ := kmalloc_ok hinv hb (hreq _ _ rfl) hrun
    have hsize := hext.size
    refine ⟨⟨hb', hext.start, by omega⟩, ?_⟩
    rcases hres with ⟨-, cs', L', x, hinv', halloc, -, rfl⟩ | ⟨-, hsame, d, hd, hdf, rfl⟩
    · exact ⟨cs', L', hinv', .takes halloc.taken halloc.allocated halloc.blocks⟩
    · exact ⟨cs, L, hsame ▸ hinv, .fails hd hdf rfl⟩
  | free hwalk hmem halloc hrun =>
    rw [hwalk.unique (walks_of_tiles hinv.inMem hinv.tiles)] at hmem
    obtain ⟨x, hx, rfl⟩ := List.mem_map.1 hmem
    rw [Chunk.flag_free (hinv.inMem x hx).header] at halloc
    rw [Chunk.userData_eq] at hrun ⊢
    obtain ⟨hb', hext, cs', L', hinv', hfrees⟩ := kfree_ok hinv hb hx halloc hrun
    have hsize := hext.size
    exact ⟨⟨hb', hext.start, by omega⟩, cs', L', hinv', .frees hx halloc hfrees.blocks⟩
  | growth hrun =>
    obtain ⟨hb', hinv'⟩ := enableKheapGrowth_ok hinv hb hrun
    have hheap := (run_enableKheapGrowth_ok hrun).2
    exact ⟨⟨hb', by rw [hheap], by rw [hheap]⟩, cs, L, hinv', .growth rfl⟩

theorem HeapCalls.inv (h : HeapCalls k calls k') (hreq : ModestRequests calls) (hb : HeapBacked k)
    (hinv : HeapInv k.sh.heap cs L) : Later k k' ∧ ∃ cs' L', HeapInv k'.sh.heap cs' L' := by
  induction h generalizing cs L with
  | nil => exact ⟨⟨hb, rfl, le_refl _⟩, cs, L, hinv⟩
  | cons hstep _ ih =>
    obtain ⟨hlater, cs₁, L₁, hinv₁, -⟩ := hstep.cases
      (fun n p he => hreq n p (by rw [he]; exact List.mem_cons_self)) hb hinv
    obtain ⟨hlater', hrest⟩ := ih (fun n p hm => hreq n p (List.mem_cons_of_mem _ hm)) hlater.backed
      hinv₁
    exact ⟨hlater.trans hlater', hrest⟩

/-- Since the chunks were `cs₁`, only the blocks a client holds have been allocated. -/
structure Holds (cs₁ cs : List Chunk) (blocks : List Nat) : Prop where
  kept : ∀ d ∈ cs₁, d.free = false → d ∈ cs
  new : ∀ d ∈ cs, d.free = false → d ∈ cs₁ ∨ d.addr + 8 ∈ blocks
  apart : ∀ d ∈ cs₁, d.free = false → d.addr + 8 ∉ blocks

theorem HeapInv.addr_ne_of_free {s : HeapState} (h : HeapInv s cs L) {c d : Chunk} (hc : c ∈ cs)
    (hd : d ∈ cs) (hcf : c.free = true) (hdf : d.free = false) : c.addr ≠ d.addr := by
  intro ha
  rw [h.eq_of_addr hc hd ha, hdf] at hcf
  cases hcf

theorem HeapCalls.holds {cs₁ : List Chunk} {blocks left : List Nat} (h : HeapCalls k calls k')
    (hreq : ModestRequests calls) (hb : HeapBacked k) (hinv : HeapInv k.sh.heap cs L)
    (hold : Holds cs₁ cs blocks) (hheld : heldAfter blocks calls = some left) :
    ∃ cs' L', HeapInv k'.sh.heap cs' L' ∧ Holds cs₁ cs' left := by
  induction h generalizing cs L blocks with
  | nil =>
    cases hheld
    exact ⟨cs, L, hinv, hold⟩
  | @cons _ _ _ c calls hstep _ ih =>
    obtain ⟨hlater, cs', L', hinv', hre⟩ := hstep.cases
      (fun n p he => hreq n p (by rw [he]; exact List.mem_cons_self)) hb hinv
    have hreq' : ModestRequests calls := fun n p hm => hreq n p (List.mem_cons_of_mem _ hm)
    cases hre with
    | takes hfree hx hblocks =>
      refine ih hreq' hlater.backed hinv' ⟨fun d hd hdf => ?_, fun d hd hdf => ?_, fun d hd hdf => ?_⟩
        hheld
      · exact (hblocks d hdf).2 (.inr (hold.kept d hd hdf))
      · rcases (hblocks d hdf).1 hd with rfl | hd
        · exact .inr List.mem_cons_self
        · exact (hold.new d hd hdf).imp_right (List.mem_cons_of_mem _)
      · obtain ⟨y, hy, hyf, hya⟩ := hfree
        have := hinv.addr_ne_of_free hy (hold.kept d hd hdf) hyf hdf
        exact List.not_mem_cons_of_ne_of_not_mem (by omega) (hold.apart d hd hdf)
    | fails hy hyf hsame =>
      subst hsame
      refine ih hreq' hlater.backed hinv' ⟨hold.kept, fun d hd hdf => ?_, fun d hd hdf => ?_⟩ hheld
      · exact (hold.new d hd hdf).imp_right (List.mem_cons_of_mem _)
      · have := hinv.addr_ne_of_free hy (hold.kept d hd hdf) hyf hdf
        exact List.not_mem_cons_of_ne_of_not_mem (by omega) (hold.apart d hd hdf)
    | @frees x hx hxf hblocks =>
      rw [heldAfter] at hheld
      split at hheld
      · next hmem =>
        refine ih hreq' hlater.backed hinv' ⟨fun d hd hdf => ?_, fun d hd hdf => ?_,
          fun d hd hdf hmem' => hold.apart d hd hdf (List.mem_of_mem_erase hmem')⟩ hheld
        · refine (hblocks d hdf).2 ⟨hold.kept d hd hdf, ?_⟩
          rintro rfl
          exact hold.apart d hd hdf hmem
        · obtain ⟨hd, hne⟩ := (hblocks d hdf).1 hd
          refine (hold.new d hd hdf).imp_right fun hin => ?_
          have hna : d.addr ≠ x.addr := fun ha => hne (hinv.eq_of_addr hd hx ha)
          exact (List.mem_erase_of_ne (by omega)).2 hin
      · cases hheld
    | growth hsame =>
      subst hsame
      exact ih hreq' hlater.backed hinv' hold hheld

end

/-- Two runs from one heap that end with the same allocated chunks and the same
size end with the same chunks; a run that frees all it allocated ends with the
chunks it started from, its wilderness chunk larger by what the heap grew. -/
theorem history_independent {k₀ k k' : Kernel} {calls calls' : List HeapCall} (h₀ : StartsHeap k₀)
    (hrun : HeapCalls k₀ calls k) (hrun' : HeapCalls k₀ calls' k') (hreq : ModestRequests calls)
    (hreq' : ModestRequests calls') :
    ∃ vs vs', ChunkSeq k.sh.heap vs ∧ ChunkSeq k'.sh.heap vs' ∧
      ((∀ b, b ∈ allocatedChunks vs ↔ b ∈ allocatedChunks vs') →
        k.sh.heap.heap.size = k'.sh.heap.heap.size →
        vs = vs' ∧ k.sh.heap.heap.numberOfChunks = k'.sh.heap.heap.numberOfChunks) ∧
      ∀ later k'', HeapCalls k later k'' → ModestRequests later → heldAfter [] later = some [] →
        ∃ pre w, vs = pre ++ [w] ∧ k.sh.heap.heap.size ≤ k''.sh.heap.heap.size ∧
          k''.sh.heap.heap.numberOfChunks = k.sh.heap.heap.numberOfChunks ∧
          ChunkSeq k''.sh.heap (pre ++
            [{ w with size := w.size + (k''.sh.heap.heap.size - k.sh.heap.heap.size) }]) := by
  obtain ⟨hb, c, L, hinv⟩ := h₀.inv
  obtain ⟨hlater₁, cs₁, L₁, hinv₁⟩ := hrun.inv hreq hb hinv
  obtain ⟨hlater₂, cs₂, L₂, hinv₂⟩ := hrun'.inv hreq' hb hinv
  refine ⟨_, _, hinv₁.chunkSeq, hinv₂.chunkSeq, fun hsame hsize => ?_, fun later k'' hl hq hh => ?_⟩
  · obtain ⟨pre, w, w', rfl, rfl, ha, hf, hf', hw, hw', hstop, hstop'⟩ :=
      hinv₁.same_prefix hinv₂ (hlater₂.start.trans hlater₁.start.symm) fun d hd =>
        ⟨fun hm => hinv₁.same_allocated hinv₂ (fun b => (hsame b).1) hm hd,
          fun hm => hinv₂.same_allocated hinv₁ (fun b => (hsame b).2) hm hd⟩
    have hstart := hlater₁.start.trans hlater₂.start.symm
    have hww : w = w' := by
      apply Chunk.ext ha ?_ (hf.trans hf'.symm) (hw.trans hw'.symm)
      unfold Heap.stop at hstop hstop'
      unfold Chunk.stop at hstop hstop'
      omega
    subst hww
    exact ⟨rfl, hinv₁.count.trans hinv₂.count.symm⟩
  · have hholds : Holds cs₁ cs₁ [] := ⟨fun d hd _ => hd, fun d hd _ => .inl hd, by simp⟩
    obtain ⟨cs₃, L₃, hinv₃, hold⟩ := hl.holds hq hlater₁.backed hinv₁ hholds hh
    obtain ⟨hlater₃, -⟩ := hl.inv hq hlater₁.backed hinv₁
    obtain ⟨pre, w, w', rfl, rfl, ha, hf, hf', hw, hw', hstop, hstop'⟩ :=
      hinv₁.same_prefix hinv₃ hlater₃.start fun d hd =>
        ⟨fun hm => hold.kept d hm hd, fun hm => (hold.new d hm hd).resolve_right (by simp)⟩
    have hstart := hlater₃.start
    have hsize := hlater₃.size
    refine ⟨pre.map Chunk.view, w.view, by simp, hsize, ?_, ?_⟩
    · rw [hinv₁.count, hinv₃.count]; simp
    · have hview : { w.view with
          size := w.view.size + (k''.sh.heap.heap.size - k.sh.heap.heap.size) } = w'.view := by
        have hs : w.size + (k''.sh.heap.heap.size - k.sh.heap.heap.size) = w'.size := by
          unfold Heap.stop Chunk.stop at hstop hstop'
          omega
        simp only [Chunk.view, ha, hs, hf, hf', hw, hw']
      have hseq := hinv₃.chunkSeq
      rw [List.map_append, List.map_singleton, ← hview] at hseq
      exact hseq

/-- A block of 56 bytes, and the same with another block that was freed again. -/
theorem history_independent_twoMallocs : ∃ pre w,
    ChunkSeq (afterMalloc 56 smallHeap).sh.heap (pre ++ [w]) ∧
    ChunkSeq (afterFree (kernelVmemStart + 4176) twoMallocs).sh.heap (pre ++ [w]) ∧
    (afterMalloc 56 smallHeap).sh.heap.heap.numberOfChunks =
      (afterFree (kernelVmemStart + 4176) twoMallocs).sh.heap.heap.numberOfChunks := by
  have hfirst : HeapCall.Step smallHeap (.malloc 56 (kernelVmemStart + 4104))
      (afterMalloc 56 smallHeap) :=
    .malloc (eq_of_returned (by decide +kernel))
  have hfree := @HeapCall.Step.free twoMallocs (afterFree (kernelVmemStart + 4176) twoMallocs)
    threeHeaders (kernelVmemStart + 4168) (by decide +kernel) (by decide) (by decide +kernel)
    (eq_of_returned (by decide +kernel))
  have hcalls : HeapCalls (afterMalloc 56 smallHeap)
      [.malloc 16 (kernelVmemStart + 4176), .free (kernelVmemStart + 4176)] _ :=
    .cons (.malloc (eq_of_returned (by decide +kernel))) (.cons hfree .nil)
  have hmodest : ModestRequests [.malloc 56 (kernelVmemStart + 4104),
      .malloc 16 (kernelVmemStart + 4176), .free (kernelVmemStart + 4176)] := by
    rintro _ _ (_ | ⟨_, _ | ⟨_, _ | ⟨_, ⟨⟩⟩⟩⟩) <;> decide
  obtain ⟨vs, vs', hseq, hseq', htwo, hlater⟩ := history_independent smallHeap_starts
    (.cons hfirst .nil) (.cons hfirst hcalls) (by rintro _ _ (_ | ⟨_, ⟨⟩⟩); decide) hmodest
  obtain ⟨pre, w, rfl, -, -, hback⟩ := hlater _ _ hcalls
    (fun n p hm => hmodest n p (List.mem_cons_of_mem _ hm)) (by decide +kernel)
  have hsize : (afterMalloc 56 smallHeap).sh.heap.heap.size =
      (afterFree (kernelVmemStart + 4176) twoMallocs).sh.heap.heap.size := by decide +kernel
  rw [← hsize, Nat.sub_self] at hback
  obtain rfl := hseq'.unique hback
  exact ⟨pre, w, hseq, hback, (htwo (fun _ => Iff.rfl) hsize).2⟩

/-- After a block of 100 bytes, a request of `2^64 - 16` bytes passes the size test
of the split, whose sum wraps: the chunks are the same as without it, but the
heap counts one more. -/
theorem exists_history_dependence :
    ∃ k₀ k k' calls calls' vs, StartsHeap k₀ ∧ HeapCalls k₀ calls k ∧ HeapCalls k₀ calls' k' ∧
      ChunkSeq k.sh.heap vs ∧ ChunkSeq k'.sh.heap vs ∧
      k.sh.heap.heap.size = k'.sh.heap.heap.size ∧
      k.sh.heap.heap.numberOfChunks ≠ k'.sh.heap.heap.numberOfChunks := by
  have h₁ : HeapCall.Step smallHeap (.malloc 100 (kernelVmemStart + 4104))
      (afterMalloc 100 smallHeap) :=
    .malloc (eq_of_returned (by decide +kernel))
  have h₂ : HeapCall.Step (afterMalloc 100 smallHeap)
      (.malloc (2 ^ 64 - 16) (kernelVmemStart + 4224))
      (afterMalloc (2 ^ 64 - 16) (afterMalloc 100 smallHeap)) :=
    .malloc (eq_of_returned (by decide +kernel))
  refine ⟨smallHeap, _, _, _, _,
    [⟨kernelVmemStart + 4096, 104, false, false⟩, ⟨kernelVmemStart + 4216, 8056, true, true⟩],
    smallHeap_starts, .cons h₁ .nil, .cons h₁ (.cons h₂ .nil), ?_, ?_, ?_, ?_⟩
  · exact ⟨[kernelVmemStart + 4096, kernelVmemStart + 4216],
      by decide +kernel⟩
  · exact ⟨[kernelVmemStart + 4096, kernelVmemStart + 4216],
      by decide +kernel⟩
  · decide +kernel
  · decide +kernel

end GarbageOS
