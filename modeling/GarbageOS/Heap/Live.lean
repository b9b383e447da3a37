import GarbageOS.Heap.Runs

/-!
# Live data, and pointers that were freed

`kmalloc` and `kfree` write headers, footers and links, all of them outside the
user data of the chunks that stay allocated. The header of a freed chunk, which
may end up in the middle of a larger free one, stays flagged free until memory
is allocated again, and so a second `kfree` of the pointer is caught.
-/

namespace GarbageOS

open Lib Relation

/-! ## Chunks from the words of the heap -/

/-- The representation invariant on an aligned heap whose headers hold a size and the two
flags, and no other bit. -/
structure HeapWords (s : HeapState) (hs : List Nat) : Prop extends HeapRep s hs where
  aligned : s.heap.start % 8 = 0
  headers : ∀ h ∈ hs, load s.mem h = getFixedHeapChunkSize s.mem h +
    (getHeapChunkFlag s.mem h heapFreeChunk).toNat +
    2 * (getHeapChunkFlag s.mem h heapWildernessChunk).toNat

section

variable {s s' : HeapState} {cs : List Chunk} {L : Int → List Nat} {m m' : Mem} {a e : Nat}
  {hs : List Nat}

theorem exists_chunks (h : Walks m a hs e) (hpos : 0 < a) (ha : a % 8 = 0) (he : e < 2 ^ 64)
    (hsizes : ∀ h ∈ hs, getFixedHeapChunkSize m h % 8 = 0 ∧ 16 ≤ getFixedHeapChunkSize m h ∧
      load m (getHeapChunkFooterFromHeader m h) = getFixedHeapChunkSize m h)
    (hheaders : ∀ h ∈ hs, load m h = getFixedHeapChunkSize m h +
      (getHeapChunkFlag m h heapFreeChunk).toNat +
      2 * (getHeapChunkFlag m h heapWildernessChunk).toNat) :
    ∃ cs, cs.map Chunk.addr = hs ∧ ChunkTiles a cs e ∧ ∀ c ∈ cs, c.InMem m := by
  induction hs generalizing a with
  | nil => exact ⟨[], rfl, h, by simp⟩
  | cons x hs ih =>
    obtain ⟨rfl, h⟩ := h
    obtain ⟨hmod, hmin, hfooter⟩ := hsizes x List.mem_cons_self
    have hend := Walks.le h
    unfold chunkEnd at h hend
    simp only [id] at hpos ha
    obtain ⟨cs, rfl, htiles, hin⟩ := ih h (by omega) (by omega)
      (fun y hy => hsizes y (List.mem_cons_of_mem _ hy))
      fun y hy => hheaders y (List.mem_cons_of_mem _ hy)
    obtain ⟨c, hc⟩ : ∃ c : Chunk, c = ⟨x, getFixedHeapChunkSize m x,
        getHeapChunkFlag m x heapFreeChunk, getHeapChunkFlag m x heapWildernessChunk, hpos, ha, hmod,
        hmin, by omega⟩ := ⟨_, rfl⟩
    have haddr : c.addr = x := by rw [hc]
    have hsize : c.size = getFixedHeapChunkSize m x := by rw [hc]
    have hheader : load m c.addr = c.word := by
      rw [haddr, hheaders x List.mem_cons_self, Chunk.word, hc]
    refine ⟨c :: cs, by rw [List.map_cons, haddr], ⟨haddr, ?_⟩, ?_⟩
    · rw [Chunk.stop, haddr, hsize]; exact htiles
    · rintro d hd
      rcases List.mem_cons.1 hd with rfl | hd
      · refine ⟨hheader, ?_⟩
        rw [← Chunk.footer_eq hheader, haddr, hfooter, hsize]
      · exact hin d hd

theorem HeapRep.exists_lists (h : HeapRep s (cs.map Chunk.addr)) (hin : ∀ c ∈ cs, c.InMem s.mem)
    (hap : Apart cs) : ∃ L, Lists s L ∧ Listed cs L := by
  have hbucket : ∀ i : Int, ∃ xs : List Nat,
      (0 ≤ i → i < 128 → s.heap.freeBuckets i = xs.headD 0) ∧
      Segment (nextOf s.mem) (prevOf s.mem) 0 xs 0 ∧ xs.Nodup ∧
      ∀ a, a ∈ xs ↔ ∃ c ∈ cs, c.free = true ∧ c.bucket = i ∧ c.addr = a := by
    intro i
    by_cases hi : 0 ≤ i ∧ i < 128
    · obtain ⟨xs, hhead, hseg, hnd, hmem⟩ := h.buckets i hi.1 hi.2
      refine ⟨xs, fun _ _ => hhead, hseg, hnd, fun a => ?_⟩
      rw [hmem]
      constructor
      · rintro ⟨ha, hf, hb⟩
        obtain ⟨c, hc, rfl⟩ := List.mem_map.1 ha
        rw [Chunk.flag_free (hin c hc).header] at hf
        rw [Chunk.bucket_eq (hin c hc).header] at hb
        exact ⟨c, hc, hf, hb, rfl⟩
      · rintro ⟨c, hc, hf, hb, rfl⟩
        rw [Chunk.flag_free (hin c hc).header, Chunk.bucket_eq (hin c hc).header]
        exact ⟨List.mem_map_of_mem hc, hf, hb⟩
    · refine ⟨[], fun h0 h1 => (hi ⟨h0, h1⟩).elim, trivial, List.nodup_nil, fun a => ?_⟩
      constructor
      · intro ha
        cases ha
      · rintro ⟨c, -, -, rfl, -⟩
        exact (hi c.bucket_range).elim
  choose L hhead hseg hnd hlisted using hbucket
  refine ⟨L, ⟨hhead, hseg, hnd, ?_, ?_, ?_, ?_, ?_⟩, hlisted⟩
  · intro i a ha
    obtain ⟨c, -, -, rfl, -⟩ := (hlisted i a).1 ha
    exact c.bucket_range
  · intro i a ha
    obtain ⟨c, -, -, -, rfl⟩ := (hlisted i a).1 ha
    have := c.addr_pos
    have := c.addr_le_stop
    have := c.fits
    unfold Chunk.stop at *
    omega
  · intro i a ha
    obtain ⟨c, hc, hf, -, rfl⟩ := (hlisted i a).1 ha
    rw [(hin c hc).header, c.word_mod_two, hf]
    rfl
  · intro i a ha
    obtain ⟨c, hc, -, rfl, rfl⟩ := (hlisted i a).1 ha
    exact Chunk.bucket_eq (hin c hc).header
  · intro i j a b ha hb hne
    obtain ⟨c, hc, -, -, rfl⟩ := (hlisted i a).1 ha
    obtain ⟨d, hd, -, -, rfl⟩ := (hlisted j b).1 hb
    have := c.addr_le_stop
    have := d.addr_le_stop
    rcases hap c hc d hd with rfl | hcd | hcd
    · exact (hne rfl).elim
    · omega
    · omega

theorem HeapWords.inv (h : HeapWords s hs) (hpos : 0 < s.heap.start) (hfits : s.heap.stop < 2 ^ 64) :
    ∃ cs L, HeapInv s cs L := by
  obtain ⟨cs, rfl, htiles, hin⟩ := exists_chunks h.tiles hpos h.aligned hfits h.sizes h.headers
  obtain ⟨L, hlists, hlisted⟩ := h.exists_lists hin fun c hc d hd => htiles.apart hc hd
  obtain ⟨pre, hpre, hnot, hwild, hfree⟩ := h.wilderness
  obtain ⟨cs, ds, rfl, rfl, hlast⟩ := List.map_eq_append_iff.1 hpre
  obtain ⟨w, rfl, hw⟩ : ∃ w, ds = [w] ∧ w.addr = s.heap.wildernessChunk := by
    cases ds with
    | nil => cases hlast
    | cons w ds =>
      obtain ⟨hw, hnil⟩ := List.cons.inj hlast
      exact ⟨w, by rw [List.map_eq_nil_iff.1 hnil], hw⟩
  have hwin := (hin w (by simp)).header
  rw [← hw, Chunk.flag_wild hwin] at hwild
  rw [← hw, Chunk.flag_free hwin] at hfree
  obtain ⟨b, hbefore, hb, hstop⟩ := tiles_append.1 htiles
  have hstop : w.stop = s.heap.stop := hstop
  -- the chunks before the last one end before the end of the heap, and are not flagged
  have hbefore : ∀ c ∈ cs, c.stop ≠ s.heap.stop ∧ c.wild = false := fun c hc => by
    have hle := (ChunkTiles.bounds hbefore).2 c hc
    have := w.addr_le_stop
    refine ⟨by omega, ?_⟩
    rw [← Chunk.flag_wild (hin c (by simp [hc])).header]
    exact hnot _ (List.mem_map_of_mem hc)
  refine ⟨cs ++ [w], L, ⟨⟨⟨hin, fun c hc => ?_, fun c hc hcw => ?_, fun c hc d hd hcd hcf hdf => ?_,
    hlists, hlisted⟩, htiles, by simp⟩, ?_⟩⟩
  · rcases List.mem_append.1 hc with hc | hc
    · simp [hbefore c hc]
    · rw [List.mem_singleton.1 hc]
      exact iff_of_true hwild hstop
  · rcases List.mem_append.1 hc with hc | hc
    · rw [(hbefore c hc).2] at hcw
      cases hcw
    · rw [List.mem_singleton.1 hc]
      exact ⟨hfree, hw.symm⟩
  · refine h.coalesced c.addr (List.mem_map_of_mem hc) d.addr (List.mem_map_of_mem hd) ?_ ⟨?_, ?_⟩
    · rw [Chunk.chunkEnd_eq (hin c hc), hcd]
    · rw [Chunk.flag_free (hin c hc).header, hcf]
    · rw [Chunk.flag_free (hin d hd).header, hdf]
  · rw [h.count, List.length_map]

theorem HeapInv.words (h : HeapInv s cs L) : HeapWords s (cs.map Chunk.addr) where
  toHeapRep := h.rep
  aligned := by
    obtain ⟨c, cs, rfl⟩ := List.exists_cons_of_ne_nil h.nonempty
    obtain ⟨hc, -⟩ := h.tiles
    rw [← hc, c.addr_mod]
  headers a ha := by
    obtain ⟨c, hc, rfl⟩ := List.mem_map.1 ha
    have hm := (h.inMem c hc).header
    rw [hm, Chunk.size_eq hm, Chunk.flag_free hm, Chunk.flag_wild hm, Chunk.word]

/-! ## Live data -/

theorem HeapInv.isAllocated_iff (h : HeapInv s cs L) {header : Nat} :
    IsAllocated s header ↔ ∃ c ∈ cs, c.free = false ∧ c.addr = header := by
  have hwalk := walks_of_tiles h.inMem h.tiles
  constructor
  · rintro ⟨hs, hw, hmem, hflag⟩
    rw [hw.unique hwalk] at hmem
    obtain ⟨c, hc, rfl⟩ := List.mem_map.1 hmem
    rw [Chunk.flag_free (h.inMem c hc).header] at hflag
    exact ⟨c, hc, hflag, rfl⟩
  · rintro ⟨c, hc, hf, rfl⟩
    exact ⟨_, hwalk, List.mem_map_of_mem hc,
      (Chunk.flag_free (h.inMem c hc).header).trans hf⟩

def InUserData (s : HeapState) (header w : Nat) : Prop :=
  header + 8 ≤ w ∧ w < header + 8 + getFixedHeapChunkSize s.mem header

theorem HeapInv.inUserData_iff (h : HeapInv s cs L) {c : Chunk} (hc : c ∈ cs) {w : Nat} :
    InUserData s c.addr w ↔ c.addr + 8 ≤ w ∧ w < c.footerAddr := by
  rw [InUserData, Chunk.size_eq (h.inMem c hc).header, Chunk.footerAddr]

theorem Untouched.inUserData (h : Untouched cs m m') {c : Chunk} (hc : c ∈ cs)
    (hf : c.free = false) {w : Nat} (hw : c.addr + 8 ≤ w ∧ w < c.footerAddr) : m' w = m w := by
  have := c.footer_bounds
  exact h c hc hf w (by omega) (by omega)

end

/-- No `kmalloc` or `kfree` changes the user data of a chunk that is allocated before and
after the call. -/
theorem live_data_unchanged {k k' : Kernel} {hs : List Nat} (hwords : HeapWords k.sh.heap hs)
    (hback : HeapBacked k) (hstep : ChunkStep k k') {header w : Nat}
    (hbefore : IsAllocated k.sh.heap header) (hafter : IsAllocated k'.sh.heap header)
    (hw : InUserData k.sh.heap header w) : k'.sh.heap.mem w = k.sh.heap.mem w := by
  have hupper := hback.upper
  have htop := hback.top
  have hfits := hback.fits
  obtain ⟨cs, L, hinv⟩ := hwords.inv (Nat.lt_of_lt_of_le (by decide) hupper) (by omega)
  obtain ⟨c, hc, hcf, rfl⟩ := hinv.isAllocated_iff.1 hbefore
  rw [hinv.inUserData_iff hc] at hw
  cases hstep with
  | malloc hn hrun =>
    obtain ⟨-, -, ⟨-, cs', L', d, -, halloc, -⟩ | ⟨-, hsame, -⟩⟩ :=
      kmalloc_ok hinv hback (hn.trans (by decide)) hrun
    · exact halloc.untouched.inUserData hc hcf hw
    · rw [hsame]
  | free hwalk hmem halloc hrun =>
    obtain ⟨d, hd, hdf, rfl⟩ := hinv.isAllocated_iff.1 ⟨_, hwalk, hmem, halloc⟩
    rw [Chunk.userData_eq] at hrun
    obtain ⟨-, -, cs', L', hinv', hfrees⟩ := kfree_ok hinv hback hd hdf hrun
    obtain ⟨x, hx, hxf, hxc⟩ := hinv'.isAllocated_iff.1 hafter
    obtain rfl := hinv.eq_of_addr ((hfrees.blocks x hxf).1 hx).1 hc hxc
    exact hfrees.untouched.inUserData hx hxf hw
  | growth hrun =>
    rw [(run_enableKheapGrowth_ok hrun).2]

/-- The second block keeps its data when the first one is freed. -/
theorem live_data_holedHeap : holedHeap.sh.heap.mem (kernelVmemStart + 4176) =
    twoMallocs.sh.heap.mem (kernelVmemStart + 4176) := by
  obtain ⟨hb, cs, L, hinv⟩ := chunks_of_run smallHeap_starts twoMallocs_reached
  exact live_data_unchanged hinv.words hb holedHeap_step twoMallocs_allocated.2
    ⟨threeHeaders, by decide +kernel⟩ ⟨by decide +kernel, by decide +kernel⟩

/-! ## Freeing twice -/

/-- The words that clients may write: the user data of the allocated chunks. -/
def ClientWord (s : HeapState) (w : Nat) : Prop := ∃ header, IsAllocated s header ∧ InUserData s header w

/-- Clients write into the chunks they hold. -/
inductive ClientWrites : Kernel → Kernel → Prop where
  | write {k : Kernel} {m : Mem} (h : AgreeOff (ClientWord k.sh.heap) k.sh.heap.mem m) :
      ClientWrites k (k.setHeap { k.sh.heap with mem := m })

section

variable {s : HeapState} {cs : List Chunk} {L : Int → List Nat} {m : Mem} {k k' k₁ k₂ : Kernel}
  {a header : Nat}

theorem HeapInv.not_clientWord (h : HeapInv s cs L) {c : Chunk} (hc : c ∈ cs) {w : Nat}
    (hw : w = c.addr ∨ w = c.footerAddr ∨ c.free = true ∧ c.addr ≤ w ∧ w < c.stop) :
    ¬ ClientWord s w := by
  rintro ⟨header, halloc, hin⟩
  obtain ⟨d, hd, hdf, rfl⟩ := h.isAllocated_iff.1 halloc
  rw [h.inUserData_iff hd] at hin
  have hcfoot := c.footer_bounds
  have hdfoot := d.footer_bounds
  rcases h.apart c hc d hd with rfl | hcd | hcd
  · rw [hdf] at hw
    simp only [Bool.false_eq_true, false_and, or_false] at hw
    omega
  · omega
  · omega

theorem HeapInv.clientWrite (h : HeapInv s cs L) (hm : AgreeOff (ClientWord s) s.mem m) :
    HeapInv { s with mem := m } cs L := by
  have hkeep : ∀ c ∈ cs, c.InMem m := fun c hc => (h.inMem c hc).congr
    (hm _ (h.not_clientWord hc (.inl rfl))) (hm _ (h.not_clientWord hc (.inr (.inl rfl))))
  refine ⟨⟨⟨hkeep, h.wild, h.wilderness, h.coalesced, h.lists.frame rfl fun i x hx => ?_, h.listed⟩,
    h.tiles, h.nonempty⟩, h.count⟩
  obtain ⟨c, hc, hcf, -, rfl⟩ := (h.listed i x).1 hx
  have := c.addr_le_stop
  have hfree : ∀ w, c.addr ≤ w → w < c.stop → m w = s.mem w := fun w h₁ h₂ =>
    hm w (h.not_clientWord hc (.inr (.inr ⟨hcf, h₁, h₂⟩)))
  exact ⟨hfree _ (by omega) (by omega), hfree _ (by omega) (by omega), hfree _ (by omega) (by omega)⟩

theorem Stale.clientWrite (ha : Stale cs s.mem a) (h : HeapInv s cs L)
    (hm : AgreeOff (ClientWord s) s.mem m) : Stale cs m a := by
  obtain ⟨hodd, b, hb, hbf, hpos⟩ := ha
  have hfoot := b.footer_bounds
  refine ⟨?_, b, hb, hbf, hpos⟩
  rw [hm.load (h.not_clientWord hb (.inr (.inr ⟨hbf, by omega, by omega⟩))), hodd]

/-- A use of the heap: a call, or writes of its clients. -/
def HeapUse (k k' : Kernel) : Prop := ChunkStep k k' ∨ ClientWrites k k'

theorem HeapUse.inv (h : HeapUse k k') (hi : HeapBacked k ∧ ∃ cs L, HeapInv k.sh.heap cs L) :
    HeapBacked k' ∧ ∃ cs L, HeapInv k'.sh.heap cs L := by
  obtain ⟨hb, cs, L, hinv⟩ := hi
  rcases h with h | h
  · exact h.inv ⟨hb, cs, L, hinv⟩
  · obtain ⟨hm⟩ := h
    exact ⟨{ hb with }, cs, L, hinv.clientWrite hm⟩

/-- `kfree` of an allocated chunk that returns, or writes of the clients. -/
inductive FreeOrWrite : Kernel → Kernel → Prop where
  | free {k k' : Kernel} {header : Nat} (halloc : IsAllocated k.sh.heap header)
      (hrun : (kfree (getHeapChunkUserData header)).run k = .ok () k') : FreeOrWrite k k'
  | write {k k' : Kernel} (h : ClientWrites k k') : FreeOrWrite k k'

/-- The header at `a` is stale, and the heap lock is free. -/
structure StaleAt (a : Nat) (k : Kernel) : Prop where
  backed : HeapBacked k
  unlocked : .kheap ∉ k.cpu.held
  stale : ∃ cs L, HeapInv k.sh.heap cs L ∧ Stale cs k.sh.heap.mem a

theorem run_kfree_held {p : Nat} {u : Unit} (h : (kfree p).run k = .ok u k') :
    k'.cpu.held = k.cpu.held ∧ .kheap ∉ k.cpu.held := by
  unfold kfree at h
  obtain ⟨hl, t, ht, rfl⟩ := run_withLock_ok.1 h
  obtain ⟨s', -, rfl⟩ := run_onHeap_ok.1 ht
  have hheld : (Lock.kheap :: k.cpu.held).erase .kheap = k.cpu.held := List.erase_cons_head _ _
  exact ⟨hheld, hl⟩

theorem kfree_staleAt (hb : HeapBacked k) (hinv : HeapInv k.sh.heap cs L)
    (halloc : IsAllocated k.sh.heap header)
    (hrun : (kfree (getHeapChunkUserData header)).run k = .ok () k')
    (ha : a = header ∨ Stale cs k.sh.heap.mem a) : StaleAt a k' := by
  obtain ⟨c, hc, hcf, rfl⟩ := hinv.isAllocated_iff.1 halloc
  rw [Chunk.userData_eq] at hrun
  obtain ⟨hb', -, cs', L', hinv', hfrees⟩ := kfree_ok hinv hb hc hcf hrun
  obtain ⟨hheld, hl⟩ := run_kfree_held hrun
  exact ⟨hb', hheld ▸ hl, cs', L', hinv', hfrees.stale a ha⟩

theorem FreeOrWrite.staleAt (h : FreeOrWrite k k') (hs : StaleAt a k) : StaleAt a k' := by
  obtain ⟨hb, hl, cs, L, hinv, hstale⟩ := hs
  cases h with
  | free halloc hrun => exact kfree_staleAt hb hinv halloc hrun (.inr hstale)
  | write h =>
    obtain ⟨hm⟩ := h
    exact ⟨{ hb with }, hl, cs, L, hinv.clientWrite hm, hstale.clientWrite hinv hm⟩

/-- `kfree` finds the stale header flagged free, before it writes anything. -/
theorem StaleAt.kfree_panics (h : StaleAt header k) :
    ∃ k', (kfree (getHeapChunkUserData header)).run k = .error (.panic .heapCorrupted) k' ∧
      k'.sh.heap = k.sh.heap := by
  obtain ⟨-, hl, cs, L, -, hodd, b, -, -, hpos⟩ := h
  have hfits := b.fits
  have hfoot := b.footer_bounds
  unfold Chunk.stop at hfoot
  have hheader : getHeapChunkFromUserData (getHeapChunkUserData header) = header := by
    rw [getHeapChunkUserData, add64_eq (by omega), getHeapChunkFromUserData,
      sub64_eq (by omega) (by omega)]
    omega
  have hstop : (freeChunk (getHeapChunkUserData header)).run k.sh.heap =
      .error (.panic .heapCorrupted) k.sh.heap := by
    unfold freeChunk
    rw [hheader, run_get_bind]
    exact run_bind_of_error (run_check_false (by rw [flag_free_of_odd hodd]; rfl))
  exact ⟨_, run_withLock_of_error hl (run_zoom_of_error hstop), rfl⟩

end

/-- A second `kfree` of a pointer panics and leaves the heap as it is, whatever other chunks
were freed in between and whatever was written into the chunks that were still allocated. -/
theorem double_free_panics {k₀ k k₁ k₂ : Kernel} {header : Nat} (hstart : StartsHeap k₀)
    (huses : ReflTransGen HeapUse k₀ k) (halloc : IsAllocated k.sh.heap header)
    (hfree : (kfree (getHeapChunkUserData header)).run k = .ok () k₁)
    (hrest : ReflTransGen FreeOrWrite k₁ k₂) :
    ∃ k', (kfree (getHeapChunkUserData header)).run k₂ = .error (.panic .heapCorrupted) k' ∧
      k'.sh.heap = k₂.sh.heap := by
  obtain ⟨hb₀, c, L₀, hinv₀⟩ := hstart.inv
  have hinit : HeapBacked k₀ ∧ ∃ cs L, HeapInv k₀.sh.heap cs L := ⟨hb₀, [c], L₀, hinv₀⟩
  obtain ⟨hb, cs, L, hinv⟩ := invariant_of_steps (fun _ _ hstep => HeapUse.inv hstep) huses hinit
  have hstale := kfree_staleAt hb hinv halloc hfree (.inl rfl)
  exact (invariant_of_steps (fun _ _ hstep => FreeOrWrite.staleAt hstep) hrest hstale).kfree_panics

/-- Two blocks are freed, so that the header of the second one is inside a larger free chunk. -/
theorem double_free_panics_small : ∃ k', (kfree (kernelVmemStart + 4176)).run
    (afterFree (kernelVmemStart + 4104) (afterFree (kernelVmemStart + 4176) twoMallocs)) =
      .error (.panic .heapCorrupted) k' := by
  have hfree : (kfree (kernelVmemStart + 4176)).run twoMallocs =
      .ok () (afterFree (kernelVmemStart + 4176) twoMallocs) := eq_of_returned (by decide +kernel)
  have hrest : FreeOrWrite (afterFree (kernelVmemStart + 4176) twoMallocs)
      (afterFree (kernelVmemStart + 4104) (afterFree (kernelVmemStart + 4176) twoMallocs)) :=
    .free (show IsAllocated _ (kernelVmemStart + 4096) from
      ⟨[kernelVmemStart + 4096, kernelVmemStart + 4168], by decide +kernel⟩)
      (eq_of_returned (by decide +kernel))
  have huses : ReflTransGen HeapUse smallHeap twoMallocs :=
    ReflTransGen.mono (fun _ _ => Or.inl) _ _ twoMallocs_reached
  obtain ⟨k', hpanic, -⟩ := double_free_panics smallHeap_starts huses
    twoMallocs_allocated.2 hfree (.single hrest)
  exact ⟨k', hpanic⟩

end GarbageOS
