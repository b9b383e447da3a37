import GarbageOS.Heap.Ops

/-!
# A fresh heap, a grown heap, and the search for a chunk

`initialize_heap` makes a heap of one chunk. Growing moves the end of the
wilderness chunk, which stays where it is in its bucket. The search loops of
`kmalloc` find the first suitable chunk of the buckets they visit, in order.
-/

namespace GarbageOS

open Lib Function

/-! ## A fresh heap -/

theorem initializeHeap_spec {s : HeapState} {vmem : VMemHandle} {start size : Nat}
    (hpos : 0 < start) (hfits : start + size < 2 ^ 64) (hsize : 128 < size) (hmod : start % 8 = 0)
    (hmod' : size % 8 = 0) :
    ∃ s' c L, (initializeHeap vmem start size).run s = .ok () s' ∧ HeapInv s' [c] L ∧
      c.addr = start ∧ s'.heap.start = start ∧ s'.heap.size = size ∧ s'.heap.heapVmem = vmem ∧
      s'.heap.enableGrowth = false := by
  let c : Chunk := ⟨start, size - 16, true, true, hpos, hmod, by omega, by omega, by omega⟩
  have hstop : c.stop = start + size := by show start + 8 + (size - 16) + 8 = _; omega
  have hword : c.word = size - 16 + 3 := rfl
  -- the state before the chunk is put in its bucket
  let s₁ : HeapState :=
    { mem := putChunk s.mem c
      heap := { s.heap with
        freeBuckets := fun i => if 0 ≤ i ∧ i < bucketsCount then 0 else s.heap.freeBuckets i
        enableGrowth := false, start := start, size := size, numberOfChunks := 1, heapVmem := vmem
        wildernessChunk := start } }
  have hole : Hole s₁ [] c.addr c.stop [] (fun _ => []) := by
    have hlists : Lists s₁ (fun _ => []) := by
      refine ⟨fun i h0 h1 => ?_, ?_, ?_, ?_, ?_, ?_, ?_, ?_⟩
      · have : (0 : Int) ≤ i ∧ i < bucketsCount := ⟨h0, h1⟩
        simp only [s₁, this, and_self, if_true, List.headD_nil]
      all_goals simp
    exact ⟨⟨by simp, by simp, by simp, by simp, hlists, by simp [Listed]⟩, rfl, hstop,
      c.addr_le_stop⟩
  obtain ⟨s', hrun, hshape, hr⟩ := hole.close_free
    ⟨by simp [c, hstop, Heap.stop, s₁], fun _ => ⟨rfl, rfl⟩, by simp, by simp⟩ (putChunk_inMem _ _) rfl
  have harena := hr.sameArena
  refine ⟨s', c, _, ?_, ⟨hshape, hr.count_eq⟩, rfl, harena.start, harena.size, harena.vmem,
    harena.growth⟩
  have huser : sub64 (sub64 size 8) 8 = size - 16 := by unfold sub64; omega
  have hor : ((size - 16) ||| 2) ||| 1 = c.word := by
    rw [hword, Nat.or_assoc, show 2 ||| 1 = 3 from rfl, or_eq_add (k := 3) (by omega) (by omega)]
  have hlt : (size - 16) ||| 2 < 2 ^ 64 := by rw [or_eq_add (k := 3) (by omega) (by omega)]; omega
  have hflags : setHeapChunkFlag (setHeapChunkFlag (store s.mem start (size - 16)) start
      heapWildernessChunk) start heapFreeChunk = store s.mem c.addr c.word := by
    have h1 : load (store s.mem start (size - 16)) start = size - 16 := load_store_same (by omega)
    simp only [setHeapChunkFlag, h1, store_store_same, load_store_same hlt, heapWildernessChunk,
      heapFreeChunk, hor]
    rfl
  have hfooter : getHeapChunkFooterFromHeader (store s.mem c.addr c.word) start = c.footerAddr :=
    Chunk.footer_eq (c := c) (load_store_same c.word_lt)
  unfold initializeHeap
  rw [run_kassert_pos (by simpa using hsize), run_kassert_pos (by simp [hmod]),
    run_kassert_pos (by simp [hmod']), run_modifyHeap_bind, huser]
  simp only [run_modifyMem_bind, run_modifyHeap_bind, hflags, hfooter]
  exact hrun

/-! ## Growth -/

/-- `w'` is the wilderness chunk `w` made `g` bytes longer. -/
structure Grown (w w' : Chunk) (g : Nat) : Prop where
  free : w.free = true
  wild : w.wild = true
  addr : w'.addr = w.addr
  size : w'.size = w.size + g
  free' : w'.free = true
  wild' : w'.wild = true

theorem Chunk.exists_grown {w : Chunk} {g : Nat} (hf : w.free = true) (hw : w.wild = true)
    (hg : g % 8 = 0) (hfits : w.stop + g < 2 ^ 64) : ∃ w', Grown w w' g := by
  have h1 := w.addr_pos; have h2 := w.addr_mod; have h3 := w.size_mod; have h4 := w.size_min
  unfold Chunk.stop at hfits
  exact ⟨⟨w.addr, w.size + g, true, true, h1, h2, by omega, by omega, by omega⟩, hf, hw, rfl, rfl,
    rfl, rfl⟩

theorem Grown.stop {w w' : Chunk} {g : Nat} (h : Grown w w' g) : w'.stop = w.stop + g := by
  have h1 := h.addr; have h2 := h.size
  unfold Chunk.stop; omega

theorem Grown.bucket {w w' : Chunk} {g : Nat} (h : Grown w w' g) : w'.bucket = w.bucket := by
  simp [Chunk.bucket, h.wild, h.wild']

theorem HeapShape.exists_wilderness {s : HeapState} {cs : List Chunk} {L : Int → List Nat}
    (h : HeapShape s cs L) : ∃ pre w, cs = pre ++ [w] ∧ w.wild = true ∧ w.free = true ∧
      w.addr = s.heap.wildernessChunk ∧ w.stop = s.heap.stop := by
  rcases List.eq_nil_or_concat' cs with rfl | ⟨pre, w, rfl⟩
  · exact absurd rfl h.nonempty
  · have hm : w ∈ pre ++ [w] := by simp
    obtain ⟨b, -, rfl, hstop⟩ := tiles_append.1 h.tiles
    have hw := (h.wild w hm).2 hstop
    exact ⟨pre, w, rfl, hw, (h.wilderness w hm hw).1, (h.wilderness w hm hw).2.symm, hstop⟩

/-- The state after the wilderness chunk has become `w'`. -/
def grown (s : HeapState) (w' : Chunk) (g : Nat) : HeapState where
  mem := putChunk s.mem w'
  heap := { s.heap with size := s.heap.size + g }

section Grow

variable {s : HeapState} {pre : List Chunk} {w w' : Chunk} {L : Int → List Nat} {g : Nat}

/-- Only the header of the wilderness is written, and words that were above its user data. -/
theorem Grown.agree (hg : Grown w w' g) (m : Mem) :
    AgreeOff (fun a => a = w.addr ∨ w.footerAddr ≤ a) m (putChunk m w') := by
  have h1 := w.footer_bounds; have h2 := w'.footer_bounds; have h3 := hg.stop
  exact putChunk_agree _ _ (.inl hg.addr) (.inr (by omega))

section

variable (h : HeapInv s (pre ++ [w]) L) (hg : Grown w w' g)

include h hg

theorem HeapInv.grow_keeps {d : Chunk} (hd : d ∈ pre) {a : Nat} (ha : a < d.stop) :
    putChunk s.mem w' a = s.mem a := by
  have h3 : d.stop ≤ w.addr := (ChunkTiles.around h.tiles).1 d hd
  have h4 := w.footer_bounds
  exact hg.agree s.mem a (by omega)

theorem HeapInv.grow_inMem {d : Chunk} (hd : d ∈ pre) : d.InMem (putChunk s.mem w') := by
  have h1 := d.footer_bounds
  exact (h.inMem d (List.mem_append_left _ hd)).congr (h.grow_keeps hg hd (by omega))
    (h.grow_keeps hg hd (by omega))

theorem HeapInv.grow_lists : Lists (grown s w' g) L ∧ Listed (pre ++ [w']) L := by
  have hin := putChunk_inMem s.mem w'
  have hmem : ∀ d ∈ pre ++ [w], d ∈ pre ∨ d = w := fun d hd => by simpa using hd
  refine ⟨h.lists.reheader rfl (fun i a hai => ?_) fun i a hai => ?_, fun i a => ?_⟩
  · obtain ⟨d, hd, hdf, rfl, rfl⟩ := (h.listed i a).1 hai
    rcases hmem d hd with hd | rfl
    · have hin' := (h.grow_inMem hg hd).header
      simp only [grown]
      rw [hin', d.word_mod_two, hdf, Chunk.bucket_eq hin']
      exact ⟨rfl, rfl⟩
    · simp only [grown]
      rw [← hg.addr, hin.header, w'.word_mod_two, hg.free', Chunk.bucket_eq hin.header, hg.bucket]
      exact ⟨rfl, rfl⟩
  · obtain ⟨d, hd, hdf, rfl, rfl⟩ := (h.listed i a).1 hai
    have h1 := d.footer_bounds
    rcases hmem d hd with hd | rfl
    · exact ⟨h.grow_keeps hg hd (by omega), h.grow_keeps hg hd (by omega)⟩
    · exact ⟨hg.agree _ _ (by omega), hg.agree _ _ (by omega)⟩
  · rw [h.listed i a]
    simp only [List.mem_append, List.mem_singleton]
    constructor
    · rintro ⟨d, hd | rfl, hdf, hdb, hda⟩
      · exact ⟨d, .inl hd, hdf, hdb, hda⟩
      · exact ⟨w', .inr rfl, hg.free', hg.bucket.trans hdb, hg.addr.trans hda⟩
    · rintro ⟨d, hd | rfl, hdf, hdb, hda⟩
      · exact ⟨d, .inl hd, hdf, hdb, hda⟩
      · exact ⟨w, .inr rfl, hg.free, hg.bucket.symm.trans hdb, hg.addr.symm.trans hda⟩

theorem HeapInv.grow : HeapInv (grown s w' g) (pre ++ [w']) L := by
  have hm : w ∈ pre ++ [w] := by simp
  have hstop : w.stop = s.heap.start + s.heap.size := (h.wild w hm).1 hg.wild
  have hend : (grown s w' g).heap.stop = w'.stop := by
    rw [hg.stop, hstop]; exact (Nat.add_assoc _ _ _).symm
  have hpre : ∀ d ∈ pre, d.stop ≤ w.addr := (ChunkTiles.around h.tiles).1
  have hw := w.addr_le_stop
  have haddr := hg.addr
  have hstop' := hg.stop
  have hcases : ∀ d, d ∈ pre ++ [w'] → d = w' ∨ d ∈ pre := fun d hd => by simpa [or_comm] using hd
  refine ⟨⟨⟨fun d hd => ?_, fun d hd => ?_, fun d hd hdw => ?_,
    fun d hd d' hd' hdd hdf hdf' => ?_, (h.grow_lists hg).1, (h.grow_lists hg).2⟩, ?_, by simp⟩, ?_⟩
  · rcases hcases d hd with rfl | hd
    · exact putChunk_inMem _ _
    · exact h.grow_inMem hg hd
  · rw [hend]
    rcases hcases d hd with rfl | hd
    · simp [hg.wild']
    · have h1 := hpre d hd
      refine ⟨fun hdw => ?_, fun e => by omega⟩
      have : d.stop = s.heap.start + s.heap.size := (h.wild d (by simp [hd])).1 hdw
      omega
  · rcases hcases d hd with rfl | hd
    · exact ⟨hg.free', by rw [haddr]; exact (h.wilderness w hm hg.wild).2⟩
    · exact h.wilderness d (by simp [hd]) hdw
  · have h1 := d.addr_le_stop
    have h2 := d'.addr_le_stop
    rcases hcases d hd with rfl | hd1 <;> rcases hcases d' hd' with rfl | hd2
    · omega
    · have := hpre d' hd2; omega
    · exact h.coalesced d (by simp [hd1]) w hm (by omega) hdf hg.free
    · exact h.coalesced d (by simp [hd1]) d' (by simp [hd2]) hdd hdf hdf'
  · obtain ⟨b, hb, rfl, -⟩ := tiles_append.1 h.tiles
    exact tiles_append.2 ⟨w.addr, hb, haddr, hend.symm⟩
  · have := h.count
    simpa [grown] using this

theorem expandWildernessChunk_spec : (expandWildernessChunk g).run s = .ok () (grown s w' g) := by
  have hm : w ∈ pre ++ [w] := by simp
  have hin := h.inMem w hm
  have hstop : w.stop = s.heap.start + s.heap.size := (h.wild w hm).1 hg.wild
  have hptr : s.heap.wildernessChunk = w'.addr := (h.wilderness w hm hg.wild).2.trans hg.addr.symm
  have hfits : w'.stop < 2 ^ 64 := w'.fits
  have hstop' := hg.stop
  have hfoot := w'.footer_bounds
  have hsize : add64 s.heap.size g = s.heap.size + g := add64_eq (by omega)
  have hword : add64 (load s.mem w'.addr) g = w'.word := by
    have hlt := w'.word_lt
    rw [hg.addr, hin.header, add64_eq] <;>
      simp only [Chunk.word, hg.free, hg.wild, hg.free', hg.wild', hg.size] at * <;> omega
  have hflag : getHeapChunkFlag s.mem w'.addr heapWildernessChunk = true := by
    rw [hg.addr, Chunk.flag_wild hin.header, hg.wild]
  have hassert : add64 w'.footerAddr 8 = add64 s.heap.start (s.heap.size + g) := by
    rw [add64_eq (by omega), add64_eq (by omega)]; omega
  have hhdr : load (store s.mem w'.addr w'.word) w'.addr = w'.word := load_store_same w'.word_lt
  unfold expandWildernessChunk
  rw [run_modifyHeap_bind, run_get_bind, hsize]
  dsimp only
  rw [run_get_bind, hptr, run_kassert_pos hflag, run_modifyMem_bind, hword, run_get_bind,
    Chunk.footer_eq hhdr, run_get_bind, run_get_bind, run_kassert_pos (by simpa using hassert),
    run_modifyMem, hhdr, and_not_seven w'.word_lt, w'.word_size]
  simp only [grown, putChunk, hptr]

end

end Grow

/-! ## The search -/

/-- The chunks of `count` buckets from bucket `i` on, in the order the search visits them. -/
def visited (L : Int → List Nat) : Nat → Int → List Nat
  | 0, _ => []
  | count + 1, i => L i ++ visited L count (i + 1)

/-- The first chunk of `xs` that passes the test of the search, or NULL. -/
def firstSuitable (m : Mem) (size : Nat) (xs : List Nat) : Nat :=
  (xs.find? (isCandidateSuitable m size)).getD 0

section Search

variable {s : HeapState} {L : Int → List Nat} {size : Nat}

theorem run_searchBucket (size : Nat) {xs : List Nat} {p : Nat}
    (hseg : Segment (nextOf s.mem) (prevOf s.mem) p xs 0)
    (hfree : ∀ a ∈ xs, load s.mem a % 2 = 1 ∧ a + 32 < 2 ^ 64) (h0 : 0 ∉ xs) {steps : Nat}
    (hsteps : xs.length < steps) :
    (searchBucket size steps (xs.headD 0)).run s = .ok (firstSuitable s.mem size xs) s := by
  induction xs generalizing p steps with
  | nil =>
    obtain ⟨k, rfl⟩ : ∃ k, steps = k + 1 := ⟨steps - 1, by simp at hsteps; omega⟩
    rfl
  | cons a xs ih =>
    obtain ⟨k, rfl⟩ : ∃ k, steps = k + 1 := ⟨steps - 1, by simp at hsteps; omega⟩
    obtain ⟨-, hnext, hrest⟩ := hseg
    have ha : a ≠ 0 := fun e => h0 (e ▸ List.mem_cons_self)
    obtain ⟨hodd, hfits⟩ := hfree a List.mem_cons_self
    rw [List.headD_cons, searchBucket, if_neg ha, run_get_bind,
      run_ok_bind (run_getBucketListNext hodd hfits)]
    by_cases hs : isCandidateSuitable s.mem size a = true
    · rw [if_pos hs]
      simp [firstSuitable, List.find?, hs]
    · rw [if_neg hs, hnext, ih hrest (fun b hb => hfree b (List.mem_cons_of_mem _ hb))
        (fun h => h0 (List.mem_cons_of_mem _ h)) (by simpa using hsteps)]
      simp [firstSuitable, List.find?, hs]

theorem run_searchBuckets (h : Lists s L) (size : Nat) {count : Nat} {i : Int} (h0 : 0 ≤ i)
    (h1 : i + count ≤ 128) :
    (searchBuckets size count i).run s =
      .ok (firstSuitable s.mem size (visited L count i)) s := by
  induction count generalizing i with
  | zero => rfl
  | succ count ih =>
    have hin := run_searchBucket size (h.segment i)
      (fun a ha => ⟨h.free i a ha, (h.fits i a ha).2⟩) (h.zero_notMem i) (h.length_lt i)
    simp only [searchBuckets, run_get_bind, h.head i h0 (by omega), run_ok_bind hin, visited]
    cases hf : (L i).find? (isCandidateSuitable s.mem size) with
    | none =>
      have hz : firstSuitable s.mem size (L i) = 0 := by simp [firstSuitable, hf]
      rw [if_pos hz, ih (by omega) (by omega)]
      simp [firstSuitable, List.find?_append, hf]
    | some a =>
      have hz : firstSuitable s.mem size (L i) = a := by simp [firstSuitable, hf]
      have ha : a ≠ 0 := fun e => h.zero_notMem i (e ▸ List.mem_of_find?_eq_some hf)
      rw [hz, if_neg ha]
      simp [firstSuitable, List.find?_append, hf]

theorem mem_visited {count : Nat} {i : Int} {a : Nat} (h : a ∈ visited L count i) :
    ∃ j, i ≤ j ∧ j < i + count ∧ a ∈ L j := by
  induction count generalizing i with
  | zero => simp [visited] at h
  | succ count ih =>
    rcases List.mem_append.1 h with h | h
    · exact ⟨i, le_refl _, by omega, h⟩
    · obtain ⟨j, h1, h2, hj⟩ := ih h
      exact ⟨j, by omega, by omega, hj⟩

/-- The buckets `kmalloc` searches for a chunk of `size` bytes. -/
def searched (L : Int → List Nat) (size : Nat) : List Nat :=
  visited L (128 - getBucketIndexFromSize size).toNat (getBucketIndexFromSize size)

theorem run_findChunk (h : Lists s L) (hsize : 16 ≤ size) :
    (findChunk size).run s = .ok
      (((searched L size).find? (isCandidateSuitable s.mem size)).getD s.heap.wildernessChunk) s := by
  obtain ⟨hlo, hhi⟩ := Chunk.getBucketIndexFromSize_range hsize
  have hcount : ((bucketsCount : Nat) : Int) = 128 := rfl
  have hrange : getBucketIndexFromSize size + (128 - getBucketIndexFromSize size).toNat ≤ 128 := by
    omega
  have hrun := run_searchBuckets h size (by omega) hrange
  simp only [findChunk, hcount, run_ok_bind hrun]
  cases hf : (searched L size).find? (isCandidateSuitable s.mem size) with
  | none =>
    have hz : firstSuitable s.mem size (searched L size) = 0 := by simp [firstSuitable, hf]
    rw [searched] at hz
    rw [if_pos hz, run_get_bind]
    rfl
  | some a =>
    have hz : firstSuitable s.mem size (searched L size) = a := by simp [firstSuitable, hf]
    obtain ⟨j, -, -, hj⟩ := mem_visited (List.mem_of_find?_eq_some hf)
    have ha : a ≠ 0 := fun e => h.zero_notMem j (e ▸ hj)
    rw [searched] at hz
    rw [hz, if_neg ha]
    rfl

end Search

end GarbageOS
