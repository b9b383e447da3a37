import GarbageOS.Heap.Invariant

/-!
# The operations of `heap.c` keep the invariant

One specification for each function: from a heap of chunks `pre ++ c :: post`
it returns, and leaves a heap in which the chunks it works on have been
replaced. `Untouched` says that it writes no byte of an allocated chunk.
-/

namespace GarbageOS

variable {s : HeapState} {pre post : List Chunk} {c : Chunk} {n : Nat}

open Lib Function

/-! ## Stepping through the code -/

section Step

variable {α : Type} {s : HeapState}

@[simp] theorem run_modifyMem_bind {g : Mem → Mem} {f : Unit → HeapM α} :
    (modifyMem g >>= f).run s = (f ()).run { s with mem := g s.mem } := run_modify_bind

@[simp] theorem run_modifyHeap_bind {g : Heap → Heap} {f : Unit → HeapM α} :
    (modifyHeap g >>= f).run s = (f ()).run { s with heap := g s.heap } := run_modify_bind

@[simp] theorem run_modifyHeap {g : Heap → Heap} :
    (modifyHeap g).run s = .ok () { s with heap := g s.heap } := rfl

@[simp] theorem run_modifyMem {g : Mem → Mem} :
    (modifyMem g).run s = .ok () { s with mem := g s.mem } := rfl

/-- The header of the free chunk `c` written, and the wilderness pointer if it is the last. -/
def withFreeHeader (s : HeapState) (c : Chunk) : HeapState where
  mem := store s.mem c.addr c.word
  heap := if c.wild = true then { s.heap with wildernessChunk := c.addr } else s.heap

theorem setHeapChunkFlag_free {m : Mem} {a n : Nat} (hn : n % 8 = 0) (hlt : n < 2 ^ 64) :
    setHeapChunkFlag (store m a n) a heapFreeChunk = store m a (n + 1) := by
  rw [setHeapChunkFlag, load_store_same hlt, store_store_same, heapFreeChunk,
    or_eq_add (k := 3) (by omega) (by omega)]

theorem setHeapChunkFlag_wild {m : Mem} {a n : Nat} (hn : n % 8 = 0) (hlt : n + 1 < 2 ^ 64) :
    setHeapChunkFlag (store m a (n + 1)) a heapWildernessChunk = store m a (n + 1 + 2) := by
  have h2 : (n + 1) ||| 2 = n + 1 + 2 := by
    rw [← or_eq_add (k := 3) (a := n) (b := 1) (by omega) (by omega), Nat.or_assoc,
      show 1 ||| 2 = 3 from rfl, or_eq_add (k := 3) (by omega) (by omega),
      or_eq_add (k := 3) (by omega) (by omega)]
  rw [setHeapChunkFlag, load_store_same hlt, store_store_same, heapWildernessChunk, h2]

theorem run_writeFreeHeader {c : Chunk} (hc : c.free = true) {f : Unit → HeapM α} :
    (modifyMem (fun m => store m c.addr c.size) >>= fun _ =>
      modifyMem (fun m => setHeapChunkFlag m c.addr heapFreeChunk) >>= fun _ =>
      onlyIf (c.wild = true) (setWilderness c.addr) >>= f).run s =
    (f ()).run (withFreeHeader s c) := by
  have hfits := c.fits
  simp only [run_modifyMem_bind, setHeapChunkFlag_free c.size_mod (show c.size < 2 ^ 64 by omega)]
  unfold withFreeHeader Chunk.word
  cases hw : c.wild with
  | true =>
    rw [onlyIf_pos rfl]
    simp [setWilderness, setHeapChunkFlag_wild c.size_mod (show c.size + 1 < 2 ^ 64 by omega), hc]
  | false =>
    rw [onlyIf_neg (by simp)]
    simp [hc]

/-- The free chunk `c` written. -/
def withFreeChunk (s : HeapState) (c : Chunk) : HeapState :=
  { withFreeHeader s c with mem := putChunk s.mem c }

theorem run_writeFreeFooter {c : Chunk} {f : Unit → HeapM α} :
    (modifyMem (fun m => store m c.footerAddr c.size) >>= f).run (withFreeHeader s c) =
      (f ()).run (withFreeChunk s c) := run_modifyMem_bind

end Step

/-- The two heaps manage the same memory. -/
structure SameArena (h h' : Heap) : Prop where
  start : h'.start = h.start
  size : h'.size = h.size
  vmem : h'.heapVmem = h.heapVmem
  growth : h'.enableGrowth = h.enableGrowth

theorem SameArena.refl (h : Heap) : SameArena h h := ⟨rfl, rfl, rfl, rfl⟩

theorem SameArena.trans {h h' h'' : Heap} (h1 : SameArena h h') (h2 : SameArena h' h'') :
    SameArena h h'' :=
  ⟨h2.start.trans h1.start, h2.size.trans h1.size, h2.vmem.trans h1.vmem,
    h2.growth.trans h1.growth⟩

-- stated for a variable count: the kernel would otherwise compare the new count with the old one
theorem SameArena.set_count (h : Heap) (n : Nat) : SameArena h { h with numberOfChunks := n } :=
  ⟨rfl, rfl, rfl, rfl⟩

theorem Relinked.sameArena {P : Nat → Prop} {s' : HeapState} (h : Relinked P s s') :
    SameArena s.heap s'.heap := by
  rw [h.heap]; exact ⟨rfl, rfl, rfl, rfl⟩

section Hole

variable {s : HeapState} {pre post : List Chunk} {a e : Nat} {L : Int → List Nat} {c : Chunk}

/-- The words written when the free chunk `c` is put among the buckets `L`. -/
def FreedWord (L : Int → List Nat) (c : Chunk) (w : Nat) : Prop :=
  LinkWord L w ∨ w = c.addr ∨ w = c.addr + 8 ∨ w = c.addr + 16 ∨ w = c.footerAddr

theorem FreedWord.inside {w : Nat} (h : FreedWord L c w) :
    LinkWord L w ∨ c.addr ≤ w ∧ w < c.stop := by
  have hfoot := c.footer_bounds
  rcases h with h | h
  · exact .inl h
  · right; omega

/-- Putting a chunk in a bucket touches none of the allocated chunks outside it. -/
theorem ChunksOk.untouched_freed {cs ds : List Chunk} {m : Mem} (h : ChunksOk s cs L)
    (ha : Apart cs) (hout : ∀ d ∈ ds, d.free = false → d ∈ cs ∧ (d.stop ≤ c.addr ∨ c.stop ≤ d.addr))
    (hag : AgreeOff (FreedWord L c) s.mem m) : Untouched ds s.mem m := by
  intro d hd hf w h1 h2
  obtain ⟨hdc, hapart⟩ := hout d hd hf
  refine hag w fun hw => ?_
  rcases hw.inside with hl | hin
  · obtain ⟨x, hx, hxf, h3, h4⟩ := h.linkWord hl
    have hb := x.footer_bounds
    rcases ha d hdc x hx with rfl | h5 | h5
    · rw [hf] at hxf; cases hxf
    · omega
    · omega
  · omega

theorem Hole.untouched_freed {m : Mem} (h : Hole s pre c.addr c.stop post L)
    (hag : AgreeOff (FreedWord L c) s.mem m) : Untouched (pre ++ post) s.mem m :=
  h.toChunksOk.untouched_freed h.apart
    (fun _ hd _ => ⟨hd, (h.outside hd).imp And.right And.right⟩) hag

theorem Hole.finish (h : Hole s pre c.addr c.stop post L) (hc : c.free = true)
    (hw : c.wild = true ↔ c.stop = s.heap.stop)
    (hprev : ∀ d ∈ pre, d.stop = c.addr → d.free = false)
    (hnext : ∀ d ∈ post, c.stop = d.addr → d.free = false) :
    ∃ s', (addToBucketList c.addr).run (withFreeChunk s c) = .ok () s' ∧
      HeapShape s' (pre ++ c :: post) (pushChunk L c) ∧ SameArena s.heap s'.heap ∧
      s'.heap.numberOfChunks = s.heap.numberOfChunks ∧ AgreeOff (FreedWord L c) s.mem s'.mem := by
  have hstop := c.addr_le_stop
  obtain ⟨hf₁, hf₂⟩ := c.footer_bounds
  have hag : AgreeOff (fun w => c.addr ≤ w ∧ w < c.stop) s.mem (putChunk s.mem c) :=
    putChunk_agree _ _ (by omega) (by omega)
  have hwrite : Hole { s with mem := putChunk s.mem c } pre c.addr c.stop post L := h.write hag
  have hole : Hole (withFreeChunk s c) pre c.addr c.stop post L ∧
      SameArena s.heap (withFreeChunk s c).heap ∧
      (withFreeChunk s c).heap.numberOfChunks = s.heap.numberOfChunks ∧
      (c.wild = true → (withFreeChunk s c).heap.wildernessChunk = c.addr) := by
    unfold withFreeChunk withFreeHeader
    by_cases hcw : c.wild = true
    · simp only [if_pos hcw]
      exact ⟨hwrite.set_wilderness (hw.1 hcw) c.addr, ⟨rfl, rfl, rfl, rfl⟩, trivial, fun _ => trivial⟩
    · simp only [if_neg hcw]
      exact ⟨hwrite, .refl _, trivial, fun h' => absurd h' hcw⟩
  obtain ⟨hole, harena, hcount, hwild⟩ := hole
  have hw' : c.wild = true ↔ c.stop = (withFreeChunk s c).heap.stop := by
    rw [hw, Heap.stop, Heap.stop, harena.start, harena.size]
  obtain ⟨s', hrun, hshape, hr⟩ := hole.close_free
    ⟨hw', fun h' => ⟨hc, hwild h'⟩, fun _ => hprev, fun _ => hnext⟩ (putChunk_inMem _ _) hc
  refine ⟨s', hrun, hshape, harena.trans hr.sameArena, hr.count_eq.trans hcount, ?_⟩
  have hput : AgreeOff (FreedWord L c) s.mem (putChunk s.mem c) :=
    putChunk_agree _ _ (.inr (.inl rfl)) (.inr (.inr (.inr (.inr rfl))))
  exact hput.trans (hr.mem.mono fun w hw => hw.imp_right fun hw => .inr (hw.imp_right .inl))

end Hole

/-! ## Splitting -/

/-- Cutting the free chunk `c` into the allocated `c₁` and the free `c₂`. -/
structure Cut (c c₁ c₂ : Chunk) : Prop where
  addr : c₁.addr = c.addr
  meet : c₂.addr = c₁.stop
  stop : c₂.stop = c.stop
  free₁ : c₁.free = false
  wild₁ : c₁.wild = false
  free₂ : c₂.free = true
  wild₂ : c₂.wild = c.wild

theorem splitFreeChunk_spec {L : Int → List Nat} {c₁ c₂ : Chunk}
    (h : HeapInv s (pre ++ c :: post) L) (hc : c.free = true) (hcut : Cut c c₁ c₂) :
    ∃ s' L', (splitFreeChunk c.addr c₁.size c₂.size c.footerAddr).run s = .ok () s' ∧
      HeapInv s' (pre ++ c₁ :: c₂ :: post) L' ∧ SameArena s.heap s'.heap ∧
      Untouched (pre ++ post) s.mem s'.mem := by
  obtain ⟨haddr, hmeet, hstop, hfree₁, hwild₁, hfree₂, hwild₂⟩ := hcut
  have hstop₁ := c₁.addr_le_stop
  have hstop₂ := c₂.addr_le_stop
  have hfoot₁ := c₁.footer_bounds
  obtain ⟨s₁, hrun₁, hr₁, hole₁, hin₁⟩ := h.hole_free hc
  -- the allocated chunk closes the front of the hole
  have hword₁ : c₁.word = c₁.size := by simp [Chunk.word, hfree₁, hwild₁]
  have hag₁ : AgreeOff (fun w => c.addr ≤ w ∧ w < c.stop) s₁.mem (putChunk s₁.mem c₁) :=
    putChunk_agree _ _ (by omega) (by omega)
  have hput₁ := putChunk_inMem s₁.mem c₁
  have hole₂ : Hole { s₁ with mem := putChunk s₁.mem c₁ } (pre ++ [c₁]) c₁.stop c.stop post
      (dropChunk L c) :=
    (hole₁.write hag₁).narrow haddr (by omega) hfree₁ hwild₁ hput₁
  rw [← hmeet, ← hstop] at hole₂
  -- the free chunk closes the rest
  have hw₂ : c₂.wild = true ↔ c₂.stop = s₁.heap.stop := by
    rw [hwild₂, hstop, hr₁.stop_eq]; exact h.wild c (by simp)
  have hnext : ∀ d ∈ post, c₂.stop = d.addr → d.free = false := fun d hd he => by
    cases hf : d.free with
    | false => rfl
    | true => exact (h.coalesced c (by simp) d (by simp [hd]) (hstop ▸ he) hc hf).elim
  have hprev : ∀ d ∈ pre ++ [c₁], d.stop = c₂.addr → d.free = false := fun d hd he => by
    rcases List.mem_append.1 hd with hd | hd
    · have := h.tiles.around.1 d hd; omega
    · rw [List.mem_singleton.1 hd]; exact hfree₁
  obtain ⟨s₂, hrun₂, hshape, harena, hcount, hag₂⟩ := hole₂.finish hfree₂ hw₂ hprev hnext
  refine ⟨{ s₂ with heap := { s₂.heap with numberOfChunks := add64 s₂.heap.numberOfChunks 1 } },
    pushChunk (dropChunk L c) c₂, ?_, ⟨?_, ?_⟩, ?_, ?_⟩
  · -- the code
    have hhdr₁ : load (store s₁.mem c₁.addr c₁.word) c₁.addr = c₁.word := load_store_same c₁.word_lt
    have hflag : getHeapChunkFlag s.mem c.addr heapWildernessChunk = c₂.wild := by
      rw [Chunk.flag_wild (h.inMem c (by simp)).header, hwild₂]
    have hhdr₂ : load (withFreeHeader { s₁ with mem := putChunk s₁.mem c₁ } c₂).mem c₂.addr =
        c₂.word := load_store_same c₂.word_lt
    have hfoot : c₂.footerAddr = c.footerAddr := by
      have := c₂.footer_bounds; have := c.footer_bounds; omega
    have hsecond : getNextHeapChunkHeader (putChunk s₁.mem c₁) c₁.addr = c₂.addr := by
      rw [Chunk.next_eq hput₁.header, hmeet]
    rw [putChunk, hword₁] at hsecond
    unfold splitFreeChunk
    rw [run_kassert_pos (by simp [c₂.size_mod]), run_get_bind, hflag, run_ok_bind hrun₁, ← haddr,
      ← hword₁, run_modifyMem_bind, run_modifyMem_bind, run_get_bind, Chunk.footer_eq hhdr₁, hword₁]
    dsimp only
    rw [hsecond, run_writeFreeHeader hfree₂, run_get_bind]
    rw [putChunk, hword₁] at hrun₂ hhdr₂
    rw [Chunk.footer_eq hhdr₂, run_writeFreeFooter, run_ok_bind hrun₂,
      run_kassert_pos (by simp [hfoot]), run_modifyHeap]
  · simpa using hshape.set_count (add64 s₂.heap.numberOfChunks 1)
  · have hlen := hshape.length_lt
    have hcnt := h.count
    have : s₂.heap.numberOfChunks = s.heap.numberOfChunks := hcount.trans hr₁.count_eq
    simp only [List.length_append, List.length_cons, List.length_nil] at hlen hcnt ⊢
    rw [this, hcnt, add64_eq (by omega)]
    omega
  · exact hr₁.sameArena.trans (harena.trans (.set_count _ _))
  · have hsub : ∀ d ∈ pre ++ post, d.free = false → d ∈ pre ++ c :: post := fun d hd _ =>
      mem_splice.2 (.inr hd)
    refine ((h.untouched_relinked h.apart hr₁).mono hsub).trans ((hole₁.untouched hag₁).trans ?_)
    exact (hole₂.untouched_freed hag₂).mono fun d hd _ => by
      simp only [List.mem_append, List.mem_singleton] at hd ⊢; tauto

/-- Is `c` big enough to be split? The second bound is that of the signed remainder. -/
def Splittable (c : Chunk) (n : Nat) : Prop := n + 32 ≤ c.size ∧ c.size - (n + 16) < 2 ^ 63

theorem Splittable.exists_cut (h : Splittable c n) (hmod : n % 8 = 0) (hmin : 16 ≤ n) :
    ∃ c₁ c₂, Cut c c₁ c₂ ∧ c₁.size = n ∧ c₂.size = c.size - (n + 16) := by
  have hfit := h.1
  have h1 := c.addr_pos; have h2 := c.addr_mod; have h3 := c.size_mod; have h4 := c.fits
  refine ⟨⟨c.addr, n, false, false, h1, h2, hmod, hmin, by omega⟩,
    ⟨c.addr + 8 + n + 8, c.size - (n + 16), true, c.wild, by omega, by omega, by omega, by omega,
      by omega⟩, ⟨rfl, rfl, ?_, rfl, rfl, rfl, rfl⟩, rfl, rfl⟩
  unfold Chunk.stop
  dsimp only
  omega

/-- The test of `split_chunk_and_alloc`, on the exact remainder. -/
theorem secondChunkSize_lt_iff {size : Nat} :
    toInt64 (sub64 size (add64 (add64 n 8) 8)) < heapChunkMinSize ↔
      ¬ (16 ≤ ((size : Int) - n - 16) % 2 ^ 64 ∧ ((size : Int) - n - 16) % 2 ^ 64 < 2 ^ 63) := by
  have h : (sub64 size (add64 (add64 n 8) 8) : Int) = ((size : Int) - n - 16) % 2 ^ 64 := by
    unfold sub64 add64; omega
  have hlt := sub64_lt size (add64 (add64 n 8) 8)
  unfold toInt64 heapChunkMinSize
  split <;> omega

theorem run_splitChunkAndAlloc {cs : List Chunk} {L : Int → List Nat} (h : HeapInv s cs L)
    (hm : c ∈ cs) (hc : c.free = true) (hmod : n % 8 = 0) (hmin : 16 ≤ n) :
    (splitChunkAndAlloc c.addr n).run s =
      if toInt64 (sub64 c.size (add64 (add64 n 8) 8)) < heapChunkMinSize then .ok false s
      else (do
        splitFreeChunk c.addr n (sub64 c.size (add64 (add64 n 8) 8)) c.footerAddr
        return true : HeapM Bool).run s := by
  have hin := h.inMem c hm
  unfold splitChunkAndAlloc
  rw [run_get_bind, run_kassert_pos (by rw [Chunk.flag_free hin.header, hc]),
    run_kassert_pos (by simp [hmod]), run_kassert_pos (by simpa [heapChunkMinSize] using hmin),
    run_get_bind, run_get_bind, Chunk.footer_eq hin.header, Chunk.size_eq hin.header]
  dsimp only
  split <;> rfl

theorem splitChunkAndAlloc_spec {L : Int → List Nat} (h : HeapInv s (pre ++ c :: post) L)
    (hc : c.free = true) (hmod : n % 8 = 0) (hmin : 16 ≤ n) (hfit : Splittable c n) :
    ∃ s' L' c₁ c₂, (splitChunkAndAlloc c.addr n).run s = .ok true s' ∧ Cut c c₁ c₂ ∧ c₁.size = n ∧
      HeapInv s' (pre ++ c₁ :: c₂ :: post) L' ∧ SameArena s.heap s'.heap ∧
      Untouched (pre ++ post) s.mem s'.mem := by
  have hsize := c.fits
  obtain ⟨hroom, hsigned⟩ := hfit
  obtain ⟨c₁, c₂, hcut, hs₁, hs₂⟩ := Splittable.exists_cut ⟨hroom, hsigned⟩ hmod hmin
  obtain ⟨s', L', hrun, hinv, harena, hunt⟩ := splitFreeChunk_spec h hc hcut
  refine ⟨s', L', c₁, c₂, ?_, hcut, hs₁, hinv, harena, hunt⟩
  have hsec : sub64 c.size (add64 (add64 n 8) 8) = c₂.size := by
    have h1 : add64 (add64 n 8) 8 = n + 16 := by unfold add64; omega
    rw [h1, sub64_eq (by omega) (by omega), hs₂]
  rw [run_splitChunkAndAlloc h (by simp) hc hmod hmin,
    if_neg (by rw [secondChunkSize_lt_iff, not_not]; omega), hsec, ← hs₁, run_ok_bind hrun]
  rfl

theorem splitChunkAndAlloc_refused {cs : List Chunk} {L : Int → List Nat} (h : HeapInv s cs L)
    (hm : c ∈ cs) (hc : c.free = true) (hmod : n % 8 = 0) (hmin : 16 ≤ n) (hn : n ≤ 2 ^ 63)
    (hfit : ¬ Splittable c n) : (splitChunkAndAlloc c.addr n).run s = .ok false s := by
  have hsize := c.fits
  have hsmall := c.size_min
  unfold Splittable at hfit
  rw [run_splitChunkAndAlloc h hm hc hmod hmin, if_pos (by rw [secondChunkSize_lt_iff]; omega)]

/-! ## Exact fit -/

def Chunk.setFree (c : Chunk) (b : Bool) : Chunk := { c with free := b }

@[simp] theorem Chunk.setFree_addr (c : Chunk) (b : Bool) : (c.setFree b).addr = c.addr := rfl
@[simp] theorem Chunk.setFree_size (c : Chunk) (b : Bool) : (c.setFree b).size = c.size := rfl
@[simp] theorem Chunk.setFree_free (c : Chunk) (b : Bool) : (c.setFree b).free = b := rfl
@[simp] theorem Chunk.setFree_wild (c : Chunk) (b : Bool) : (c.setFree b).wild = c.wild := rfl
@[simp] theorem Chunk.setFree_stop (c : Chunk) (b : Bool) : (c.setFree b).stop = c.stop := rfl
@[simp] theorem Chunk.setFree_footerAddr (c : Chunk) (b : Bool) :
    (c.setFree b).footerAddr = c.footerAddr := rfl

theorem Chunk.InMem.setFree {m : Mem} (h : c.InMem m) (b : Bool) :
    (c.setFree b).InMem (store m c.addr (c.setFree b).word) := by
  have hb := c.footer_bounds
  refine ⟨load_store_same (c.setFree b).word_lt, ?_⟩
  rw [Chunk.setFree_footerAddr, load_store_ne (by omega), Chunk.setFree_size, h.footer]

theorem resetHeapChunkFlag_free {m : Mem} (h : load m c.addr = c.word) :
    resetHeapChunkFlag m c.addr heapFreeChunk = store m c.addr (c.setFree false).word := by
  have hw : c.word &&& (2 ^ 64 - 2) = (c.setFree false).word := by
    rw [and_not_one c.word_lt, c.word_mod_two]
    simp [Chunk.word]
    omega
  rw [resetHeapChunkFlag, h, heapFreeChunk, show 2 ^ 64 - 1 - 1 = 2 ^ 64 - 2 from rfl, hw]

theorem allocChunk_spec {L : Int → List Nat} (h : HeapInv s (pre ++ c :: post) L)
    (hc : c.free = true) (hw : c.wild = false) :
    ∃ s' L', (allocChunk c.addr).run s = .ok () s' ∧
      HeapInv s' (pre ++ c.setFree false :: post) L' ∧ SameArena s.heap s'.heap ∧
      Untouched (pre ++ post) s.mem s'.mem := by
  have hin := h.inMem c (by simp)
  have hstop := c.addr_le_stop
  obtain ⟨s₁, hrun₁, hr₁, hole₁, hin₁⟩ := h.hole_free hc
  have hag : AgreeOff (fun w => c.addr ≤ w ∧ w < c.stop) s₁.mem
      (store s₁.mem c.addr (c.setFree false).word) := (AgreeOff.refl _ _).store ⟨by omega, by omega⟩
  have hshape : HeapShape { s₁ with mem := store s₁.mem c.addr (c.setFree false).word }
      (pre ++ c.setFree false :: post) (dropChunk L c) := by
    refine Hole.close_allocated (hole₁.write hag) ⟨?_, by simp [hw], by simp, by simp⟩
      (hin₁.setFree false) rfl
    show c.wild = true ↔ c.stop = s₁.heap.stop
    rw [hr₁.stop_eq]; exact h.wild c (by simp)
  refine ⟨_, _, ?_, ⟨hshape, ?_⟩, hr₁.sameArena, ?_⟩
  · unfold allocChunk
    rw [run_get_bind, run_ok_bind (run_kassert_true
      (by rw [Chunk.flag_wild hin.header, hw]; rfl)), run_ok_bind hrun₁,
      run_modifyMem, resetHeapChunkFlag_free hin₁.header]
  · have := hr₁.count_eq
    have := h.count
    simp_all
  · exact ((h.untouched_relinked h.apart hr₁).mono fun d hd _ => mem_splice.2 (.inr hd)).trans
      (hole₁.untouched hag)

end GarbageOS
