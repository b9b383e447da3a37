import GarbageOS.Heap.Ops

/-!
# Freeing and merging

`kfree` flags its chunk free with null links and then merges it with its free
neighbours. While it does, the chunk is `Detached`: free, but in no bucket, so
that the call of `remove_from_bucket_list` on it changes nothing.
-/

namespace GarbageOS

open Lib Function

/-- A free chunk with null links. -/
structure Detached (s : HeapState) (c : Chunk) : Prop extends c.InMem s.mem where
  free : c.free = true
  next : nextOf s.mem c.addr = 0
  prev : prevOf s.mem c.addr = 0

section Merge

variable {s s₁ s₂ : HeapState} {pre post : List Chunk} {a e : Nat} {L : Int → List Nat}
  {c n p x : Chunk}

theorem Hole.remove_detached (h : Hole s pre a e post L) (hd : Detached s c) (ha : a ≤ c.addr)
    (he : c.stop ≤ e) : (removeFromBucketList c.addr).run s = .ok () s := by
  have hstop := c.addr_le_stop
  have hfits := c.fits
  refine removeFromBucketList_unlisted ?_ (by unfold Chunk.stop at hstop; omega) hd.next hd.prev ?_
  · rw [hd.header, c.word_mod_two, hd.free]; rfl
  · rw [Chunk.bucket_eq hd.header, h.lists.head _ c.bucket_range.1 c.bucket_range.2]
    rcases headD_eq_or_mem (L c.bucket) 0 with ⟨-, e0⟩ | ⟨e0, -⟩
    · rw [e0]; have := c.addr_pos; omega
    · exact fun e1 => h.notMem_bucket ha (by omega) _ (e1 ▸ e0)

theorem Hole.agree_inside (h : Hole s pre a e post L) (hr : Relinked (LinkWord L) s s₁) {w : Nat}
    (h1 : a ≤ w) (h2 : w < e) : s₁.mem w = s.mem w :=
  hr.mem w fun hl => by rcases h.linkWord_outside hl with h3 | h3 <;> omega

theorem Hole.detached_relinked (h : Hole s pre a e post L) (hr : Relinked (LinkWord L) s s₁)
    (hd : Detached s c) (ha : a ≤ c.addr) (he : c.stop ≤ e) : Detached s₁ c := by
  have hstop := c.addr_le_stop
  have hfoot := c.footer_bounds
  have hk : ∀ w, c.addr ≤ w → w < c.stop → s₁.mem w = s.mem w := fun w h1 h2 =>
    h.agree_inside hr (by omega) (by omega)
  refine ⟨hd.toInMem.congr (hk _ (by omega) (by omega)) (hk _ (by omega) (by omega)), hd.free, ?_, ?_⟩
  · rw [← hd.next]; simp only [nextOf, load, hk (c.addr + 8) (by omega) (by omega)]
  · rw [← hd.prev]; simp only [prevOf, load, hk (c.addr + 16) (by omega) (by omega)]

/-- The chunk that `x` and its successor `n` merge into. -/
structure Merged (c n x : Chunk) : Prop where
  meet : c.stop = n.addr
  addr : x.addr = c.addr
  stop : x.stop = n.stop
  free : x.free = true
  wild : x.wild = n.wild

theorem exists_merged (h : c.stop = n.addr) : ∃ x, Merged c n x := by
  have h1 := c.addr_pos; have h2 := c.addr_mod; have h3 := c.size_mod; have h4 := n.fits
  have h5 := n.size_mod; have h6 := c.size_min
  unfold Chunk.stop at h
  refine ⟨⟨c.addr, c.size + n.size + 16, true, n.wild, h1, h2, by omega, by omega, by omega⟩,
    h, rfl, ?_, rfl, rfl⟩
  unfold Chunk.stop
  dsimp only
  omega

theorem Merged.size (h : Merged c n x) : x.size = n.size + c.size + 16 := by
  have h1 := h.meet; have h2 := h.addr; have h3 := h.stop
  unfold Chunk.stop at h1 h3
  omega

/-- `merge` puts the free chunk `x` in place of `k + 1` others. -/
def MergesInto (merge : HeapM Unit) (s : HeapState) (L : Int → List Nat) (pre : List Chunk)
    (x : Chunk) (post : List Chunk) (k : Nat) : Prop :=
  ∃ s' L', merge.run s = .ok () s' ∧ HeapShape s' (pre ++ x :: post) L' ∧
    SameArena s.heap s'.heap ∧ s'.heap.numberOfChunks = sub64 s.heap.numberOfChunks k ∧
    AgreeOff (FreedWord L x) s.mem s'.mem

theorem Relinked.freed_drop {m : Mem} (hr : Relinked (LinkWord L) s s₁)
    (hag : AgreeOff (FreedWord (dropChunk L n) x) s₁.mem m) : AgreeOff (FreedWord L x) s.mem m := by
  refine (hr.mem.mono fun w hw => .inl hw).trans (hag.mono fun w hw => hw.imp_left ?_)
  rintro ⟨i, a, ha, hw⟩
  exact ⟨i, a, mem_of_mem_dropChunk ha, hw⟩

theorem mergeWithNextChunk_run {d : Chunk} (hc : c.InMem s.mem) (hn : n.InMem s.mem)
    (hcf : c.free = true) (hnf : n.free = true) (hcw : c.wild = false) (hx : Merged c n x)
    (hrun₁ : (removeFromBucketList c.addr).run s = .ok () s₁)
    (hrun₂ : (removeFromBucketList n.addr).run s₁ = .ok () s₂) (hr : Relinked (LinkWord L) s s₂)
    (hc₂ : c.InMem s₂.mem) (hn₂ : n.InMem s₂.mem)
    (hole : Hole s₂ pre c.addr n.stop post (dropChunk L d))
    (hwild : n.wild = true ↔ n.stop = s.heap.stop)
    (hprev : ∀ d ∈ pre, d.stop = c.addr → d.free = false)
    (hnext : ∀ d ∈ post, n.stop = d.addr → d.free = false) :
    MergesInto (mergeWithNextChunk c.addr) s L pre x post 1 := by
  rw [← hx.addr, ← hx.stop] at hole
  rw [← hx.wild, ← hx.stop, ← hr.stop_eq] at hwild
  rw [← hx.addr] at hprev
  rw [← hx.stop] at hnext
  obtain ⟨s₃, hrun₃, hshape, harena, hcount, hag⟩ := hole.finish hx.free hwild hprev hnext
  refine ⟨{ s₃ with heap := { s₃.heap with numberOfChunks := sub64 s₃.heap.numberOfChunks 1 } }, _,
    ?_, hshape.set_count _, hr.sameArena.trans (harena.trans (.set_count _ _)),
    by rw [hcount, hr.count_eq], hr.freed_drop hag⟩
  have hsize := hx.size
  have hfits := x.fits
  have hmin := x.size_min
  have hstop := c.addr_le_stop
  have hfoot : n.footerAddr = x.footerAddr := by
    have := x.footer_bounds; have := n.footer_bounds; have := hx.stop; omega
  have hnew : add64 (add64 (add64 n.size c.size) 8) 8 = x.size := by
    rw [hsize]; unfold add64; omega
  -- the header of `n` is still there when its footer is looked up
  have hhdr : load (withFreeHeader s₂ x).mem n.addr = n.word := by
    rw [← hn₂.header]
    exact load_store_ne (by have := hx.meet; have := hx.addr; omega)
  unfold mergeWithNextChunk
  rw [run_get_bind, Chunk.isLast_eq hc.header, run_kassert_pos (by rw [hcw]; rfl),
    run_get_bind, Chunk.next_eq hc.header, hx.meet]
  rw [run_get_bind, run_kassert_pos (by rw [Chunk.flag_free hc.header, hcf]), run_get_bind,
    run_kassert_pos (by rw [Chunk.flag_free hn.header, hnf]), run_get_bind, run_get_bind,
    Chunk.flag_wild hn.header, Chunk.footer_eq hn.header, run_ok_bind hrun₁, run_ok_bind hrun₂,
    run_get_bind, run_get_bind, Chunk.size_eq hc₂.header, Chunk.size_eq hn₂.header]
  dsimp only
  rw [hnew, run_kassert_pos (by simp [x.size_mod]),
    run_kassert_pos (by simpa [heapChunkMinSize] using hmin), ← hx.addr, ← hx.wild,
    run_writeFreeHeader hx.free, run_get_bind, Chunk.footer_eq hhdr, hfoot]
  rw [run_writeFreeFooter, run_kassert_pos (by simp), run_ok_bind hrun₃, run_modifyHeap]

theorem ChunksOk.not_free {cs : List Chunk} (h : ChunksOk s cs L) {d d' : Chunk} (hd : d ∈ cs)
    (hd' : d' ∈ cs) (hmeet : d.stop = d'.addr) :
    (d.free = true → d'.free = false) ∧ (d'.free = true → d.free = false) := by
  have hco := h.coalesced d hd d' hd' hmeet
  cases h1 : d.free <;> cases h2 : d'.free <;> simp_all

theorem Hole.merge_next (h : Hole s pre c.addr c.stop (n :: post) L) (hd : Detached s c)
    (hcw : c.wild = false) (hnf : n.free = true)
    (hprev : ∀ d ∈ pre, d.stop = c.addr → d.free = false) (hx : Merged c n x) :
    MergesInto (mergeWithNextChunk c.addr) s L pre x post 1 := by
  have hnm : n ∈ pre ++ n :: post := by simp
  have hrun₁ := h.remove_detached hd (Nat.le_refl _) (Nat.le_refl _)
  have h' : Hole s pre c.addr n.addr (n :: post) L := hx.meet ▸ h
  obtain ⟨s₂, hrun₂, hr, hole, hn₂⟩ := h'.remove_next hnf
  have hd₂ := h.detached_relinked hr hd (Nat.le_refl _) (Nat.le_refl _)
  exact mergeWithNextChunk_run hd.toInMem (h.inMem n hnm) hd.free hnf hcw hx hrun₁ hrun₂ hr
    hd₂.toInMem hn₂ hole (h.wild n hnm) hprev fun d hdm he =>
      (h.not_free hnm (mem_splice.2 (.inr (List.mem_append_right _ hdm))) he).1 hnf

theorem Hole.merge_prev (h : Hole s (pre ++ [p]) c.addr c.stop post L) (hd : Detached s c)
    (hpf : p.free = true) (hpw : p.wild = false) (hcw : c.wild = true ↔ c.stop = s.heap.stop)
    (hnext : ∀ d ∈ post, c.stop = d.addr → d.free = false) (hx : Merged p c x) :
    MergesInto (mergeWithNextChunk p.addr) s L pre x post 1 := by
  have hpm : p ∈ pre ++ [p] ++ post := by simp
  have hpstop := p.addr_le_stop
  obtain ⟨s₁, hrun₁, hr, hole, hp₁⟩ := h.remove_prev hpf
  have hd₁ := h.detached_relinked hr hd (Nat.le_refl _) (Nat.le_refl _)
  have hrun₂ := hole.remove_detached hd₁ (by have := hx.meet; omega) (Nat.le_refl _)
  exact mergeWithNextChunk_run (h.inMem p hpm) hd.toInMem hpf hd.free hpw hx hrun₁ hrun₂ hr hp₁
    hd₁.toInMem hole hcw (fun d hdm he => (h.not_free (by simp [hdm]) hpm he).2 hpf) hnext

/-- Merging the freed chunk with the free chunks on both sides: `y` is `c` with `n`, `x` is `p` with `y`. -/
theorem Hole.merge_both {y : Chunk} (h : Hole s (pre ++ [p]) c.addr c.stop (n :: post) L)
    (hd : Detached s c) (hcw : c.wild = false) (hfirst : s.heap.start ≠ c.addr) (hpf : p.free = true)
    (hnf : n.free = true) (hy : Merged c n y) (hx : Merged p y x) :
    MergesInto (mergeWithNextAndPrevChunk c.addr) s L pre x post 2 := by
  have hpm : p ∈ pre ++ [p] ++ n :: post := by simp
  have hnm : n ∈ pre ++ [p] ++ n :: post := by simp
  have hcstop := c.addr_le_stop
  have hpstop := p.addr_le_stop
  have hp := h.inMem p hpm
  have hn := h.inMem n hnm
  have hpc : p.stop = c.addr := hx.meet.trans hy.addr
  -- the header, which is detached, then the next chunk, then the previous one
  have hrun₁ := h.remove_detached hd (Nat.le_refl _) (Nat.le_refl _)
  have h' : Hole s (pre ++ [p]) c.addr n.addr (n :: post) L := hy.meet ▸ h
  obtain ⟨s₁, hrun₂, hr₁, hole₁, hn₁⟩ := h'.remove_next hnf
  have hd₁ := h.detached_relinked hr₁ hd (Nat.le_refl _) (Nat.le_refl _)
  obtain ⟨s₂, hrun₃, hr₂, hole₂, hp₂⟩ := hole₁.remove_prev hpf
  have hc₂ := (hole₁.detached_relinked hr₂ hd₁ (Nat.le_refl _)
    (by have := hy.meet; have := n.addr_le_stop; omega)).toInMem
  have hn₂ : n.InMem s₂.mem := by
    have hnstop := n.addr_le_stop
    have hnfoot := n.footer_bounds
    have hmeet := hy.meet
    exact hn₁.congr (hole₁.agree_inside hr₂ (by omega) (by omega))
      (hole₁.agree_inside hr₂ (by omega) (by omega))
  have hstop : x.stop = n.stop := hx.stop.trans hy.stop
  rw [← hx.addr, ← hstop] at hole₂
  obtain ⟨s₃, hrun₄, hshape, harena, hcount, hag⟩ := hole₂.finish hx.free
    (by rw [hx.wild, hy.wild, hstop, hr₂.stop_eq, hr₁.stop_eq]; exact h.wild n hnm)
    (fun d hdm he => (h.not_free (by simp [hdm]) hpm (hx.addr ▸ he)).2 hpf)
    (fun d hdm he => (h.not_free hnm (by simp [hdm]) (hstop ▸ he)).1 hnf)
  refine ⟨{ s₃ with heap := { s₃.heap with numberOfChunks := sub64 s₃.heap.numberOfChunks 2 } }, _, ?_,
    hshape.set_count _, (hr₁.sameArena.trans hr₂.sameArena).trans (harena.trans (.set_count _ _)),
    by rw [hcount, hr₂.count_eq, hr₁.count_eq], hr₁.freed_drop (hr₂.freed_drop hag)⟩
  have hxs := hx.size
  have hys := hy.size
  have hfits := x.fits
  have hmin := x.size_min
  have hnew : add64 (add64 (add64 (8 * 2 + 8 * 2) c.size) n.size) p.size = x.size := by
    rw [hxs, hys]; unfold add64; omega
  have hfoot : n.footerAddr = x.footerAddr := by
    have := x.footer_bounds; have := n.footer_bounds; omega
  have hprev : getPrevHeapChunkHeader s.mem c.addr = p.addr := by
    rw [← hpc]; exact Chunk.prev_eq hp.footer
  have hhdr : load (withFreeHeader s₂ x).mem x.addr = x.word := load_store_same x.word_lt
  unfold mergeWithNextAndPrevChunk
  rw [run_get_bind, Chunk.isLast_eq hd.header, run_kassert_pos (by rw [hcw]; rfl),
    run_get_bind, run_kassert_pos (by simpa [isFirstChunkOfHeap] using hfirst), run_get_bind,
    run_get_bind, hprev, Chunk.next_eq hd.header, hy.meet, run_get_bind,
    run_kassert_pos (by rw [Chunk.flag_free hd.header, hd.free]), run_get_bind,
    run_kassert_pos (by rw [Chunk.flag_free hp.header, hpf]), run_get_bind,
    run_kassert_pos (by rw [Chunk.flag_free hn.header, hnf]), run_get_bind,
    run_get_bind, Chunk.flag_wild hn.header,
    Chunk.footer_eq hn.header, run_ok_bind hrun₁, run_ok_bind hrun₂,
    run_ok_bind hrun₃, run_get_bind]
  dsimp only
  rw [Chunk.size_eq hc₂.header, Chunk.size_eq hn₂.header,
    Chunk.size_eq hp₂.header, hnew, run_kassert_pos (by simp [x.size_mod]),
    run_kassert_pos (by simpa [heapChunkMinSize] using hmin), ← hx.addr, ← hy.wild, ← hx.wild,
    run_writeFreeHeader hx.free, run_get_bind, Chunk.footer_eq hhdr, hfoot,
    run_writeFreeFooter, run_kassert_pos (by simp), run_ok_bind hrun₄, run_modifyHeap]

/-! ## `kfree` -/

/-- The previous neighbour as `kfree` finds it: NULL unless it is a free chunk. -/
theorem Hole.prev_lookup (h : Hole s pre c.addr c.stop post L) :
    (freePrev s c.addr = 0 ∧ ∀ d ∈ pre, d.stop = c.addr → d.free = false) ∨
      ∃ pre' p, pre = pre' ++ [p] ∧ p.free = true ∧ freePrev s c.addr = p.addr ∧
        s.heap.start ≠ c.addr ∧ p.stop = c.addr := by
  rcases List.eq_nil_or_concat' pre with rfl | ⟨pre', p, rfl⟩
  · have hfirst : isFirstChunkOfHeap s.heap c.addr = true := by
      simpa [isFirstChunkOfHeap] using h.before
    exact .inl ⟨if_pos hfirst, by simp⟩
  · obtain ⟨b, hpre, rfl, hpc⟩ := tiles_append.1 h.before
    have hpc : p.stop = c.addr := hpc
    have hpstop := p.addr_le_stop
    have hpm : p ∈ pre' ++ [p] ++ post := by simp
    have hstart : s.heap.start ≠ c.addr := by
      have : s.heap.start ≤ p.addr := (ChunkTiles.bounds hpre).1
      omega
    have hfirst : ¬ isFirstChunkOfHeap s.heap c.addr = true := by
      simpa [isFirstChunkOfHeap] using hstart
    have hprev : getPrevHeapChunkHeader s.mem c.addr = p.addr := by
      rw [← hpc]; exact Chunk.prev_eq (h.inMem p hpm).footer
    have hfound : freePrev s c.addr = if p.free = true then p.addr else 0 := by
      simp only [freePrev, if_neg hfirst, hprev, freeNeighbour,
        Chunk.flag_free (h.inMem p hpm).header]
    by_cases hpf : p.free = true
    · exact .inr ⟨pre', p, rfl, hpf, by rw [hfound, if_pos hpf], hstart, hpc⟩
    · refine .inl ⟨by rw [hfound, if_neg hpf], fun d hd he => ?_⟩
      rcases List.mem_append.1 hd with hd | hd
      · have : d.stop ≤ p.addr := ((ChunkTiles.bounds hpre).2 d hd).2
        omega
      · rw [List.mem_singleton.1 hd]; simpa using hpf

theorem Hole.next_lookup (h : Hole s pre c.addr c.stop post L) (hc : c.InMem s.mem)
    (hcw : c.wild = false) (hpost : c.stop ≠ s.heap.stop) :
    (freeNext s c.addr = 0 ∧ ∀ d ∈ post, c.stop = d.addr → d.free = false) ∨
      ∃ n post', post = n :: post' ∧ n.free = true ∧ freeNext s c.addr = n.addr ∧
        c.stop = n.addr := by
  cases post with
  | nil => exact absurd h.after hpost
  | cons n post =>
    obtain ⟨hn, hafter⟩ := h.after
    have hnm : n ∈ pre ++ n :: post := by simp
    have hlast : ¬ isLastChunkOfHeap s.mem c.addr = true := by
      rw [Chunk.isLast_eq hc.header, hcw]; simp
    have hfound : freeNext s c.addr = if n.free = true then n.addr else 0 := by
      simp only [freeNext, if_neg hlast, Chunk.next_eq hc.header, ← hn, freeNeighbour,
        Chunk.flag_free (h.inMem n hnm).header]
    by_cases hnf : n.free = true
    · exact .inr ⟨n, post, rfl, hnf, by rw [hfound, if_pos hnf], hn.symm⟩
    · refine .inl ⟨by rw [hfound, if_neg hnf], fun d hd he => ?_⟩
      rcases List.mem_cons.1 hd with rfl | hd
      · simpa using hnf
      · have : n.stop ≤ d.addr := ((ChunkTiles.bounds hafter).2 d hd).1
        have := n.addr_le_stop
        omega

/-- The chunk of a block to be freed, flagged free and with null links. -/
def detach (m : Mem) (c : Chunk) : Mem :=
  store (store (store m c.addr (c.setFree true).word) (c.addr + 8) 0) (c.addr + 16) 0

theorem detach_agree (m : Mem) (c : Chunk) :
    AgreeOff (fun w => c.addr ≤ w ∧ w < c.stop) m (detach m c) := by
  have := c.addr_le_stop
  exact (((AgreeOff.refl _ _).store (by omega)).store (by omega)).store (by omega)

theorem detached_detach (hc : c.InMem s.mem) :
    Detached { s with mem := detach s.mem c } (c.setFree true) := by
  have hfoot := c.footer_bounds
  have hin := hc.setFree true
  refine ⟨⟨?_, ?_⟩, rfl, ?_, ?_⟩
  · rw [← hin.header]
    simp only [detach, Chunk.setFree_addr]
    rw [load_store_ne (by omega), load_store_ne (by omega)]
  · rw [← hin.footer, Chunk.setFree_footerAddr]
    simp only [detach]
    rw [load_store_ne (by omega), load_store_ne (by omega)]
  · simp only [detach, nextOf, Chunk.setFree_addr]
    rw [load_store_ne (by omega), load_store_same (by decide)]
  · simp only [detach, prevOf, Chunk.setFree_addr]
    exact load_store_same (by decide)

theorem run_freeChunk (hc : c.InMem s.mem) (hcf : c.free = false) (hcw : c.wild = false) :
    (freeChunk (c.addr + 8)).run s =
      (let s' : HeapState := { s with mem := detach s.mem c }
       let prev := freePrev s' c.addr
       let next := freeNext s' c.addr
       (if prev = 0 ∧ next = 0 then addToBucketList c.addr
        else if prev ≠ 0 ∧ next = 0 then mergeWithNextChunk prev
        else if prev = 0 ∧ next ≠ 0 then mergeWithNextChunk c.addr
        else mergeWithNextAndPrevChunk c.addr).run s') := by
  have hfits := c.fits
  have hstop := c.addr_le_stop
  have hlt : c.addr + 32 < 2 ^ 64 := by unfold Chunk.stop at hstop; omega
  have hset : setHeapChunkFlag s.mem c.addr heapFreeChunk =
      store s.mem c.addr (c.setFree true).word := by
    have hmod := c.word_mod_two
    rw [hcf] at hmod
    rw [setHeapChunkFlag, hc.header, heapFreeChunk, or_eq_add (k := 1) hmod (by decide)]
    simp [Chunk.word, hcf]
    congr 1
    omega
  have hodd₁ : load (store s.mem c.addr (c.setFree true).word) c.addr % 2 = 1 := by
    rw [load_store_same (c.setFree true).word_lt, (c.setFree true).word_mod_two]; rfl
  have hodd₂ : load (store (store s.mem c.addr (c.setFree true).word) (c.addr + 8) 0) c.addr % 2 =
      1 := by rwa [load_store_ne (by omega)]
  unfold freeChunk
  rw [Chunk.ofUserData_eq, run_get_bind,
    run_ok_bind (run_check_true (by rw [Chunk.flag_free hc.header, hcf]; rfl)),
    run_get_bind,
    run_ok_bind (run_check_true (by rw [Chunk.flag_wild hc.header, hcw]; rfl)),
    run_get_bind, run_ok_bind (run_check_true (by rw [Chunk.not_isHeapChunkCorrupted hc]; rfl)),
    run_modifyMem_bind, hset, run_ok_bind (run_setBucketListNext hodd₁ hlt),
    run_ok_bind (run_setBucketListPrev hodd₂ hlt), run_get_bind, run_get_bind]
  rfl

/-- `y` is `z` or lies behind the links of `z`. -/
structure Chunk.Within (y z : Chunk) : Prop where
  addr : y.addr = z.addr ∨ z.addr + 32 ≤ y.addr
  stop : y.stop ≤ z.stop

theorem Chunk.Within.refl (y : Chunk) : y.Within y := ⟨.inl rfl, Nat.le_refl _⟩

theorem Chunk.Within.trans {y z z' : Chunk} (h : y.Within z) (h' : z.Within z') : y.Within z' := by
  obtain ⟨h₁, h₂⟩ := h
  obtain ⟨h₃, h₄⟩ := h'
  exact ⟨by omega, by omega⟩

/-- What `kfree` does with the detached chunk `c` and the other chunks `cs`: free chunks end
up within free chunks. -/
structure Coalesces (s s' : HeapState) (cs cs' : List Chunk) (L : Int → List Nat) (c : Chunk) :
    Prop where
  blocks : ∀ d, d.free = false → (d ∈ cs' ↔ d ∈ cs)
  writes : ∃ x ∈ cs', x.free = true ∧ AgreeOff (FreedWord L x) s.mem s'.mem
  covers : ∀ y, y ∈ cs ∨ y = c → y.free = true → ∃ z ∈ cs', z.free = true ∧ y.Within z

theorem Merged.within_left (h : Merged c n x) : c.Within x := by
  have := n.addr_le_stop
  exact ⟨.inl h.addr.symm, by rw [h.stop, h.meet]; omega⟩

theorem Merged.within_right (h : Merged c n x) : n.Within x := by
  have := c.addr_le_stop
  exact ⟨.inr (by rw [h.addr, ← h.meet]; omega), h.stop.ge⟩

/-- The chunks are those of `cs`, with `x` in place of `c` and the free chunks `ms` beside it. -/
theorem MergesInto.coalesces {merge : HeapM Unit} {cs : List Chunk} (ms : List Chunk)
    (h : MergesInto merge s L pre x post ms.length) (hperm : cs.Perm (ms ++ (pre ++ post)))
    (hcount : s.heap.numberOfChunks = cs.length + 1) (hlen : cs.length + 1 < 2 ^ 59)
    (hx : x.free = true) (hc : c.Within x) (hms : ∀ d ∈ ms, d.free = true ∧ d.Within x) :
    ∃ s' cs' L', merge.run s = .ok () s' ∧ HeapInv s' cs' L' ∧ SameArena s.heap s'.heap ∧
      Coalesces s s' cs cs' L c := by
  obtain ⟨s', L', hrun, hshape, harena, hcnt, hag⟩ := h
  have hlength := hperm.length_eq
  simp only [List.length_append] at hlength
  refine ⟨s', _, L', hrun, ⟨hshape, ?_⟩, harena, fun d hd => ?_, ⟨x, by simp, hx, hag⟩,
    fun y hy hyf => ?_⟩
  · rw [hcnt, hcount, sub64_eq (by omega) (by omega), List.length_append, List.length_cons]
    omega
  · rw [mem_splice_free hx hd, hperm.mem_iff, List.mem_append (s := ms)]
    refine ⟨.inr, fun hm => hm.resolve_left fun hm => ?_⟩
    rw [(hms d hm).1] at hd
    cases hd
  · rcases hy with hy | rfl
    · rcases List.mem_append.1 (hperm.mem_iff.1 hy) with hy | hy
      · exact ⟨x, by simp, hx, (hms y hy).2⟩
      · exact ⟨y, mem_splice.2 (.inr hy), hyf, .refl y⟩
    · exact ⟨x, by simp, hx, hc⟩

/-- The last step of `kfree`: the detached chunk is merged with its free neighbours. -/
theorem Hole.coalesce (h : Hole s pre c.addr c.stop post L) (hd : Detached s c)
    (hcw : c.wild = false) (hend : c.stop ≠ s.heap.stop)
    (hcount : s.heap.numberOfChunks = (pre ++ post).length + 1)
    (hlen : (pre ++ post).length + 1 < 2 ^ 59) :
    ∃ s' cs' L', (let prev := freePrev s c.addr
        let next := freeNext s c.addr
        if prev = 0 ∧ next = 0 then addToBucketList c.addr
        else if prev ≠ 0 ∧ next = 0 then mergeWithNextChunk prev
        else if prev = 0 ∧ next ≠ 0 then mergeWithNextChunk c.addr
        else mergeWithNextAndPrevChunk c.addr).run s = .ok () s' ∧ HeapInv s' cs' L' ∧
      SameArena s.heap s'.heap ∧ Coalesces s s' (pre ++ post) cs' L c := by
  have hcw' : c.wild = true ↔ c.stop = s.heap.stop := by simp [hcw, hend]
  have hprev := h.prev_lookup
  have hnext := h.next_lookup hd.toInMem hcw hend
  dsimp only
  generalize freePrev s c.addr = prev at hprev ⊢
  generalize freeNext s c.addr = next at hnext ⊢
  rcases hprev with ⟨rfl, hprev⟩ | ⟨pre', p, rfl, hpf, rfl, hstart, hpc⟩ <;>
    rcases hnext with ⟨rfl, hnext⟩ | ⟨n, post', rfl, hnf, rfl, hcn⟩
  · -- no free neighbour
    rw [if_pos ⟨rfl, rfl⟩]
    obtain ⟨s', hrun, hshape, hr⟩ := h.close_free ⟨hcw', by simp [hcw], fun _ => hprev, fun _ => hnext⟩
      hd.toInMem hd.free
    have hmerge : MergesInto (addToBucketList c.addr) s L pre c post 0 :=
      ⟨s', _, hrun, hshape, hr.sameArena, by rw [hr.count_eq, sub64_eq (by omega) (by omega)]; rfl,
        hr.mem.mono fun w hw => hw.imp_right fun hw => .inr (hw.imp_right .inl)⟩
    exact hmerge.coalesces [] (.refl _) hcount hlen hd.free (.refl c) (by simp)
  · -- the next chunk is free
    have hn0 : n.addr ≠ 0 := Nat.ne_of_gt n.addr_pos
    rw [if_neg (by simp [hn0]), if_neg (by simp), if_pos ⟨rfl, hn0⟩]
    obtain ⟨x, hx⟩ := exists_merged hcn
    exact (h.merge_next hd hcw hnf hprev hx).coalesces [n] List.perm_middle hcount hlen
      hx.free hx.within_left (by simp [hnf, hx.within_right])
  · -- the previous chunk is free
    have hp0 : p.addr ≠ 0 := Nat.ne_of_gt p.addr_pos
    rw [if_neg (by simp [hp0]), if_pos ⟨hp0, rfl⟩]
    obtain ⟨x, hx⟩ := exists_merged hpc
    have hpw : p.wild = false := by
      have hlt : p.stop ≠ s.heap.stop := by
        have := h.after.bounds.1; have := c.addr_le_stop; omega
      simpa using (not_congr (h.wild p (by simp))).2 hlt
    exact (h.merge_prev hd hpf hpw hcw' hnext hx).coalesces [p]
      (by simp) hcount hlen hx.free hx.within_right (by simp [hpf, hx.within_left])
  · -- both are
    have hn0 : n.addr ≠ 0 := Nat.ne_of_gt n.addr_pos
    have hp0 : p.addr ≠ 0 := Nat.ne_of_gt p.addr_pos
    rw [if_neg (by simp [hp0]), if_neg (by simp [hn0]), if_neg (by simp [hp0])]
    obtain ⟨y, hy⟩ := exists_merged hcn
    obtain ⟨x, hx⟩ := exists_merged (hpc.trans hy.addr.symm)
    have hperm : (pre' ++ [p] ++ n :: post').Perm ([n, p] ++ (pre' ++ post')) :=
      List.perm_middle.trans (.cons n (by simp))
    refine (h.merge_both hd hcw hstart hpf hnf hy hx).coalesces [n, p] hperm hcount hlen
      hx.free (hy.within_left.trans hx.within_right) ?_
    simp [hnf, hpf, hx.within_left, hy.within_right.trans hx.within_right]

/-! ## Stale headers -/

/-- The header at `a` was left by a chunk that was freed: it is flagged free and is in a
free chunk, where nothing is written as long as nothing is allocated. -/
structure Stale (cs : List Chunk) (m : Mem) (a : Nat) : Prop where
  flagged : load m a % 2 = 1
  inside : ∃ b ∈ cs, b.free = true ∧ (a = b.addr ∨ b.addr + 32 ≤ a ∧ a < b.footerAddr)

theorem Coalesces.stale {s' : HeapState} {cs cs' : List Chunk} {L' : Int → List Nat}
    (h : Coalesces s s' cs cs' L c) (hok : ChunksOk s cs L) (hap : Apart (c :: cs))
    (hinv : HeapInv s' cs' L') {a : Nat} (ha : Stale (c :: cs) s.mem a) : Stale cs' s'.mem a := by
  obtain ⟨b, hb, hbf, hpos⟩ := ha.inside
  obtain ⟨z, hz, hzf, hin⟩ := h.covers b (by simpa [or_comm] using hb) hbf
  have hbfoot := b.footer_bounds
  have hzfoot := z.footer_bounds
  have haddr := hin.addr
  have hstop := hin.stop
  by_cases hz' : a = z.addr
  · refine ⟨?_, z, hz, hzf, .inl hz'⟩
    rw [hz', (hinv.inMem z hz).header, z.word_mod_two, hzf]
    rfl
  · refine ⟨?_, z, hz, hzf, .inr (by omega)⟩
    -- it is none of the words written: neither a link nor a boundary of the merged chunk
    obtain ⟨x, hx, -, hag⟩ := h.writes
    rw [hag.load, ha.flagged]
    rintro (⟨i, d, hd, hw⟩ | hw)
    · obtain ⟨y, hy, -, -, rfl⟩ := (hok.listed i d).1 hd
      have hyfoot := y.footer_bounds
      rcases hap b hb y (List.mem_cons_of_mem _ hy) with rfl | hby | hby <;> omega
    · have hxfoot := x.footer_bounds
      rcases hinv.apart x hx z hz with rfl | hxz | hxz <;> omega

/-! ## The whole call -/

/-- `kfree` of the chunk `c`: the other allocated chunks stay as they are, and the header of
`c` is left flagged free, like those left by earlier calls. -/
structure Frees (s s' : HeapState) (cs cs' : List Chunk) (c : Chunk) : Prop where
  blocks : ∀ d, d.free = false → (d ∈ cs' ↔ d ∈ cs ∧ d ≠ c)
  untouched : Untouched cs' s.mem s'.mem
  stale : ∀ a, a = c.addr ∨ Stale cs s.mem a → Stale cs' s'.mem a

theorem freeChunk_spec {cs : List Chunk} (h : HeapInv s cs L) (hcm : c ∈ cs) (hcf : c.free = false) :
    ∃ s' cs' L', (freeChunk (c.addr + 8)).run s = .ok () s' ∧ HeapInv s' cs' L' ∧
      SameArena s.heap s'.heap ∧ Frees s s' cs cs' c := by
  have hin := h.inMem c hcm
  have hcw : c.wild = false := by
    cases hw : c.wild with
    | false => rfl
    | true => rw [(h.wilderness c hcm hw).1] at hcf; cases hcf
  have hend : c.stop ≠ s.heap.stop := fun e => by rw [(h.wild c hcm).2 e] at hcw; cases hcw
  obtain ⟨pre, post, rfl⟩ := List.append_of_mem hcm
  have hlen := h.length_lt
  have hcount := h.count
  rw [List.perm_middle.length_eq, List.length_cons] at hlen hcount
  have hole := h.hole_allocated hcf
  have hag := detach_agree s.mem c
  have hdet := detached_detach hin
  obtain ⟨s', cs', L', hrun, hinv, harena, hco⟩ :=
    Hole.coalesce (c := c.setFree true) (hole.write hag) hdet hcw hend hcount hlen
  have hne : ∀ d ∈ pre ++ post, d ≠ c := fun d hd he =>
    addr_ne_of_around h.tiles.around.1 h.tiles.around.2 d hd (by rw [he])
  have hblocks : ∀ d, d.free = false → (d ∈ cs' ↔ d ∈ pre ++ c :: post ∧ d ≠ c) := fun d hd => by
    rw [hco.blocks d hd, mem_splice]
    exact ⟨fun hm => ⟨.inr hm, hne d hm⟩, fun ⟨hm, hdc⟩ => hm.resolve_left hdc⟩
  refine ⟨s', cs', L', (run_freeChunk hin hcf hcw).trans hrun, hinv, harena, hblocks, ?_, ?_⟩
  · -- an allocated chunk is neither the merged one nor the detached one
    obtain ⟨x, hx, hxf, hagx⟩ := hco.writes
    have hunt : Untouched cs' (detach s.mem c) s'.mem :=
      (hole.write hag).toChunksOk.untouched_freed (hole.write hag).apart (fun d hd hdf => by
        refine ⟨(hco.blocks d hdf).1 hd, ?_⟩
        rcases hinv.apart d hd x hx with rfl | hap | hap
        · rw [hdf] at hxf; cases hxf
        · exact .inl hap
        · exact .inr hap) hagx
    exact ((hole.untouched hag).mono fun d hd hdf => (hco.blocks d hdf).1 hd).trans hunt
  · have hout : ∀ d ∈ pre ++ post, d.stop ≤ c.addr ∨ c.stop ≤ d.addr := fun d hd =>
      (hole.outside hd).imp And.right And.right
    have hap : Apart (c.setFree true :: (pre ++ post)) := by
      intro x hx y hy
      rcases List.mem_cons.1 hx with rfl | hx <;> rcases List.mem_cons.1 hy with rfl | hy
      · exact .inl rfl
      · exact .inr (hout y hy).symm
      · exact .inr (hout x hx)
      · exact hole.apart x hx y hy
    intro a ha
    refine hco.stale (hole.write hag).toChunksOk hap hinv ?_
    rcases ha with rfl | ⟨hodd, b, hb, hbf, hpos⟩
    · refine ⟨?_, c.setFree true, List.mem_cons_self, rfl, .inl rfl⟩
      rw [← Chunk.setFree_addr c true, hdet.header, (c.setFree true).word_mod_two]
      rfl
    · have hbm : b ∈ pre ++ post := (mem_splice.1 hb).resolve_left fun he => by
        rw [he, hcf] at hbf; cases hbf
      have hfoot := b.footer_bounds
      refine ⟨?_, b, List.mem_cons_of_mem _ hbm, hbf, hpos⟩
      rw [hag.load fun hw => by have := hout b hbm; omega, hodd]

end Merge

end GarbageOS
