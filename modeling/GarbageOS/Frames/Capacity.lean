import GarbageOS.Boot.Ranges
import GarbageOS.Frames.Accounting

/-!
# The capacity of the frame stack

`init_frame_allocator` reserves a word for every page of the usable RAM. The frames of the
free ranges lie in the usable entries of the memory map, so there are no more of them than
that, even if all are given back. Only a total of `2^64` bytes is too much: it wraps to 0.
-/

namespace GarbageOS

open Lib Relation

/-! ## Frames and RAM -/

theorem mul_length_le_size {l : List Nat} {base size : Nat} (hnd : l.Nodup)
    (haligned : ∀ x ∈ l, x % pageSize = 0)
    (hin : ∀ x ∈ l, base ≤ x ∧ x + pageSize ≤ base + size) : pageSize * l.length ≤ size := by
  rcases l.eq_nil_or_concat with rfl | ⟨init, y, rfl⟩
  · simp
  have hy := hin y (by simp)
  -- the numbers of the frames are distinct, too
  have hmap : ((init.concat y).map (· / pageSize)).Nodup := by
    refine hnd.map_on fun a ha b hb hab => ?_
    have h1 := haligned a ha
    have h2 := haligned b hb
    simp only [pageSize] at h1 h2 hab
    omega
  have hsub : (init.concat y).map (· / pageSize) ⊆
      List.range' ((base + (pageSize - 1)) / pageSize)
        ((base + size) / pageSize - (base + (pageSize - 1)) / pageSize) := by
    intro q hq
    obtain ⟨x, hx, rfl⟩ := List.mem_map.1 hq
    have h1 := haligned x hx
    have h2 := hin x hx
    rw [List.mem_range'_1]
    simp only [pageSize] at h1 h2 ⊢
    omega
  have hle := (List.subperm_of_subset hmap hsub).length_le
  rw [List.length_map, List.length_range'] at hle
  simp only [pageSize] at hle hy ⊢
  omega

theorem mul_length_le_total {l : List Nat} {items : List MemoryMapItem} (hnd : l.Nodup)
    (haligned : ∀ x ∈ l, x % pageSize = 0)
    (hin : ∀ x ∈ l, ∃ item ∈ items, item.baseAddr ≤ x ∧ x + pageSize ≤ item.stop) :
    pageSize * l.length ≤ (items.map MemoryMapItem.size).sum := by
  induction items generalizing l with
  | nil =>
    cases l with
    | nil => simp
    | cons x l =>
      obtain ⟨_, hmem, -⟩ := hin x List.mem_cons_self
      cases hmem
  | cons item items ih =>
    -- the frames in the first entry, and the others
    let here : Nat → Bool := fun x => decide (item.baseAddr ≤ x ∧ x + pageSize ≤ item.stop)
    have hhere : pageSize * (l.filter here).length ≤ item.size := by
      have hin' : ∀ x ∈ l.filter here, item.baseAddr ≤ x ∧ x + pageSize ≤ item.baseAddr + item.size :=
        fun x hx => of_decide_eq_true (List.mem_filter.1 hx).2
      exact mul_length_le_size (hnd.filter _) (fun x hx => haligned x (List.mem_filter.1 hx).1) hin'
    have hrest : pageSize * (l.filter fun x => !here x).length ≤
        (items.map MemoryMapItem.size).sum := by
      refine ih (hnd.filter _) (fun x hx => haligned x (List.mem_filter.1 hx).1) fun x hx => ?_
      obtain ⟨hx, hno⟩ := List.mem_filter.1 hx
      obtain ⟨other, hmem, hle⟩ := hin x hx
      rcases List.mem_cons.1 hmem with rfl | hmem
      · rw [show here x = true from decide_eq_true hle] at hno
        cases hno
      · exact ⟨other, hmem, hle⟩
    have hlen := l.length_eq_length_filter_add here
    rw [List.map_cons, List.sum_cons, hlen, Nat.mul_add]
    omega

theorem getTotalUsableRAMSize_eq {boot : BootLoaderData}
    (h : ((usableItems boot.mapItems).map MemoryMapItem.size).sum < 2 ^ 64) :
    getTotalUsableRAMSize boot = ((usableItems boot.mapItems).map MemoryMapItem.size).sum := by
  rw [← Nat.zero_add (List.sum _)] at h ⊢
  rw [← foldl_add64_eq _ _ h, usableItems, List.foldl_filter]
  rfl

/-- Each free range lies in a usable entry of the memory map. -/
def RangesInMap (boot : BootLoaderData) (ranges : Nat → PhysicalMemoryRange) (n : Nat) : Prop :=
  ∀ i < n, (ranges i).size ≠ 0 → ∃ item ∈ usableItems boot.mapItems,
    item.baseAddr ≤ (ranges i).startAddress ∧
      (ranges i).startAddress + (ranges i).size ≤ item.stop

section

variable {boot : BootLoaderData} {ranges : Nat → PhysicalMemoryRange} {n i : Nat} {f : FrameAllocator}

theorem Started.mul_length_le (h : Started ranges n f i) (hr : FreeRanges ranges n)
    (hin : RangesInMap boot ranges n) :
    pageSize * (rangeFrames f.freeRanges n).length ≤
      ((usableItems boot.mapItems).map MemoryMapItem.size).sum := by
  refine mul_length_le_total (h.nodup hr) (h.aligned hr) fun x hx => ?_
  obtain ⟨j, hj, hx⟩ := GarbageOS.mem_rangeFrames.1 ((h.mem_rangeFrames hr).1 hx).1
  obtain ⟨m, hm, rfl⟩ := mem_framesOf.1 hx
  simp only [pageSize] at hm ⊢
  obtain ⟨item, hitem, hlo, hhi⟩ := hin j hj (by omega)
  exact ⟨item, hitem, by omega, by omega⟩

end

section

variable {k : Kernel} {f f' : FrameAllocator} {owned all : List Nat} {x : Nat}

theorem run_deallocFrame_of_put (hl : .frameAllocator ∉ k.cpu.held)
    (h : (putFreeFrame x).run k.sh.frames = .ok () f) : ∃ k', (deallocFrame x).run k = .ok () k' ∧
      k'.sh.frames = f ∧ k'.cpu.held = k.cpu.held ∧
      k'.sh.halArchInitialized = k.sh.halArchInitialized := by
  unfold deallocFrame
  rw [run_modifyCpu_bind]
  refine ⟨_, run_withLock_ok.2 ⟨hl, _, run_onFrames_ok.2 ⟨f, h, rfl⟩, rfl⟩, rfl, ?_, rfl⟩
  simp [Kernel.unlocked, Kernel.locked]

theorem run_deallocFrame_of_error {e : Stop} (hl : .frameAllocator ∉ k.cpu.held)
    (h : (putFreeFrame x).run k.sh.frames = .error e f) :
    ∃ k', (deallocFrame x).run k = .error e k' := by
  unfold deallocFrame
  rw [run_modifyCpu_bind]
  exact ⟨_, run_withLock_of_error hl (run_zoom_of_error h)⟩

theorem FramesInv.slot_inside (h : FramesInv f owned all)
    (hcap : 8 * all.length ≤ f.frameStack.maxSizeBytes) (hx : x ∈ owned) :
    f.frameStack.base ≤ f.frameStack.top ∧
      f.frameStack.top + 8 ≤ f.frameStack.base + f.frameStack.maxSizeBytes := by
  obtain ⟨c, hc, hmax⟩ := h.stack
  have hcount := h.count_eq hc hmax
  have hroom := h.room
  have hlen := h.freeCount_add
  have hpos := List.length_pos_of_mem hx
  unfold FrameAllocator.freeCount at hlen
  rw [hc, add64_eq (by omega)]
  omega

end

/-- If the usable entries have less than `2^64` bytes, there is always room for a frame that is
given back, in the bytes that were reserved at the start of a range. -/
theorem frame_stack_suffices {boot : BootLoaderData} {ranges : Nat → PhysicalMemoryRange} {n : Nat}
    {k k₀ : Kernel} {c : FrameClient} (hr : FreeRanges ranges n) (hin : RangesInMap boot ranges n)
    (htotal : ((usableItems boot.mapItems).map MemoryMapItem.size).sum < 2 ^ 64)
    (hinit : (onFrames (initFrameAllocator ranges n (getTotalUsableRAMSize boot))).run k = .ok () k₀)
    (hrun : ReflTransGen FrameStep ⟨k₀, []⟩ c) :
    (∃ i < n, c.kernel.sh.frames.frameStack.base = (ranges i).startAddress ∧
      c.kernel.sh.frames.frameStack.maxSizeBytes ≤ (ranges i).size) ∧
    ∀ x ∈ c.owned, c.kernel.sh.frames.frameStack.base ≤ c.kernel.sh.frames.frameStack.top ∧
      c.kernel.sh.frames.frameStack.top + 8 ≤
        c.kernel.sh.frames.frameStack.base + c.kernel.sh.frames.frameStack.maxSizeBytes ∧
      (.frameAllocator ∉ c.kernel.cpu.held → ∃ k', (deallocFrame x).run c.kernel = .ok () k') := by
  have hram := getTotalUsableRAMSize_eq htotal
  obtain ⟨f, hf, rfl⟩ := run_onFrames_ok.1 hinit
  obtain ⟨i, hs⟩ := initFrameAllocator_started (by rw [hram]; exact htotal) hf
  obtain ⟨h, hstays⟩ := frames_inv_of_run hrun (hs.inv hr)
  have hbase : c.kernel.sh.frames.frameStack.base = f.frameStack.base := hstays.base
  have hmax : c.kernel.sh.frames.frameStack.maxSizeBytes = f.frameStack.maxSizeBytes := hstays.max
  -- a word for every frame
  have hcap : 8 * (rangeFrames f.freeRanges n).length ≤
      c.kernel.sh.frames.frameStack.maxSizeBytes := by
    have hneeded := le_neededBytesStackFrame (show getTotalUsableRAMSize boot < 2 ^ 64 by
      rw [hram]; exact htotal)
    have hle := hs.mul_length_le hr hin
    rw [← initFrameAllocator_max hf, hram] at hneeded
    simp only [pageSize] at hneeded hle
    omega
  refine ⟨⟨i, hs.index, hbase.trans hs.base, hmax ▸ hs.large⟩, fun x hx => ?_⟩
  obtain ⟨hlo, hhi⟩ := h.slot_inside hcap hx
  refine ⟨hlo, hhi, fun hl => ?_⟩
  obtain ⟨g, hg⟩ := putFreeFrame_returns h hcap hx
  obtain ⟨k', hk', -⟩ := run_deallocFrame_of_put hl hg
  exact ⟨k', hk'⟩

/-- A map with the megabyte of `oneRange`. -/
def oneItem : BootLoaderData where
  mapItems := [⟨MB, MB, memoryMapFree, 0⟩]
  frameAllocMapItem := ⟨MB, MB, memoryMapFree, 0⟩
  firstFrameAddress := MB

theorem oneRange_in_map : RangesInMap oneItem oneRange 1 := by
  intro i _ _
  have hi : oneRange i = ⟨MB, MB⟩ := rfl
  rw [hi]
  exact ⟨⟨MB, MB, memoryMapFree, 0⟩, by decide, by decide, by decide⟩

theorem frame_stack_suffices_after_alloc : ∃ c : FrameClient, c.owned = [MB + 2 * pageSize] ∧
    ∃ k', (deallocFrame (MB + 2 * pageSize)).run c.kernel = .ok () k' := by
  exact ⟨_, rfl, ((frame_stack_suffices oneRange_free oneRange_in_map (by decide) startedKernel_run
    (.single (.alloc oneAllocated_run))).2 _ List.mem_cons_self).2.2 (by decide +kernel)⟩

/-! ## A stack that is too small -/

structure ServesFrames (c : FrameClient) (all : List Nat) : Prop where
  inv : FramesInv c.kernel.sh.frames c.owned all
  hal : c.kernel.sh.halArchInitialized = true
  unlocked : .frameAllocator ∉ c.kernel.cpu.held
  base : c.kernel.sh.frames.frameStack.base ≠ 0
  max : c.kernel.sh.frames.frameStack.maxSizeBytes ≠ 0
  stop : c.kernel.sh.frames.frameStack.base + c.kernel.sh.frames.frameStack.maxSizeBytes < 2 ^ 64
  notNull : 0 ∉ all

section

variable {c c' : FrameClient} {f f' : FrameAllocator} {all : List Nat} {x : Nat} {u : Unit}

variable (h : ServesFrames c all)

include h

theorem ServesFrames.step (hstep : FrameStep c c') (hheld : c'.kernel.cpu.held = c.kernel.cpu.held)
    (hhal : c'.kernel.sh.halArchInitialized = c.kernel.sh.halArchInitialized) : ServesFrames c' all := by
  obtain ⟨hinv, hstays⟩ := hstep.inv h.inv
  refine ⟨hinv, hhal.trans h.hal, by rw [hheld]; exact h.unlocked, ?_, ?_, ?_, h.notNull⟩
  · rw [hstays.base]; exact h.base
  · rw [hstays.max]; exact h.max
  · rw [hstays.base, hstays.max]; exact h.stop

theorem ServesFrames.alloc (hfree : c.kernel.sh.frames.freeCount ≠ 0) :
    ∃ c', FrameStep c c' ∧ ServesFrames c' all ∧ c'.owned.length = c.owned.length + 1 := by
  obtain ⟨x, f, hx⟩ := takeFreeFrame_returns (h.inv.stack_valid h.base h.max h.stop) hfree
  have hx0 : x ≠ 0 := fun h0 => h.notNull <| h0 ▸
    (takeFreeFrame_inv h.inv hx).perm.subset (List.mem_append_right _ List.mem_cons_self)
  rw [← h.hal] at hx
  have hstep : FrameStep c ⟨_, x :: c.owned⟩ := .alloc (run_allocFrame_of_take h.unlocked hx hx0)
  refine ⟨_, hstep, h.step hstep ?_ rfl, List.length_cons⟩
  simp [Kernel.unlocked, Kernel.locked]

theorem ServesFrames.alloc_all {n : Nat} (hn : c.kernel.sh.frames.freeCount = n) :
    ∃ c', ReflTransGen FrameStep c c' ∧ ServesFrames c' all ∧ c'.kernel.sh.frames.freeCount = 0 := by
  induction n generalizing c with
  | zero => exact ⟨c, .refl, h, hn⟩
  | succ n ih =>
    obtain ⟨d, hstep, hd, hlen⟩ := h.alloc (by omega)
    have h1 := h.inv.freeCount_add
    have h2 := hd.inv.freeCount_add
    obtain ⟨e, hrun, he⟩ := ih hd (by omega)
    exact ⟨e, .head hstep hrun, he⟩

/-- If all ranges are used up, the frames that are given back stay on the stack. -/
theorem ServesFrames.dealloc_all {n : Nat} (hn : c.owned.length = n)
    (hranges : rangeFrames c.kernel.sh.frames.freeRanges c.kernel.sh.frames.numberOfRanges = [])
    (hsmall : c.kernel.sh.frames.frameStack.maxSizeBytes < 8 * all.length) :
    ∃ c' x k', ReflTransGen FrameStep c c' ∧ x ∈ c'.owned ∧
      (deallocFrame x).run c'.kernel = .error (.panic .frameAllocatorError) k' := by
  induction n generalizing c with
  | zero =>
    -- every frame is on the stack, which has no room for them
    obtain ⟨m, hm, hmax⟩ := h.inv.stack
    have hcount := h.inv.count_eq hm hmax
    have hlen := h.inv.perm.length_eq
    rw [hranges, List.length_append, List.length_append, length_stackFrames, List.length_nil] at hlen
    omega
  | succ n ih =>
    obtain ⟨x, hx⟩ := List.exists_mem_of_length_pos (show 0 < c.owned.length by omega)
    have hput := run_putFreeFrame x c.kernel.sh.frames
    split at hput
    · obtain ⟨k', hk', hframes, hheld, hhal⟩ := run_deallocFrame_of_put h.unlocked hput
      have hstep : FrameStep c ⟨k', c.owned.erase x⟩ := .dealloc hx hk'
      have hstays := (hstep.inv h.inv).2
      obtain ⟨d, y, k₂, hrun, hy⟩ := ih (h.step hstep hheld hhal)
        (by rw [List.length_erase_of_mem hx, hn, Nat.add_sub_cancel])
        (by rw [hframes]; exact hranges) (by rw [hstays.max]; exact hsmall)
      exact ⟨d, y, k₂, .head hstep hrun, hy⟩
    · obtain ⟨k', hk'⟩ := run_deallocFrame_of_error h.unlocked hput
      exact ⟨c, x, k', .refl, hx, hk'⟩

/-- With more frames than words, some sequence of calls panics. -/
theorem ServesFrames.overflows
    (hsmall : c.kernel.sh.frames.frameStack.maxSizeBytes < 8 * all.length) :
    ∃ c' x k', ReflTransGen FrameStep c c' ∧ x ∈ c'.owned ∧
      (deallocFrame x).run c'.kernel = .error (.panic .frameAllocatorError) k' := by
  obtain ⟨d, hrun, hd, hzero⟩ := h.alloc_all rfl
  have hranges : rangeFrames d.kernel.sh.frames.freeRanges d.kernel.sh.frames.numberOfRanges = [] := by
    rw [← List.length_eq_zero_iff, length_rangeFrames]
    unfold FrameAllocator.freeCount at hzero
    omega
  have hstays := (frames_inv_of_run hrun h.inv).2
  obtain ⟨e, x, k', hrun', hx⟩ := hd.dealloc_all rfl hranges (by rw [hstays.max]; exact hsmall)
  exact ⟨e, x, k', hrun.trans hrun', hx⟩

end

/-- A memory map that reports the whole address space, in two halves. -/
def wholeSpace : BootLoaderData where
  mapItems := [⟨0, 2 ^ 63, memoryMapFree, 0⟩, ⟨2 ^ 63, 2 ^ 63, memoryMapFree, 0⟩]
  frameAllocMapItem := ⟨0, 2 ^ 63, memoryMapFree, 0⟩
  firstFrameAddress := MB

/-- Free memory of one frame more than the words of two pages, after these two pages. -/
def wideRange : Nat → PhysicalMemoryRange := fun _ => ⟨MB, 1027 * pageSize⟩

theorem wideRange_free : FreeRanges wideRange 1 where
  aligned := by decide
  word := by decide
  fits := by decide
  disjoint i hi j hj hne x := by omega

theorem wideRange_in_map : RangesInMap wholeSpace wideRange 1 := by
  intro i _ _
  have hi : wideRange i = ⟨MB, 1027 * pageSize⟩ := rfl
  rw [hi]
  exact ⟨⟨0, 2 ^ 63, memoryMapFree, 0⟩, by decide, by decide, by decide⟩

/-- The kernel after the boot stage, with the frames of `wideRange`. -/
def wideKernel : Kernel :=
  finalState ((onFrames (initFrameAllocator wideRange 1 (getTotalUsableRAMSize wholeSpace))).run halKernel)

/-- The total size wraps to 0, and the stack gets two pages for 1025 frames. -/
theorem exists_stack_overflow : ∃ (k' : Kernel) (c : FrameClient) (x : Nat),
    (wholeSpace.mapItems.Pairwise fun a b => a.stop ≤ b.baseAddr) ∧
    FreeRanges wideRange 1 ∧ RangesInMap wholeSpace wideRange 1 ∧
    (onFrames (initFrameAllocator wideRange 1 (getTotalUsableRAMSize wholeSpace))).run halKernel =
      .ok () wideKernel ∧
    ReflTransGen FrameStep ⟨wideKernel, []⟩ c ∧ x ∈ c.owned ∧
    (deallocFrame x).run c.kernel = .error (.panic .frameAllocatorError) k' := by
  have hinit := eq_of_returned (a := ())
    (r := (onFrames (initFrameAllocator wideRange 1 (getTotalUsableRAMSize wholeSpace))).run halKernel)
    (by decide +kernel)
  obtain ⟨f, hf, hk⟩ := run_onFrames_ok.1 hinit
  obtain ⟨i, hs⟩ := initFrameAllocator_started (by decide) hf
  have hframes : wideKernel.sh.frames = f := congrArg (fun k : Kernel => k.sh.frames) hk
  rw [← hframes] at hs
  have hserves : ServesFrames ⟨wideKernel, []⟩ (rangeFrames wideKernel.sh.frames.freeRanges 1) := by
    refine ⟨hs.inv wideRange_free, by decide +kernel, by decide +kernel, by decide +kernel,
      by decide +kernel, by decide +kernel, fun h0 => ?_⟩
    obtain ⟨j, -, h0⟩ := mem_rangeFrames.1 ((hs.mem_rangeFrames wideRange_free).1 h0).1
    obtain ⟨m, -, h0⟩ := mem_framesOf.1 h0
    have hMB : (wideRange j).startAddress = 1048576 := rfl
    omega
  obtain ⟨c, x, k', hrun, hx, hpanic⟩ := hserves.overflows (by decide +kernel)
  exact ⟨k', c, x, by decide, wideRange_free, wideRange_in_map, hinit, hrun, hx, hpanic⟩

end GarbageOS
