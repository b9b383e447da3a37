import GarbageOS.Vmm.Faults
import GarbageOS.Paging.CopyRange
import GarbageOS.Vmm.Place

/-!
# Runs of the virtual memory manager

From `initialize_kernel_VMM` on, every call that returns keeps the descriptor list: its
areas tile the two parts of the address space, as long as no request ends at `2^64`.
-/

namespace GarbageOS

variable {k : Kernel} {p : DescPtr} {xs : List Area}

open Lib Relation

/-! ## The invariant -/

/-- What holds between two calls. -/
structure VmmState (k : Kernel) (xs : List Area) : Prop extends VmmInv k xs where
  mode : k.sh.vmm.kernelMode = true
  /-- A refused expansion keeps the lock. -/
  held : k.cpu.held = [] ∨ k.cpu.held = [.vmm]
  /-- Between its paddings an area in use has whole pages. -/
  whole : ∀ x ∈ xs, isFreeType x.type = false → x.length % pageSize = 0
  low : ∀ x ∈ xs, x.type = .identityMap → x.start < identityMapVmemEnd

section

variable {k k' k₁ : Kernel} {xs xs' : List Area} {x u m : Area} {side : Side} {n : Nat}

/-- What is asked of an area in use. -/
structure Area.Used (u : Area) : Prop where
  whole : u.length % pageSize = 0
  low : u.type = .identityMap → u.start < identityMapVmemEnd

theorem DescEffect.mode (h : DescEffect k k') : k'.sh.vmm.kernelMode = k.sh.vmm.kernelMode := by
  rw [h.eq]

theorem Side.length_grow (hn : n ≤ side.room x) (hpad : x.lower + x.upper ≤ x.size) :
    (side.grow n x).length = x.length + n := by
  cases side <;> simp only [Side.grow, Side.room, Area.length] at hn ⊢ <;> omega

theorem roundUpToPage_mod (size : Nat) : roundUpToPage size % pageSize = 0 := by
  unfold roundUpToPage
  split
  · unfold add64; simp only [pageSize]; omega
  · next h => simpa using h

variable (h : VmmState k xs)

include h

theorem VmmState.kheap_notMem : .kheap ∉ k.cpu.held := by
  rcases h.held with e | e <;> simp [e]

theorem VmmState.paging (heff : PagingEffect k k') : VmmState k' xs where
  toVmmInv := h.toVmmInv.paging heff
  mode := by rw [heff.vmm]; exact h.mode
  held := by rw [heff.held]; exact h.held
  whole := h.whole
  low := h.low

theorem VmmState.used (hx : x ∈ xs) (hu : isFreeType x.type = false) : x.Used :=
  ⟨h.whole x hx hu, h.low x hx⟩

theorem VmmState.of_used (hi : VmmInv k' xs') (hmode : k'.sh.vmm.kernelMode = k.sh.vmm.kernelMode)
    (hheld : k'.cpu.held = k.cpu.held) (hused : ∀ x ∈ xs', isFreeType x.type = false → x.Used) :
    VmmState k' xs' where
  toVmmInv := hi
  mode := hmode.trans h.mode
  held := by rw [hheld]; exact h.held
  whole x hx hu := (hused x hx hu).whole
  low x hx ht := (hused x hx (by rw [ht]; rfl)).low ht

theorem VmmState.reserves (hr : Reserves k k' xs u xs') (hu : u.Used) : VmmState k' xs' := by
  refine h.of_used (hr.inv h.toVmmInv) hr.effect.mode hr.effect.held fun x hx hfree => ?_
  rcases (hr.reserved.mem_used hfree).1 hx with rfl | hx
  · exact hu
  · exact h.used hx hfree

theorem VmmState.repadded (hr : Repadded xs x (side.grow n x) xs')
    (hi : VmmInv k' xs') (heff : DescEffect k k') (hroom : n ≤ side.room x)
    (hbacked : x.type.isBacked = true) (hn : n % pageSize = 0) : VmmState k' xs' := by
  obtain ⟨pre, post, rfl, rfl⟩ := hr.places
  have hx : x ∈ pre ++ x :: post := by simp
  have hused : isFreeType x.type = false := by
    revert hbacked
    cases x.type <;> decide
  refine h.of_used hi heff.mode heff.held fun y hy hfree => ?_
  rcases mem_splice.1 hy with rfl | hy
  · refine ⟨?_, fun ht => ?_⟩
    · have hlen := h.whole x hx hused
      rw [Side.length_grow hroom (h.layout.ok x hx).padding]
      simp only [pageSize] at hlen hn ⊢
      omega
    · rw [hr.same.2.2.2] at ht
      rw [ht] at hbacked
      cases hbacked
  · exact h.used (mem_splice.2 (.inr hy)) hfree

theorem VmmState.expands (he : Expands side k k' xs x n) (hn : n % pageSize = 0) :
    ∃ xs', VmmState k' xs' := by
  obtain ⟨xs', k₁, hr, hi, heff, hrun⟩ := he.grows
  exact ⟨xs', (h.repadded hr hi heff he.room he.backed hn).paging (PagingEffect.of_run hrun)⟩

theorem VmmState.locks (heff : LockEffect k k') (hheld : k'.cpu.held = [] ∨ k'.cpu.held = [.vmm]) :
    VmmState k' xs where
  toVmmInv := h.toVmmInv.locks heff
  mode := by rw [heff.eq]; exact h.mode
  held := hheld
  whole := h.whole
  low := h.low

theorem VmmState.released (hr : Released xs x m xs') (hi : VmmInv k' xs')
    (hmode : k'.sh.vmm.kernelMode = k.sh.vmm.kernelMode) (hheld : k'.cpu.held = k.cpu.held) :
    VmmState k' xs' :=
  h.of_used hi hmode hheld fun _ hy hfree =>
    h.used ((hr.used h.vmm.list.nodup.of_map hfree).1 hy).1 hfree

theorem VmmState.held_eq_nil (hl : .vmm ∉ k.cpu.held) : k.cpu.held = [] :=
  h.held.resolve_right fun e => hl (by rw [e]; simp)

/-- The lock is taken if no refused expansion kept it. -/
theorem VmmState.locked (hl : .vmm ∉ k.cpu.held) : VmmState (k.locked .vmm) xs := by
  refine ⟨⟨h.vmm.congr_sh rfl, h.layout, h.quiet⟩, h.mode, .inr ?_, h.whole, h.low⟩
  show .vmm :: k.cpu.held = _
  rw [h.held_eq_nil hl]

end

/-! ## Calls -/

/-- The descriptors met from the head of the list on. -/
inductive InVmList (k : Kernel) : DescPtr → Prop where
  | head (h : k.sh.vmm.vmListHead ≠ .null) : InVmList k k.sh.vmm.vmListHead
  | next {p : DescPtr} (hp : InVmList k p) (h : (k.sh.descs p).next ≠ .null) :
      InVmList k (k.sh.descs p).next

/-- The descriptor with index `n` in the list. -/
def Kernel.nthDesc (k : Kernel) : Nat → DescPtr
  | 0 => k.sh.vmm.vmListHead
  | n + 1 => (k.sh.descs (k.nthDesc n)).next

theorem inVmList_of_nth {n : Nat} (hp : k.nthDesc n = p) (h : ∀ i ≤ n, k.nthDesc i ≠ .null) :
    InVmList k p := by
  induction n generalizing p with
  | zero => exact hp ▸ .head (h 0 (Nat.le_refl 0))
  | succ n ih =>
    exact hp ▸ .next (ih rfl fun i hi => h i (Nat.le_succ_of_le hi)) (h (n + 1) (Nat.le_refl _))

theorem InVmList.exists_area (h : InVmList k p) (hl : DescList k.sh.descs xs)
    (hhead : k.sh.vmm.vmListHead = headPtr xs) : ∃ x ∈ xs, p = x.ptr := by
  induction h with
  | head hne =>
    rw [hhead] at hne ⊢
    cases xs with
    | nil => exact (hne rfl).elim
    | cons x xs => exact ⟨x, List.mem_cons_self, rfl⟩
  | next _ hne ih =>
    obtain ⟨x, hx, rfl⟩ := ih
    obtain ⟨pre, post, rfl⟩ := List.append_of_mem hx
    rw [hl.around.2] at hne ⊢
    cases post with
    | nil => exact (hne rfl).elim
    | cons y post => exact ⟨y, by simp, rfl⟩

/-- A call that returns. Requested ranges end at `limit` at the latest, requests are not empty,
sizes do not wrap with their padding, and handles are those of the list; `Lower` restricts the
lower paddings, and `Copies` the structures and flags of copies. Other heap clients and the
shootdown's initialisation are left out. -/
inductive CallStep (limit : Nat) (Lower : Nat → Prop) (Copies : Kernel → Nat → Nat → Prop)
    (k k' : Kernel) : Prop where
  | identityMap {a n : Nat} {p : VMemHandle} (hn : 0 < n) (hfit : a + n ≤ limit)
      (hrun : (identityMap a n).run k = .ok p k')
  | load {a n : Nat} {p : VMemHandle} (hfit : a + n ≤ identityMapVmemEnd)
      (hrun : (loadIdentityMapPages a n p).run k = .ok () k')
  | memoryMap {paddr n flags : Nat} {p : VMemHandle} (hn : n + memoryMapPadding * 2 < 2 ^ 64)
      (hrun : (memoryMap paddr n flags).run k = .ok p k')
  | allocate {n up lo : Nat} {type : VirtualMemoryType} {p : VMemHandle}
      (htype : type.isBacked = true) (hn : 0 < n + (lo + up) ∧ n + (lo + up) < 2 ^ 64)
      (hlo : Lower lo) (hrun : (allocateKernelVirtualMemory n type up lo).run k = .ok p k')
  | copy {src a n flags : Nat} {p : VMemHandle} (hn : 0 < n) (hfit : a + n ≤ limit)
      (hsrc : Copies k src flags)
      (hrun : (copyMemoryMappingFromPagingStructure src a n flags).run k = .ok p k')
  | expandTop {n : Nat} {p : VMemHandle} {b : Bool} (hp : InVmList k p)
      (hrun : (tryExpandVmemTop p n).run k = .ok b k')
  | expandBottom {n : Nat} {p : VMemHandle} {b : Bool} (hp : InVmList k p)
      (hrun : (tryExpandVmemBottom p n).run k = .ok b k')
  | deallocate {p : VMemHandle} {b : Bool} (hp : InVmList k p)
      (hrun : (deallocateKernelVirtualMemory p).run k = .ok b k')
  | fault {a e : Nat} (hrun : (pageFault a e).run k = .ok () k')
  | kheapInit (hk : k.sh.kheapInitialized = false) (hrun : kheapInit.run k = .ok () k')

def VmmStep (limit : Nat) : Kernel → Kernel → Prop :=
  CallStep limit (fun _ => True) fun _ _ _ => True

section

variable {k k' : Kernel} {xs : List Area}
  {a n : Nat} {p : VMemHandle} {pl : Placement}

theorem Contained.low (h : Contained xs .identityMapFree a n) (hlay : Layout xs) :
    a + n ≤ identityMapVmemEnd := by
  obtain ⟨d, hd, htype, hlo, hhi⟩ := h
  have hd := hlay.ok d hd
  exact hhi.trans (hd.stop_le_low ((hd.low_iff htype rfl).2 rfl))

theorem Request.used_area {r : Request} (ht : r.Typed) (hmod : r.size % pageSize = 0)
    (p : VMemHandle) (start : Nat) : (r.area p start).Used := by
  refine ⟨by rw [Request.length_area]; exact hmod, fun htype => ?_⟩
  have htype' : r.type = .identityMap := htype
  cases r with
  | memoryMap => cases htype'
  | allocate size type upper lower =>
    have ht' : type.isBacked = true := ht
    rw [show type = .identityMap from htype'] at ht'
    cases ht'

theorem VmmState.requestStep {r : Request} (h : VmmState k xs) (ht : r.Typed)
    (hn : 0 < r.padded ∧ r.padded < 2 ^ 64) (hrun : r.call.run k = .ok p k') :
    ∃ xs' k₁ a, r.size % pageSize = 0 ∧ VmmState k' xs' ∧ kernelVmemStart ≤ a ∧
      Reserves k k₁ xs (r.area p a) xs' ∧ (r.mapPages (a + r.lower) r.size).run k₁ = .ok () k' := by
  obtain ⟨-, -, hmod, d, xs', t, hd, hr, hmap⟩ := r.run_call_ok h.toVmmInv ht hn hrun
  exact ⟨xs', t, d.start, hmod,
    (h.reserves hr (Request.used_area ht hmod p d.start)).paging (PagingEffect.of_run hmap),
    hd.first.kernelPart h.layout, hr, hmap⟩

theorem Request.memoryMap_fits {paddr flags : Nat} (hn : n + memoryMapPadding * 2 < 2 ^ 64) :
    0 < (Request.memoryMap paddr n flags).padded ∧ (Request.memoryMap paddr n flags).padded < 2 ^ 64 := by
  have hpad : 0 < memoryMapPadding := by decide
  show 0 < n + (memoryMapPadding + memoryMapPadding) ∧ n + (memoryMapPadding + memoryMapPadding) < _
  omega

theorem Reserves.used_placed {xs' : List Area} (hr : Reserves k k' xs ⟨p, a, n, 0, 0, pl.ut⟩ xs')
    (hn : 0 < n) (hc : Contained xs pl.ft a n)
    (hlay : Layout xs) : (⟨p, a, n, 0, 0, pl.ut⟩ : Area).Used := by
  refine ⟨(hr.layout.ok _ hr.mem).size_aligned, fun ht => ?_⟩
  cases pl with
  | identity =>
    have hlow := hc.low hlay
    show a < identityMapVmemEnd
    omega
  | copy => cases ht

section

variable (h : VmmState k xs)

include h

theorem VmmState.placement (hn : 0 < n) (hfit : a + n < 2 ^ 64)
    (hrun : (pl.call a n).run k = .ok p k') :
    (p = .null ∧ ¬ Contained xs pl.ft a n ∧ VmmState k' xs) ∨
      (p ≠ .null ∧ Contained xs pl.ft a n ∧
        ∃ xs', Reserved xs ⟨p, a, n, 0, 0, pl.ut⟩ xs' ∧ VmmState k' xs') := by
  rcases pl.run_call_ok h.toVmmInv hn hfit hrun with ⟨hp, hno, rfl⟩ | ⟨hp, hc, xs', k₁, hr, hfill⟩
  · exact .inl ⟨hp, hno, h⟩
  · exact .inr ⟨hp, hc, xs', hr.reserved, (h.reserves hr (hr.used_placed hn hc h.layout)).paging
      (Placement.fill_paging (hr.inv h.toVmmInv) hfill)⟩

theorem VmmState.placeStep (pl : Placement) (hn : 0 < n) (hfit : a + n < 2 ^ 64)
    (hrun : (pl.call a n).run k = .ok p k') : ∃ xs', VmmState k' xs' := by
  rcases h.placement hn hfit hrun with ⟨-, -, h'⟩ | ⟨-, -, xs', -, h'⟩
  · exact ⟨xs, h'⟩
  · exact ⟨xs', h'⟩

theorem VmmState.expandStep {side : Side} {b : Bool} (hp : InVmList k p)
    (hrun : (tryExpandWith kmalloc side p n true).run k = .ok b k') : ∃ xs', VmmState k' xs' := by
  obtain ⟨x, hx, rfl⟩ := hp.exists_area h.vmm.list h.vmm.head
  obtain ⟨hl, ⟨-, rfl, -⟩ | ⟨-, he⟩⟩ := expand_cases h.toVmmInv hx hrun
  · exact ⟨xs, h.locked hl⟩
  · exact h.expands he (roundUpToPage_mod n)

theorem VmmState.unmapped {k₁ k₂ : Kernel} {t : VirtualMemoryType} {v size : Nat} {x m : Area}
    {xs' : List Area} (hpages : (unmapPages t v size).run (k.locked .vmm) = .ok () k₁)
    (hr : Released xs x m xs') (hi : VmmInv k₂ xs') (heff : DescEffect k₁ k₂) :
    VmmState (k₂.unlocked .vmm k.cpu.interrupts) xs' := by
  have hpaging : PagingEffect (k.locked .vmm) k₁ := PagingEffect.of_run hpages
  refine h.released hr ⟨hi.vmm.congr_sh rfl, hi.layout, hi.quiet⟩ ?_ ?_
  · show k₂.sh.vmm.kernelMode = _
    rw [heff.mode, hpaging.vmm]
    rfl
  · show k₂.cpu.held.erase _ = _
    rw [heff.held, hpaging.held]
    simp [Kernel.locked]

theorem VmmState.deallocateStep {b : Bool} (hp : InVmList k p)
    (hrun : (deallocateKernelVirtualMemory p).run k = .ok b k') : ∃ xs', VmmState k' xs' := by
  obtain ⟨x, hx, rfl⟩ := hp.exists_area h.vmm.list h.vmm.head
  obtain ⟨-, -, -, -, k₁, k₂, m, xs', hpages, hr, hi, heff, rfl⟩ :=
    deallocate_cases h.toVmmInv h.kheap_notMem hx hrun
  exact ⟨xs', h.unmapped hpages hr hi heff⟩

/-- A fault is solved with the lock held, between two steps that only take and give back locks. -/
theorem VmmState.faultPhases {a e : Nat} (hrun : (pageFault a e).run k = .ok () k') :
    ∃ k₀ k₁, LockEffect k k₀ ∧ VmmState k₀ xs ∧ FaultSolved a k₀ k₁ xs ∧ LockEffect k₁ k' ∧
      ∀ xs', VmmState k₁ xs' → VmmState k' xs' := by
  obtain ⟨hl, k₀, k₁, heff₀, hheld₀, hsolved, heff₁, hheld₁⟩ := pageFault_cases h.toVmmInv hrun
  have hone : k₀.cpu.held = [.vmm] := by rw [hheld₀, h.held_eq_nil hl]
  refine ⟨k₀, k₁, heff₀, h.locks heff₀ (.inr hone), hsolved, heff₁, fun xs' h₁ => ?_⟩
  refine h₁.locks heff₁ (.inl ?_)
  rw [hheld₁]
  rcases h₁.held with he | he <;> rw [he] <;> rfl

theorem VmmState.faultStep {e : Nat} (hrun : (pageFault a e).run k = .ok () k') :
    ∃ xs', VmmState k' xs' := by
  obtain ⟨k₀, k₁, -, h₀, hsolved, -, hleave⟩ := h.faultPhases hrun
  cases hsolved with
  | loaded x hx hin htype hload =>
    exact ⟨xs, hleave _ (h₀.paging (PagingEffect.of_run hload))⟩
  | grown x hx hin htype hroom hgrows =>
    obtain ⟨xs', h₁⟩ := h₀.expands hgrows (by decide)
    exact ⟨xs', hleave _ h₁⟩

end

theorem keeps_initializeHeapOn (handle : VMemHandle) :
    Keeps HeapEffect (initializeHeapOn handle) := by
  have hread : Keeps HeapEffect (readDesc handle) := .bind .check fun _ => .bind .get fun _ => .pure _
  exact .bind (.bind hread fun _ => .pure _) fun _ => .bind (.bind hread fun _ => .pure _) fun _ =>
    fun _ _ _ => HeapEffect.onHeap

theorem VmmState.startHeap {k₁ : Kernel} {u : Area} (h : VmmState k xs) (hu : u ∈ xs)
    (hk : k.sh.kheapInitialized = false) (hlow : kernelVmemStart ≤ u.start)
    (hheap : (initializeHeapOn u.ptr).run k = .ok () k₁) :
    VmmState { k₁ with sh := { k₁.sh with kheapInitialized := true } } xs := by
  obtain ⟨hstart, hsize, hupper, hlower, -⟩ := h.vmm.list.fields hu
  have hok := (h.layout.ok u hu).padding
  have hstop := h.layout.stop_lt hu
  obtain ⟨hbacked, c, L, hinv⟩ := initializeHeapOn_ok (by rw [hstart]; exact hlow)
    (by rw [hlower, hupper, hsize]; exact hok) (by rw [hstart, hsize]; exact hstop) hheap
  have hkeep := keeps_initializeHeapOn u.ptr hheap
  -- the new heap is one free chunk
  have hdesc : DescHeap k₁.sh.heap [c] L := by
    refine ⟨hinv, ?_, fun d hd hf => ?_⟩
    · have := hbacked.upper
      have hkern : 2 ^ 63 ≤ kernelVmemStart := by decide
      omega
    · obtain rfl := List.mem_singleton.1 hd
      have hwild := (hinv.wild d hd).2 (hinv.tiles.2)
      rw [(hinv.wilderness d hd hwild).1] at hf
      cases hf
  refine ⟨⟨⟨?_, ?_, ?_⟩, h.layout, ?_⟩, ?_, ?_, h.whole, h.low⟩
  · rw [hkeep.eq]; exact h.vmm.list
  · rw [hkeep.eq]; exact h.vmm.head
  · refine ⟨fun i hi => ?_, fun hno => Bool.noConfusion hno,
      fun _ => ⟨[c], L, hdesc, fun b hb => ?_⟩⟩
    · rw [hkeep.eq]; exact h.vmm.pool.early i hi
    · exact (h.vmm.pool.static hk b hb).elim
  · rw [hkeep.eq]; exact h.quiet
  · rw [hkeep.eq]; exact h.mode
  · rw [hkeep.eq]; exact h.held

theorem DescEffect.kheapInitialized {k₁ : Kernel} (h : DescEffect k k₁) (heff : PagingEffect k₁ k') :
    k'.sh.kheapInitialized = k.sh.kheapInitialized := by
  rw [heff.eq]
  show k₁.sh.kheapInitialized = _
  rw [h.eq]

/-- The request of `kheap_init`. -/
def kheapRequest : Request :=
  .allocate kernelHeapSize .heap kernelHeapVmmMaxSize kernelHeapVmmLowSecurityPadding

theorem VmmState.kheapInitStep (h : VmmState k xs) (hk : k.sh.kheapInitialized = false)
    (hrun : kheapInit.run k = .ok () k') : ∃ xs', VmmState k' xs' := by
  unfold kheapInit at hrun
  obtain ⟨p, k₂, halloc, hrun⟩ := run_bind_ok.1 hrun
  obtain ⟨_, k₃, hheap, hrun⟩ := run_bind_ok.1 hrun
  rw [run_modifyShared] at hrun
  cases hrun
  obtain ⟨xs', k₁, a, -, h', ha, hr, hpages⟩ :=
    h.requestStep (r := kheapRequest) rfl (by decide) halloc
  have hinit := hr.effect.kheapInitialized (PagingEffect.of_run hpages)
  exact ⟨xs', h'.startHeap hr.mem (hinit.trans hk) ha hheap⟩

theorem VmmState.step (h : VmmState k xs) (hstep : VmmStep (2 ^ 64 - 1) k k') :
    ∃ xs', VmmState k' xs' := by
  cases hstep with
  | identityMap hn hfit hrun => exact h.placeStep .identity hn (by omega) hrun
  | load hfit hrun =>
    exact ⟨xs, h.paging (.of_run (run_loadIdentityMapPages_ok h.quiet hrun).2)⟩
  | memoryMap hn hrun =>
    obtain ⟨xs', -, -, -, h', -⟩ :=
      h.requestStep (r := .memoryMap _ _ _) trivial (Request.memoryMap_fits hn) hrun
    exact ⟨xs', h'⟩
  | allocate htype hn _ hrun =>
    obtain ⟨xs', -, -, -, h', -⟩ := h.requestStep (r := .allocate _ _ _ _) htype hn hrun
    exact ⟨xs', h'⟩
  | copy hn hfit _ hrun => exact h.placeStep (.copy _ _) hn (by omega) hrun
  | expandTop hp hrun => exact h.expandStep hp hrun
  | expandBottom hp hrun => exact h.expandStep hp hrun
  | deallocate hp hrun => exact h.deallocateStep hp hrun
  | fault hrun => exact h.faultStep hrun
  | kheapInit hk hrun => exact h.kheapInitStep hk hrun

end

/-! ## Runs -/

/-- Before the heap there is, `allocate_vmem_descriptor` takes the next one of the array. -/
theorem run_allocateVmemDescriptor_static {k' : Kernel} (hk : k.sh.kheapInitialized = false)
    (h : allocateVmemDescriptor.run k = .ok p k') :
    p = .early k.sh.nextFreeDescriptor ∧
      k' = { k.setDesc p (freshDesc k.sh.descs p) with
        sh := { (k.setDesc p (freshDesc k.sh.descs p)).sh with
          nextFreeDescriptor := k.sh.nextFreeDescriptor + 1 } } := by
  unfold allocateVmemDescriptor isKheapInitialized at h
  rw [run_gets_bind, if_neg (by simp [hk]), run_get_bind, run_check_bind,
    run_modifyShared_bind, run_modifyDesc_bind] at h
  obtain ⟨-, -, h⟩ := h
  cases h
  exact ⟨rfl, rfl⟩

/-- The two free areas a new address space has, with descriptors `i` and `i + 1` of the array. -/
def initialAreas (i : Nat) : List Area :=
  [⟨.early i, pageSize, identityMapVmemEnd - pageSize, 0, 0, .identityMapFree⟩,
    ⟨.early (i + 1), kernelVmemStart, kernelVmemEnd - kernelVmemStart, 0, 0, .free⟩]

theorem initialAreas_layout (i : Nat) : Layout (initialAreas i) where
  tiles := by
    have hlow : pageSize + (identityMapVmemEnd - pageSize) = identityMapVmemEnd := by decide
    have hhigh : kernelVmemStart + (kernelVmemEnd - kernelVmemStart) = kernelVmemEnd := by decide
    have hne : kernelVmemEnd ≠ identityMapVmemEnd := by decide
    refine ⟨rfl, ?_, ?_⟩
    · exact (if_pos hlow).symm
    · show Area.bound _ = kernelVmemEnd
      rw [Area.bound, if_neg (by rw [Area.stop, hhigh]; exact hne)]
      exact hhigh
  ok := by
    simp only [initialAreas, List.forall_mem_cons, List.not_mem_nil, false_implies, implies_true,
      and_true]
    refine ⟨⟨?_, ?_, ?_, .inl ⟨?_, ?_⟩, ?_, fun _ => ⟨rfl, rfl, ?_⟩⟩,
      ⟨?_, ?_, ?_, .inr (Nat.le_refl _), ?_, fun _ => ⟨rfl, rfl, ?_⟩⟩⟩ <;>
    dsimp only [Area.stop] <;> decide
  apart := .cons_cons (fun _ h => VirtualMemoryType.noConfusion h) (.singleton _)

/-- The state `initialize_kernel_VMM` is called in. -/
structure BeforeVmm (k : Kernel) : Prop where
  heap : k.sh.kheapInitialized = false
  quiet : k.sh.queueArray = 0
  held : k.cpu.held = []

theorem initializeKernelVMM_ok {k₀ : Kernel} {ps : Nat} {u : Unit} (h₀ : BeforeVmm k₀)
    (h : (initializeKernelVMM ps).run k₀ = .ok u k) :
    VmmState k (initialAreas k₀.sh.nextFreeDescriptor) ∧ k.sh.vmm.pagingStructure = ps ∧
      k.sh.pmem = k₀.sh.pmem ∧ k.sh.frames = k₀.sh.frames := by
  unfold initializeKernelVMM at h
  obtain ⟨p, k₁, hp, h⟩ := run_bind_ok.1 h
  obtain ⟨rfl, hk₁⟩ := run_allocateVmemDescriptor_static h₀.heap hp
  obtain ⟨q, k₂, hq, h⟩ := run_bind_ok.1 h
  obtain ⟨rfl, hk₂⟩ := run_allocateVmemDescriptor_static (by rw [hk₁]; exact h₀.heap) hq
  dsimp only at h
  rw [run_modifyDesc_bind, run_modifyDesc_bind, run_modifyShared] at h
  obtain ⟨-, -, h⟩ := h
  cases h
  have hnext : k₁.sh.nextFreeDescriptor = k₀.sh.nextFreeDescriptor + 1 := by rw [hk₁]
  rw [hnext] at hk₂ ⊢
  have hne : DescPtr.early k₀.sh.nextFreeDescriptor ≠ .early (k₀.sh.nextFreeDescriptor + 1) := by
    simp
  have hsize : sub64 identityMapVmemEnd pageSize - sub64 identityMapVmemEnd pageSize % pageSize =
      identityMapVmemEnd - pageSize := by decide
  have hsize' : sub64 lastVaddr (add64 kernelVmemStart 1) -
      sub64 lastVaddr (add64 kernelVmemStart 1) % pageSize = kernelVmemEnd - kernelVmemStart := by
    decide
  rw [hsize, hsize']
  refine ⟨⟨⟨⟨⟨?_, ?_, ?_, ?_, ?_⟩, rfl, ⟨?_, ?_, ?_⟩⟩, initialAreas_layout _, ?_⟩, rfl, ?_, ?_, ?_⟩,
    rfl, ?_, ?_⟩
  · simp [initialAreas]
  · simp [initialAreas]
  · simp [initialAreas]
  · simp only [initialAreas, List.forall_mem_cons, List.not_mem_nil, false_implies, implies_true,
      and_true]
    constructor <;> simp [areaAt, hk₂, hk₁, freshDesc]
  · simp only [initialAreas, List.forall_mem_cons, List.not_mem_nil, false_implies, implies_true,
      and_true]
    constructor <;> simp [hk₂, hk₁, freshDesc, DescPtr.isHeap]
  · intro j hj
    simp only [initialAreas, List.map_cons, List.map_nil, List.mem_cons, DescPtr.early.injEq,
      List.not_mem_nil, or_false] at hj
    rw [hk₂]
    show j < k₀.sh.nextFreeDescriptor + 1 + 1
    omega
  · intro _ a
    simp [initialAreas]
  · intro hheap
    rw [hk₂, hk₁] at hheap
    exact absurd (h₀.heap.symm.trans hheap) (by decide)
  · rw [hk₂, hk₁]
    exact h₀.quiet
  · rw [hk₂, hk₁]
    exact .inl h₀.held
  · simp [initialAreas, isFreeType]
  · simp [initialAreas]
  · rw [hk₂, hk₁]; rfl
  · rw [hk₂, hk₁]; rfl

/-- From any state the calls reach, the areas are as in a new address space: see `VmmState`. -/
theorem vmmState_of_run {k₀ k₁ : Kernel} {ps : Nat} (h₀ : BeforeVmm k₀)
    (hinit : (initializeKernelVMM ps).run k₀ = .ok () k₁)
    (hrun : ReflTransGen (VmmStep (2 ^ 64 - 1)) k₁ k) : ∃ xs, VmmState k xs :=
  @invariant_of_steps _ _ (fun k => ∃ xs, VmmState k xs)
    (fun _ _ hstep ⟨_, hk⟩ => hk.step hstep) _ _ hrun ⟨_, (initializeKernelVMM_ok h₀ hinit).1⟩

/-! ## The descriptor list -/

/-- The descriptors from `vm_list_head` on are a list of areas that tile the address space. -/
structure AddressSpace (k : Kernel) (xs : List Area) : Prop where
  list : DescList k.sh.descs xs
  head : k.sh.vmm.vmListHead = headPtr xs
  increasing : (xs.map Area.start).Pairwise (· < ·)
  tiles : ∃ low high, xs = low ++ high ∧
    Tiles Area.start Area.stop pageSize low identityMapVmemEnd ∧
    Tiles Area.start Area.stop kernelVmemStart high kernelVmemEnd
  aligned : ∀ x ∈ xs, (0 < x.start ∧ x.start % pageSize = 0) ∧ 0 < x.size ∧ x.size % pageSize = 0
  padding : ∀ x ∈ xs, x.lower + x.upper ≤ x.size
  free : ∀ x ∈ xs, isFreeType x.type = true →
    x.lower = 0 ∧ x.upper = 0 ∧ x.type = freeTypeAt x.start
  apart : (xs.map Area.type).IsChain fun s t => isFreeType s = true → s ≠ t

theorem Layout.increasing (h : Layout xs) : (xs.map Area.start).Pairwise (· < ·) := by
  have hlt : ∀ x ∈ xs, x.start < x.bound := fun x hx => by
    have := (h.ok x hx).nonempty
    have := x.stop_le_bound
    unfold Area.stop at this
    omega
  have htiles := h.tiles
  clear h
  generalize pageSize = a at htiles
  induction xs generalizing a with
  | nil => exact .nil
  | cons x xs ih =>
    obtain ⟨-, hrest⟩ := htiles
    rw [List.map_cons, List.pairwise_cons]
    refine ⟨fun b hb => ?_, ih (fun y hy => hlt y (List.mem_cons_of_mem _ hy)) _ hrest⟩
    obtain ⟨y, hy, rfl⟩ := List.mem_map.1 hb
    have hx := hlt x List.mem_cons_self
    have hyx := ((hrest.bounds fun z _ => z.start_le_bound).2 y hy).1
    omega

theorem VmmState.addressSpace (h : VmmState k xs) : AddressSpace k xs where
  list := h.vmm.list
  head := h.vmm.head
  increasing := h.layout.increasing
  tiles := h.layout.parts
  aligned x hx := by
    have hpos : 0 < pageSize := by decide
    have hx' := h.layout.ok x hx
    exact ⟨⟨hpos.trans_le (h.layout.bounds hx).1, hx'.start_aligned⟩, hx'.nonempty, hx'.size_aligned⟩
  padding x hx := (h.layout.ok x hx).padding
  free x hx := (h.layout.ok x hx).free
  apart := h.layout.apart

/-- In every run in which no requested range ends at `2^64`, the list stays well formed. -/
theorem addressSpace_of_run {k₀ k₁ k : Kernel} {ps : Nat} (h₀ : BeforeVmm k₀)
    (hinit : (initializeKernelVMM ps).run k₀ = .ok () k₁)
    (hrun : ReflTransGen (VmmStep (2 ^ 64 - 1)) k₁ k) : ∃ xs, AddressSpace k xs := by
  obtain ⟨xs, h⟩ := vmmState_of_run h₀ hinit hrun
  exact ⟨xs, h.addressSpace⟩

theorem twoStructures_before : BeforeVmm twoStructures :=
  ⟨by decide +kernel, by decide +kernel, by decide +kernel⟩

def newSpace : Kernel := finalState ((initializeKernelVMM (5 * pageSize)).run twoStructures)

theorem newSpace_run : (initializeKernelVMM (5 * pageSize)).run twoStructures = .ok () newSpace :=
  eq_of_returned (by decide +kernel)

/-- Forty pages from page 1 on are identity mapped. -/
def lowSpace : Kernel := finalState ((identityMap pageSize (40 * pageSize)).run newSpace)

theorem lowSpace_run : (identityMap pageSize (40 * pageSize)).run newSpace = .ok (.early 0) lowSpace :=
  eq_of_returned (by decide +kernel)

/-- A region of two pages at the end of the kernel part is copied. -/
theorem addressSpace_after_copy : ∃ xs, AddressSpace (finalState
    ((copyMemoryMappingFromPagingStructure (7 * pageSize) (kernelVmemEnd - 2 * pageSize)
      (2 * pageSize) 1).run newSpace)) xs :=
  addressSpace_of_run twoStructures_before newSpace_run
    (.single (.copy (by decide) (by decide) trivial
      (eq_of_returned (a := .early 2) (by decide +kernel))))

/-- The copy of the last two pages below `2^64` passes the range check, which wraps to 0, and
the rest of the free area is described as starting at address 0. -/
def wrappedSpace : Kernel :=
  finalState ((copyMemoryMappingFromPagingStructure (7 * pageSize) (2 ^ 64 - 2 * pageSize)
    (2 * pageSize) 1).run newSpace)

theorem wrappedSpace_run : (copyMemoryMappingFromPagingStructure (7 * pageSize)
    (2 ^ 64 - 2 * pageSize) (2 * pageSize) 1).run newSpace = .ok (.early 1) wrappedSpace :=
  eq_of_returned (by decide +kernel)

theorem wrappedSpace_last : InVmList wrappedSpace (.early 3) :=
  inVmList_of_nth (n := 3) (by decide +kernel) (by decide +kernel)

theorem exists_broken_addressSpace : ∃ (k₀ k₁ k : Kernel) (p : VMemHandle), BeforeVmm k₀ ∧
    (initializeKernelVMM (5 * pageSize)).run k₀ = .ok () k₁ ∧
    (copyMemoryMappingFromPagingStructure (7 * pageSize) (2 ^ 64 - 2 * pageSize) (2 * pageSize) 1).run
      k₁ = .ok p k ∧ ¬ ∃ xs, AddressSpace k xs := by
  refine ⟨twoStructures, newSpace, wrappedSpace, .early 1, twoStructures_before, newSpace_run,
    wrappedSpace_run, ?_⟩
  rintro ⟨xs, h⟩
  obtain ⟨x, hx, hp⟩ := wrappedSpace_last.exists_area h.list h.head
  have hstart : x.start = 0 := by
    rw [← (h.list.fields hx).1, ← hp]
    decide +kernel
  have hpos := (h.aligned x hx).1.1
  omega

end GarbageOS
