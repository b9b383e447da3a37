import GarbageOS.Vmm.Mapped

/-!
# Runs and the page tables

Every call keeps the agreement between the areas and the page tables, as long as no sum of
a request wraps. From an empty paging structure on it holds in every run of such calls.
-/

namespace GarbageOS

open Lib Relation

/-- A paging structure that entries can be copied from: it shares no frame with the one of
the kernel, and none of its frames is free. -/
structure CopySource (k : Kernel) (src : Nat) : Prop where
  tables : PageTables k.sh.pmem src
  apart : NoSharedFrame k.sh.pmem src k.sh.vmm.pagingStructure
  taken : ∀ a, InStructure k.sh.pmem src a → ¬ FreeFrame k.sh.frames a

/-- A call that returns. No request wraps or is empty, lower paddings are multiples of `g`, handles
are those of the list, and if `full` holds, copied pages are made present. -/
def MapStep (full : Prop) (g : Nat) : Kernel → Kernel → Prop :=
  CallStep (2 ^ 64 - 1) (fun lo => lo % g = 0) fun k src flags =>
    flags < 2 ^ 16 ∧ (full → flags % 2 = 1) ∧ CopySource k src

section

variable {full : Prop} {g : Nat} {k k' k₁ : Kernel} {xs xs' : List Area} {x u : Area}
  {owned owned' all : List Nat}
  {a n : Nat} {p : VMemHandle} {b : Bool}

theorem Area.Ok.pageCount_le (h : u.Ok) (hhigh : kernelVmemStart ≤ u.start) (hstop : u.stop < 2 ^ 64)
    (hwhole : u.length % pageSize = 0) : pageCount u.length ≤ 2 ^ 36 := by
  have hend := h.base_add_length
  have hbase : u.start ≤ u.base := Nat.le_add_right _ _
  have hstart := kernelVmemStart_eq
  rw [pageCount_eq hwhole]
  simp only [pageSize]
  omega

theorem loadStart_eq (hin : pageSize ≤ a ∧ a < identityMapVmemEnd) : loadStart a = a - 8 := by
  have hend := identityMapVmemEnd_eq
  unfold loadStart pageFaultAdditionalPageLoad
  simp only [pageSize] at hin
  exact sub64_eq (by omega) (by omega)

theorem loadCount_eq (hin : pageSize ≤ a ∧ a < identityMapVmemEnd) : loadCount a = 17 := by
  have hend := identityMapVmemEnd_eq
  unfold loadCount addressPageCount pageFaultAdditionalPageLoad
  rw [loadStart_eq hin, add64_eq (by simp only [pageSize]; omega),
    if_pos (by simp only [pageSize]; omega), Nat.add_sub_cancel_left]
  rfl

variable (h : Mapped full g k xs owned all)

include h

theorem Mapped.congr_sh (hv : VmmState k' xs) (hsh : k'.sh = k.sh) :
    Mapped full g k' xs owned all :=
  h.congr hv (by rw [hsh]) (by rw [hsh]) (by rw [hsh])

theorem Mapped.locks (hv : VmmState k' xs) (heff : LockEffect k k') :
    Mapped full g k' xs owned all :=
  h.congr hv (by rw [heff.eq]) (by rw [heff.eq]) (by rw [heff.eq])

theorem Mapped.reserveLow (hr : Reserves k k' xs u xs') (hu : u.Used) (hg : u.base % g = 0)
    (hlow : u.stop ≤ identityMapVmemEnd) (htype : u.type = .identityMap) :
    Mapped full g k' xs' owned all where
  toVmmState := h.toVmmState.reserves hr hu
  paged := by
    obtain ⟨hpmem, hframes, hps⟩ := hr.effect.paging
    exact hps ▸ h.paged.congr hpmem hframes
  granule x hx hused := by
    rcases (hr.reserved.mem_used hused).1 hx with rfl | hx
    · exact hg
    · exact h.granule x hx hused
  high x hx hused hne := by
    rcases (hr.reserved.mem_used hused).1 hx with rfl | hx
    · exact (hne htype).elim
    · exact h.high x hx hused hne
  backing := by
    obtain ⟨hpmem, -, hps⟩ := hr.effect.paging
    have hlt : identityMapVmemEnd < kernelVmemStart / pageSize * pageSize := by decide
    have hnone : ∀ q : KernelPage, ¬ u.HasPage q := fun q hq => by
      have hin := (hq.inside (hr.layout.ok u hr.mem)).2
      have hq := Nat.mul_le_mul_right pageSize q.2.1
      omega
    unfold Kernel.pageEntry
    rw [hpmem, hps]
    exact h.backing.extend (R := fun q : KernelPage => u.HasPage q)
      (fun q => hr.reserved.usedPage) (fun q => hr.reserved.page isFreeType_of_isBacked)
      (fun q _ => ⟨Iff.rfl, rfl⟩)
      (fun q hq => (hnone q hq).elim) (fun q hq => (hnone q hq).elim)
      (fun q _ hq => (hnone q hq).elim) fun _ ha => ha

theorem Mapped.identityMapStep (hg : g ∣ pageSize) (hn : 0 < n) (hfit : a + n < 2 ^ 64)
    (hrun : (identityMap a n).run k = .ok p k') :
    ∃ xs' owned', Mapped full g k' xs' owned' all := by
  rcases Placement.identity.run_call_ok h.toVmmInv hn hfit hrun with
    ⟨-, -, rfl⟩ | ⟨-, hc, xs', k₁, hr, hfill⟩
  · exact ⟨xs, owned, h⟩
  · cases hfill
    have hlow := hc.low h.layout
    have halign : a % pageSize = 0 := (hr.layout.ok _ hr.mem).start_aligned
    refine ⟨xs', owned, h.reserveLow hr (hr.used_placed hn hc h.layout) ?_ hlow rfl⟩
    exact Nat.mod_eq_zero_of_dvd (hg.trans (Nat.dvd_of_mod_eq_zero halign))

theorem Mapped.requestStep {r : Request} (hg : g ∣ pageSize) (ht : r.Typed)
    (hn : 0 < r.padded ∧ r.padded < 2 ^ 64) (hlo : r.lower % g = 0) (hrun : r.call.run k = .ok p k') :
    ∃ xs' owned', Mapped full g k' xs' owned' all ∧
      k'.sh.kheapInitialized = k.sh.kheapInitialized ∧
      ∃ u ∈ xs', u.ptr = p ∧ kernelVmemStart ≤ u.start := by
  obtain ⟨xs', k₁, a, hmod, -, hhigh, hr, hpages⟩ := h.toVmmState.requestStep ht hn hrun
  have hu := Request.used_area ht hmod p a
  have hlen : (r.area p a).length = r.size := Request.length_area p a
  have hok := hr.layout.ok _ hr.mem
  obtain ⟨hpmem, hframes, hps⟩ := hr.effect.paging
  have hpaged := h.paged.congr hpmem hframes
  have hcount := hok.pageCount_le hhigh (hr.layout.stop_lt hr.mem) hu.whole
  rw [hlen] at hcount
  have hgran : (a + r.lower) % g = 0 := by
    have h1 : pageSize ∣ a := Nat.dvd_of_mod_eq_zero hok.start_aligned
    exact Nat.mod_eq_zero_of_dvd (Nat.dvd_add (hg.trans h1) (Nat.dvd_of_mod_eq_zero hlo))
  have heff := PagingEffect.of_run hpages
  have hkheap := hr.effect.kheapInitialized heff
  suffices hm : ∃ owned', Mapped full g k' xs' owned' all by
    obtain ⟨owned', hm⟩ := hm
    exact ⟨xs', owned', hm, hkheap, _, hr.mem, rfl, hhigh⟩
  cases r with
  | memoryMap =>
    obtain ⟨owned', hset⟩ := hpaged.mapLoop hcount hps (fun i t ht => by rw [run_get_bind, ht])
      (run_forPages_ok hpages)
    exact ⟨owned', h.reserve hr heff hu hgran hhigh (hlen.symm ▸ hset)
      (fun _ _ _ => isEntryPresent_mapEntry _ _) fun hb => by cases hb⟩
  | allocate =>
    obtain ⟨f, owned', hset, hfresh⟩ := hpaged.newFrames hps hcount hpages
    rw [← hlen] at hset hfresh
    exact ⟨owned', h.reserve hr heff hu hgran hhigh hset
      (fun _ _ _ => isEntryPresent_mapEntry _ _) fun _ => hfresh.ofEntry hset.paged.store⟩

theorem Mapped.copyStep {src flags : Nat} (hg : g ∣ pageSize) (hn : 0 < n) (hfit : a + n < 2 ^ 64)
    (hflags : flags < 2 ^ 16) (hpresent : full → flags % 2 = 1) (hsrc : CopySource k src)
    (hrun : (copyMemoryMappingFromPagingStructure src a n flags).run k = .ok p k') :
    ∃ xs' owned', Mapped full g k' xs' owned' all := by
  rcases (Placement.copy src flags).run_call_ok h.toVmmInv hn hfit hrun with
    ⟨-, -, rfl⟩ | ⟨-, hc, xs', k₁, hr, hfill⟩
  · exact ⟨xs, owned, h⟩
  · obtain ⟨k₂, hcopy, hpages, heff⟩ := Placement.run_fill_copy_ok (hr.inv h.toVmmInv) hfill
    have hu := hr.used_placed hn hc h.layout
    obtain ⟨d, hd, htype, hlo, -⟩ := hc
    have hhigh : kernelVmemStart ≤ a := ((h.layout.ok d hd).kernelPart htype).trans hlo
    have hok := hr.layout.ok _ hr.mem
    obtain ⟨hpmem, hframes, hps⟩ := hr.effect.paging
    have hcount := hok.pageCount_le hhigh (hr.layout.stop_lt hr.mem) hu.whole
    have hpaged := h.paged.congr hpmem hframes
    have hsrc₁ : Paged k₁ src owned all :=
      ⟨hpmem ▸ hsrc.tables, hpaged.store, by rw [hpmem, hframes]; exact hsrc.taken⟩
    have hgran : a % g = 0 :=
      Nat.mod_eq_zero_of_dvd (hg.trans (Nat.dvd_of_mod_eq_zero hok.start_aligned))
    rw [hps] at hcopy
    obtain ⟨owned', hset⟩ := hsrc₁.copyPages hpaged (hpmem ▸ hsrc.apart) hflags hcount hcopy
    have h₂ : Mapped full g k₂ xs' owned' all := h.reserve hr hpages hu hgran hhigh hset
      (fun hb _ _ => by
        have hodd := hpresent (hb.resolve_right fun hb => by cases hb)
        exact (isEntryPresent_copiedEntry (by omega)).2 hodd) fun hb => by cases hb
    exact ⟨xs', owned', h₂.congr_sh (h₂.toVmmState.paging heff.paging) heff.sh⟩

theorem Mapped.expandStep {side : Side} (hg : g ∣ pageSize) (hp : InVmList k p)
    (hrun : (tryExpandWith kmalloc side p n true).run k = .ok b k') :
    ∃ xs' owned', Mapped full g k' xs' owned' all := by
  obtain ⟨x, hx, rfl⟩ := hp.exists_area h.vmm.list h.vmm.head
  obtain ⟨hl, ⟨-, rfl, -⟩ | ⟨-, he⟩⟩ := expand_cases h.toVmmInv hx hrun
  · exact ⟨xs, owned, h.congr_sh (h.toVmmState.locked hl) rfl⟩
  · obtain ⟨xs', owned', -, h'⟩ := h.expand hg (roundUpToPage_mod n) he
    exact ⟨xs', owned', h'⟩

theorem Mapped.deallocateStep (hx : x ∈ xs)
    (hrun : (deallocateKernelVirtualMemory x.ptr).run k = .ok b k') :
    b = true ∧ isFreeType x.type = false ∧ Mergeable xs x ∧ .vmm ∉ k.cpu.held ∧
      ∃ m xs' owned', Released xs x m xs' ∧ Mapped full g k' xs' owned' all ∧
      Unmapped x.type k.sh.vmm.pagingStructure x.base (pageCount x.length) k k' owned owned' all := by
  obtain ⟨hl, hb, hused, hmerge, k₁, k₂, m, xs', hpages, hr, hi, heff, rfl⟩ :=
    deallocate_cases h.toVmmInv h.kheap_notMem hx hrun
  have hpaging : PagingEffect (k.locked .vmm) k₁ := PagingEffect.of_run hpages
  have h₀ : Mapped full g (k.locked .vmm) xs owned all := h.congr_sh (h.toVmmState.locked hl) rfl
  have hcount : pageCount x.length ≤ 2 ^ 36 := by
    have hend := (h.layout.ok x hx).base_add_length
    have hstop := h.layout.stop_lt hx
    have hbase : x.start ≤ x.base := Nat.le_add_right _ _
    have hstart := kernelVmemStart_eq
    have hlow : identityMapVmemEnd ≤ 2 ^ 47 := by decide
    have hpart := h.part hx hused
    rw [pageCount_eq (h.whole x hx hused)]
    simp only [pageSize]
    omega
  obtain ⟨owned', hun⟩ := h₀.paged.unmapPages rfl hcount (h₀.ownFrames hx hused) hpages
  have hheld : (k₂.unlocked .vmm k.cpu.interrupts).cpu.held = k.cpu.held := by
    show k₂.cpu.held.erase _ = _
    rw [heff.held, hpaging.held]
    simp [Kernel.locked]
  have hun' : Unmapped x.type k.sh.vmm.pagingStructure x.base (pageCount x.length) k
      (k₂.unlocked .vmm k.cpu.interrupts) owned owned' all :=
    hun.congr rfl rfl heff.paging (by rw [heff.eq]; rfl) hheld
  exact ⟨hb, hused, hmerge, hl, m, xs', owned', hr, h.release hx hused hr
    (h.toVmmState.unmapped hpages hr hi heff) hun'.vmm hun', hun'⟩

theorem Mapped.mapLow {first count : Nat} (hlow : first + count * pageSize ≤ 2 ^ 47)
    (hrun : (mapIdentityPages first count).run k = .ok () k') :
    ∃ owned', Mapped full g k' xs owned' all := by
  have heff := PagingEffect.of_run hrun
  unfold mapIdentityPages at hrun
  rw [run_get_bind] at hrun
  have hcount : count ≤ 2 ^ 36 := by
    simp only [pageSize] at hlow
    omega
  obtain ⟨owned', hset⟩ := h.paged.mapLoop hcount rfl (fun _ _ _ => rfl) hrun
  exact ⟨owned', h.setLow (h.toVmmState.paging heff) (by rw [heff.vmm]) hset.paged hset.frames
    (hset.kernelPage_of_low hlow)⟩

theorem Mapped.loadStep (hfit : a + n ≤ identityMapVmemEnd)
    (hrun : (loadIdentityMapPages a n p).run k = .ok () k') :
    ∃ owned', Mapped full g k' xs owned' all := by
  obtain ⟨hmod, hmap⟩ := run_loadIdentityMapPages_ok h.quiet hrun
  have hend := identityMapVmemEnd_eq
  refine h.mapLow ?_ hmap
  unfold addressPageCount
  split
  · rw [add64_eq (by omega), Nat.add_sub_cancel_left, pageCount_eq hmod,
      Nat.div_mul_cancel (Nat.dvd_of_mod_eq_zero hmod)]
    omega
  · omega

theorem Mapped.loaded (hin : pageSize ≤ a ∧ a < identityMapVmemEnd)
    (hrun : (mapIdentityPages (loadStart a) (loadCount a)).run k = .ok () k') :
    ∃ owned', Mapped full g k' xs owned' all := by
  have hend := identityMapVmemEnd_eq
  refine h.mapLow ?_ hrun
  rw [loadStart_eq hin, loadCount_eq hin]
  simp only [pageSize]
  omega

theorem Mapped.faultStep {e : Nat} (hg : g ∣ pageSize) (hrun : (pageFault a e).run k = .ok () k') :
    ∃ xs' owned', Mapped full g k' xs' owned' all := by
  obtain ⟨k₀, k₁, heff₀, hv₀, hsolved, heff₁, hleave⟩ := h.toVmmState.faultPhases hrun
  have h₀ : Mapped full g k₀ xs owned all := h.locks hv₀ heff₀
  obtain ⟨xs', owned', h₁⟩ : ∃ xs' owned', Mapped full g k₁ xs' owned' all := by
    cases hsolved with
    | loaded x hx hin htype hload =>
      have hpart := (h.layout.ok x hx).stop_le_low (h.low x hx htype)
      have hfirst := (h.layout.bounds hx).1
      obtain ⟨owned', h'⟩ := h₀.loaded (by omega) hload
      exact ⟨xs, owned', h'⟩
    | grown x hx hin htype hroom hgrows =>
      obtain ⟨xs', owned', -, h'⟩ := h₀.expand hg (by decide) hgrows
      exact ⟨xs', owned', h'⟩
  exact ⟨xs', owned', h₁.locks (hleave _ h₁.toVmmState) heff₁⟩

theorem Mapped.kheapInitStep (hg : g ∣ pageSize) (hk : k.sh.kheapInitialized = false)
    (hrun : kheapInit.run k = .ok () k') : ∃ xs' owned', Mapped full g k' xs' owned' all := by
  unfold kheapInit at hrun
  obtain ⟨p, k₂, halloc, hrun⟩ := run_bind_ok.1 hrun
  obtain ⟨_, k₃, hheap, hrun⟩ := run_bind_ok.1 hrun
  rw [run_modifyShared] at hrun
  cases hrun
  obtain ⟨xs', owned', h', hinit, u, hu, rfl, ha⟩ :=
    h.requestStep (r := kheapRequest) hg rfl (by decide)
      (Nat.mod_eq_zero_of_dvd (hg.trans (by decide))) halloc
  have hkeep := keeps_initializeHeapOn u.ptr hheap
  exact ⟨xs', owned', h'.congr (h'.toVmmState.startHeap hu (hinit.trans hk) ha hheap) (by rw [hkeep.eq])
    (by rw [hkeep.eq]) (by rw [hkeep.eq])⟩

theorem Mapped.step (hg : g ∣ pageSize) (hstep : MapStep full g k k') :
    ∃ xs' owned', Mapped full g k' xs' owned' all := by
  cases hstep with
  | identityMap hn hfit hrun => exact h.identityMapStep hg hn (by omega) hrun
  | memoryMap hn hrun =>
    have hlo : memoryMapPadding % g = 0 :=
      Nat.mod_eq_zero_of_dvd (hg.trans (Nat.dvd_mul_right pageSize 4))
    obtain ⟨xs', owned', h', -⟩ :=
      h.requestStep (r := .memoryMap _ _ _) hg trivial (Request.memoryMap_fits hn) hlo hrun
    exact ⟨xs', owned', h'⟩
  | allocate htype hn hlo hrun =>
    obtain ⟨xs', owned', h', -⟩ := h.requestStep (r := .allocate _ _ _ _) hg htype hn hlo hrun
    exact ⟨xs', owned', h'⟩
  | copy hn hfit hsrc hrun =>
    exact h.copyStep hg hn (by omega) hsrc.1 hsrc.2.1 hsrc.2.2 hrun
  | expandTop hp hrun => exact h.expandStep hg hp hrun
  | expandBottom hp hrun => exact h.expandStep hg hp hrun
  | deallocate hp hrun =>
    obtain ⟨x, hx, rfl⟩ := hp.exists_area h.vmm.list h.vmm.head
    obtain ⟨-, -, -, -, m, xs', owned', -, h', -⟩ := h.deallocateStep hx hrun
    exact ⟨xs', owned', h'⟩
  | load hfit hrun =>
    obtain ⟨owned', h'⟩ := h.loadStep hfit hrun
    exact ⟨xs, owned', h'⟩
  | fault hrun => exact h.faultStep hg hrun
  | kheapInit hk hrun => exact h.kheapInitStep hg hk hrun

end

/-! ## Runs -/

/-- The state `initialize_kernel_VMM` is called in, with a paging structure that maps nothing. -/
structure EmptySpace (k : Kernel) (ps : Nat) (owned all : List Nat) : Prop extends BeforeVmm k where
  paged : Paged k ps owned all
  empty : ∀ v, isEntryPresent (entryAt k.sh.pmem ps v) = false

theorem EmptySpace.mapped {full : Prop} {g ps : Nat} {k₀ k : Kernel} {owned all : List Nat}
    (h : EmptySpace k₀ ps owned all) (hinit : (initializeKernelVMM ps).run k₀ = .ok () k) :
    Mapped full g k (initialAreas k₀.sh.nextFreeDescriptor) owned all := by
  obtain ⟨hstate, hps, hpmem, hframes⟩ := initializeKernelVMM_ok h.toBeforeVmm hinit
  have hfree : ∀ x ∈ initialAreas k₀.sh.nextFreeDescriptor, isFreeType x.type = true := by
    simp [initialAreas, isFreeType]
  have hnone : ∀ q, ¬ UsedPage (initialAreas k₀.sh.nextFreeDescriptor) q := by
    rintro q ⟨x, hx, hused, -⟩
    rw [hfree x hx] at hused
    cases hused
  have habsent : ∀ q, ¬ isEntryPresent (k.pageEntry q) = true := by
    intro q
    rw [Kernel.pageEntry, hps, hpmem, h.empty]
    exact Bool.false_ne_true
  refine ⟨hstate, ?_, fun x hx hused => ?_, fun x hx hused => ?_,
    fun _ q => iff_of_false (habsent q) (hnone q), fun q hq => (habsent q hq).elim, fun q hq => ?_,
    fun q hq => ?_, fun q _ hq => ?_⟩
  · rw [hps]
    exact h.paged.congr hpmem hframes
  · rw [hfree x hx] at hused
    cases hused
  · rw [hfree x hx] at hused
    cases hused
  · exact (hnone q hq.used).elim
  · exact (hnone q hq.used).elim
  · exact (hnone q hq.used).elim

theorem mapped_of_run {full : Prop} {g ps : Nat} {k₀ k₁ k : Kernel} {owned all : List Nat} (hg : g ∣ pageSize)
    (h₀ : EmptySpace k₀ ps owned all) (hinit : (initializeKernelVMM ps).run k₀ = .ok () k₁)
    (hrun : ReflTransGen (MapStep full g) k₁ k) : ∃ xs owned', Mapped full g k xs owned' all :=
  @invariant_of_steps _ _ (fun k => ∃ xs owned', Mapped full g k xs owned' all)
    (fun _ _ hstep ⟨_, _, hk⟩ => hk.step hg hstep) _ _ hrun ⟨_, _, h₀.mapped hinit⟩

/-! ## Present pages -/

theorem getPhysicalAddress_present (m : Mem) (ps v : Nat) :
    (getPhysicalAddress m ps v).mmapPresent = isEntryPresent (entryAt m ps v) := by
  rw [getPhysicalAddress_eq]
  rfl

theorem Mapped.present_iff {k : Kernel} {xs : List Area} {owned all : List Nat} {v : Nat}
    (h : Mapped True pageSize k xs owned all) (hlo : kernelVmemStart ≤ v) (hhi : v < 2 ^ 64) :
    (getPhysicalAddress k.sh.pmem k.sh.vmm.pagingStructure v).mmapPresent = true ↔
      ∃ x ∈ xs, isFreeType x.type = false ∧ x.base ≤ v ∧ v < x.base + x.length := by
  have hpage : kernelVmemStart / pageSize ≤ v / pageSize ∧ v / pageSize < 2 ^ 52 := by
    refine ⟨Nat.div_le_div_right hlo, ?_⟩
    simp only [pageSize]
    omega
  rw [getPhysicalAddress_present, ← k.pageEntry_div]
  refine (h.backing.mapped_iff trivial ⟨v / pageSize, hpage⟩).trans ?_
  unfold UsedPage Area.HasPage InPages
  refine exists_congr fun x => and_congr_right fun hx => and_congr_right fun hused => ?_
  have h1 := h.granule x hx hused
  have h2 := h.whole x hx hused
  simp only [pageSize] at h1 h2 ⊢
  omega

/-- In every run from an empty paging structure in which no request wraps, a page of the kernel part
is present exactly if it lies between the paddings of an area in use. -/
theorem present_iff_of_run {k₀ k₁ k : Kernel} {ps : Nat} {owned all : List Nat}
    (h₀ : EmptySpace k₀ ps owned all) (hinit : (initializeKernelVMM ps).run k₀ = .ok () k₁)
    (hrun : ReflTransGen (MapStep True pageSize) k₁ k) :
    ∃ xs, AddressSpace k xs ∧ ∀ v, kernelVmemStart ≤ v → v < 2 ^ 64 →
      ((getPhysicalAddress k.sh.pmem k.sh.vmm.pagingStructure v).mmapPresent = true ↔
        ∃ x ∈ xs, isFreeType x.type = false ∧ x.base ≤ v ∧ v < x.base + x.length) := by
  obtain ⟨xs, owned', h⟩ := mapped_of_run (Nat.dvd_refl _) h₀ hinit hrun
  exact ⟨xs, h.addressSpace, fun v hlo hhi => h.present_iff hlo hhi⟩

theorem twoStructures_empty : EmptySpace twoStructures (5 * pageSize) [] startedFrames := by
  obtain ⟨htables, hin, hentry⟩ := twoStructures_tables (.inl rfl)
  refine ⟨twoStructures_before, ⟨htables, startedKernel_store, fun a ha => ?_⟩, fun v => ?_⟩
  · refine twoStructures_not_free ?_
    rcases (hin a).1 ha with rfl | rfl <;> decide
  · rw [hentry]
    rfl

def heapSpace : Kernel :=
  finalState ((allocateKernelVirtualMemory (2 * pageSize) .heap pageSize pageSize).run newSpace)

theorem heapSpace_run : (allocateKernelVirtualMemory (2 * pageSize) .heap pageSize pageSize).run
    newSpace = .ok (.early 1) heapSpace :=
  eq_of_returned (by decide +kernel)

theorem heapSpace_inVmList : InVmList heapSpace (.early 1) :=
  inVmList_of_nth (n := 1) (by decide +kernel) (by decide +kernel)

theorem heapSpace_area {xs : List Area} (h : AddressSpace heapSpace xs) :
    ∃ x ∈ xs, .early 1 = x.ptr ∧ x.type = .heap := by
  obtain ⟨x, hx, hp⟩ := heapSpace_inVmList.exists_area h.list h.head
  refine ⟨x, hx, hp, ?_⟩
  rw [← (h.list.fields hx).2.2.2.2, ← hp]
  decide +kernel

theorem present_iff_heapSpace : ∃ xs, AddressSpace heapSpace xs ∧
    ∀ v, kernelVmemStart ≤ v → v < 2 ^ 64 →
      ((getPhysicalAddress heapSpace.sh.pmem heapSpace.sh.vmm.pagingStructure v).mmapPresent = true ↔
        ∃ x ∈ xs, isFreeType x.type = false ∧ x.base ≤ v ∧ v < x.base + x.length) :=
  present_iff_of_run twoStructures_empty newSpace_run
    (.single (.allocate rfl (by decide) (by decide) heapSpace_run))

/-- A region of one page, and a second one with paddings of `2^64 - PAGE_SIZE` and one page: the
sum of its size and paddings wraps to one page, and its usable page is the one of the first region. -/
def firstRegion : Kernel :=
  finalState ((allocateKernelVirtualMemory pageSize .generalUse 0 0).run newSpace)

def wrappedRegion : Kernel :=
  finalState ((allocateKernelVirtualMemory pageSize .generalUse pageSize (2 ^ 64 - pageSize)).run
    firstRegion)

theorem firstRegion_run : (allocateKernelVirtualMemory pageSize .generalUse 0 0).run newSpace =
    .ok (.early 1) firstRegion :=
  eq_of_returned (by decide +kernel)

theorem wrappedRegion_run : (allocateKernelVirtualMemory pageSize .generalUse pageSize
    (2 ^ 64 - pageSize)).run firstRegion = .ok (.early 2) wrappedRegion :=
  eq_of_returned (by decide +kernel)

/-- Deallocating the second region unmaps the page of the first one. -/
theorem exists_absent_page : ∃ k₀ k₁ k₂ k₃ k : Kernel, EmptySpace k₀ (5 * pageSize) [] startedFrames ∧
    (initializeKernelVMM (5 * pageSize)).run k₀ = .ok () k₁ ∧
    (allocateKernelVirtualMemory pageSize .generalUse 0 0).run k₁ = .ok (.early 1) k₂ ∧
    (allocateKernelVirtualMemory pageSize .generalUse pageSize (2 ^ 64 - pageSize)).run k₂ =
      .ok (.early 2) k₃ ∧
    (deallocateKernelVirtualMemory (.early 2)).run k₃ = .ok true k ∧
    InVmList k (.early 1) ∧ (k.sh.descs (.early 1)).type = .generalUse ∧
    getNoPaddingStartAddr (k.sh.descs (.early 1)) = kernelVmemStart ∧
    getNoPaddingSize (k.sh.descs (.early 1)) = pageSize ∧
    (getPhysicalAddress k.sh.pmem k.sh.vmm.pagingStructure kernelVmemStart).mmapPresent = false := by
  have hrun : (deallocateKernelVirtualMemory (.early 2)).run wrappedRegion =
      .ok true (finalState ((deallocateKernelVirtualMemory (.early 2)).run wrappedRegion)) :=
    eq_of_returned (by decide +kernel)
  refine ⟨_, _, _, _, _, twoStructures_empty, newSpace_run, firstRegion_run, wrappedRegion_run, hrun,
    ?_, ?_, ?_, ?_, ?_⟩
  · exact inVmList_of_nth (n := 1) (by decide +kernel) (by decide +kernel)
  · decide +kernel
  · decide +kernel
  · decide +kernel
  · decide +kernel

/-! ## Frames of the regions -/

/-- The frame that `get_physical_address` reports for the page `i` of an area. -/
def Kernel.frameAt (k : Kernel) (x : Area) (i : Nat) : Nat :=
  (getPhysicalAddress k.sh.pmem k.sh.vmm.pagingStructure (nthPage x.base i)).paddr

/-- The pages of heaps, stacks and general regions have frames of their own. -/
structure OwnBacking (k : Kernel) (xs : List Area) (owned : List Nat) : Prop where
  present : ∀ x ∈ xs, x.type.isBacked = true → ∀ i < x.length / pageSize,
    (getPhysicalAddress k.sh.pmem k.sh.vmm.pagingStructure (nthPage x.base i)).mmapPresent = true
  given : ∀ x ∈ xs, x.type.isBacked = true → ∀ i < x.length / pageSize, k.frameAt x i ∈ owned
  noTable : ∀ x ∈ xs, x.type.isBacked = true → ∀ i < x.length / pageSize,
    ¬ InStructure k.sh.pmem k.sh.vmm.pagingStructure (k.frameAt x i)
  distinct : ∀ x ∈ xs, x.type.isBacked = true → ∀ y ∈ xs, y.type.isBacked = true →
    ∀ i < x.length / pageSize, ∀ j < y.length / pageSize, k.frameAt x i = k.frameAt y j →
      x = y ∧ i = j

section

variable {full : Prop} {g : Nat} {k k' : Kernel} {xs : List Area} {x : Area} {owned all : List Nat}
  {b : Bool} (h : Mapped full g k xs owned all)

include h

theorem Mapped.backed_page (hx : x ∈ xs) (hb : x.type.isBacked = true) {i : Nat}
    (hi : i < x.length / pageSize) : ∃ q : KernelPage,
      q = x.base / pageSize + i ∧ x.HasPage q ∧ BackedPage xs q ∧
      k.frameAt x i = frameOf (k.pageEntry q) ∧
      entryAt k.sh.pmem k.sh.vmm.pagingStructure (nthPage x.base i) = k.pageEntry q := by
  have hused := isFreeType_of_isBacked hb
  obtain ⟨q, hq, hin, he⟩ := h.exists_page hx hused (h.backed_high hx hb)
    (by rwa [pageCount_eq (h.whole x hx hused)])
  have hback : BackedPage xs q := ⟨x, hx, hb, hin⟩
  refine ⟨q, hq, hin, hback, ?_, he⟩
  rw [← he]
  refine h.paged.paddr_eq ?_
  rw [he]
  exact (h.backing.owned q hback).1

theorem Mapped.ownBacking : OwnBacking k xs owned where
  present x hx hb i hi := by
    have hused := isFreeType_of_isBacked hb
    obtain ⟨q, -, -, hback, -, he⟩ := h.backed_page hx hb hi
    rw [getPhysicalAddress_present, he]
    exact h.backing.mapped q hback
  given x hx hb i hi := by
    obtain ⟨q, -, -, hback, hf, -⟩ := h.backed_page hx hb hi
    rw [hf]
    exact (h.backing.owned q hback).1
  noTable x hx hb i hi := by
    obtain ⟨q, -, -, hback, hf, -⟩ := h.backed_page hx hb hi
    rw [hf]
    exact (h.backing.owned q hback).2
  distinct x hx hbx y hy hby i hi j hj he := by
    obtain ⟨q, hq, hxq, hbq, hfq, -⟩ := h.backed_page hx hbx hi
    obtain ⟨r, hr, hyr, hbr, hfr, -⟩ := h.backed_page hy hby hj
    rw [hfq, hfr] at he
    obtain rfl := h.backing.distinct q r hbq hbr he
    obtain rfl := h.layout.page_area_eq hx hy hxq hyr
    exact ⟨rfl, by omega⟩

theorem Mapped.deallocate_freed (hx : x ∈ xs) (hb : x.type.isBacked = true)
    (hrun : (deallocateKernelVirtualMemory x.ptr).run k = .ok b k') :
    ∃ freed, k'.cpu.freed = freed ++ k.cpu.freed ∧
      freed.Perm ((List.range (x.length / pageSize)).map (k.frameAt x)) := by
  obtain ⟨-, hused, -, -, m, xs', owned', -, -, hun⟩ := h.deallocateStep hx hrun
  refine ⟨_, hun.freed, (List.reverse_perm _).trans (.of_eq ?_)⟩
  rw [freedBefore, pageCount_eq (h.whole x hx hused), List.map_eq_flatMap]
  refine List.flatMap_congr fun i hi => ?_
  obtain ⟨q, -, -, hback, hf, he⟩ := h.backed_page hx hb (List.mem_range.1 hi)
  rw [he, hf, freedBy, if_pos ⟨hb, h.backing.mapped q hback⟩]

end

/-- In every run in which no request wraps, the frames of the regions are given out, are no tables
and are not shared, and deallocation passes each frame of the region to `dealloc_frame` once. -/
theorem frames_of_run {k₀ k₁ k : Kernel} {ps : Nat} {owned all : List Nat}
    (h₀ : EmptySpace k₀ ps owned all) (hinit : (initializeKernelVMM ps).run k₀ = .ok () k₁)
    (hrun : ReflTransGen (MapStep False 1) k₁ k) :
    ∃ xs owned', AddressSpace k xs ∧ FrameStore k.sh.frames owned' all ∧ OwnBacking k xs owned' ∧
      ∀ x ∈ xs, x.type.isBacked = true → ∀ b k', (deallocateKernelVirtualMemory x.ptr).run k = .ok b k' →
        ∃ freed, k'.cpu.freed = freed ++ k.cpu.freed ∧
          freed.Perm ((List.range (x.length / pageSize)).map (k.frameAt x)) := by
  obtain ⟨xs, owned', h⟩ := mapped_of_run (Nat.one_dvd _) h₀ hinit hrun
  exact ⟨xs, owned', h.addressSpace, h.paged.store, h.ownBacking,
    fun x hx hb b k' hrun => h.deallocate_freed hx hb hrun⟩

theorem frames_heapSpace : ∃ xs owned' x k' freed, AddressSpace heapSpace xs ∧
    FrameStore heapSpace.sh.frames owned' startedFrames ∧ OwnBacking heapSpace xs owned' ∧ x ∈ xs ∧
    (deallocateKernelVirtualMemory x.ptr).run heapSpace = .ok true k' ∧
    k'.cpu.freed = freed ++ heapSpace.cpu.freed ∧
    freed.Perm ((List.range (x.length / pageSize)).map (heapSpace.frameAt x)) := by
  obtain ⟨xs, owned', h, hstore, hown, hfreed⟩ := frames_of_run twoStructures_empty newSpace_run
    (.single (.allocate rfl (by decide) (by decide) heapSpace_run))
  obtain ⟨x, hx, hp, htype⟩ := heapSpace_area h
  obtain ⟨k', hrun⟩ : ∃ k', (deallocateKernelVirtualMemory x.ptr).run heapSpace = .ok true k' := by
    rw [← hp]
    exact ⟨_, eq_of_returned (by decide +kernel)⟩
  obtain ⟨freed, hfreed⟩ := hfreed x hx (by rw [htype]; rfl) _ _ hrun
  exact ⟨xs, owned', x, k', freed, h, hstore, hown, hx, hrun, hfreed⟩

/-- The page of the second region is that of the first one, and its frame takes the place of the
first region's: deallocating the first region gives back the frame of the second. -/
theorem exists_lost_frame : ∃ k₀ k₁ k₂ k₃ k : Kernel, EmptySpace k₀ (5 * pageSize) [] startedFrames ∧
    (initializeKernelVMM (5 * pageSize)).run k₀ = .ok () k₁ ∧
    (allocateKernelVirtualMemory pageSize .generalUse 0 0).run k₁ = .ok (.early 1) k₂ ∧
    (getPhysicalAddress k₂.sh.pmem k₂.sh.vmm.pagingStructure
      (getNoPaddingStartAddr (k₂.sh.descs (.early 1)))).paddr = MB + 2 * pageSize ∧
    (allocateKernelVirtualMemory pageSize .generalUse pageSize (2 ^ 64 - pageSize)).run k₂ =
      .ok (.early 2) k₃ ∧
    (deallocateKernelVirtualMemory (.early 1)).run k₃ = .ok true k ∧
    k₃.cpu.freed = [] ∧ k.cpu.freed = [MB + 6 * pageSize] := by
  have hrun : (deallocateKernelVirtualMemory (.early 1)).run wrappedRegion =
      .ok true (finalState ((deallocateKernelVirtualMemory (.early 1)).run wrappedRegion)) :=
    eq_of_returned (by decide +kernel)
  exact ⟨_, _, _, _, _, twoStructures_empty, newSpace_run, firstRegion_run, by decide +kernel,
    wrappedRegion_run, hrun, by decide +kernel, by decide +kernel⟩

end GarbageOS
