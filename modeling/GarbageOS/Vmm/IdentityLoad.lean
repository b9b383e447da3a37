import GarbageOS.Vmm.MapRuns

/-!
# Loading identity mapped pages

A fault in an identity mapping maps 17 pages to themselves, from eight bytes before the
faulting address on. The window stays inside the mapping exactly if the address is not in the
first eight bytes and the mapping goes on for 16 more pages behind the window's start.
-/

namespace GarbageOS

open Lib Relation

/-- The page with number `q` is mapped to itself. -/
def Kernel.MapsToItself (k : Kernel) (q : Nat) : Prop :=
  (getPhysicalAddress k.sh.pmem k.sh.vmm.pagingStructure (q * pageSize)).mmapPresent = true ∧
    (getPhysicalAddress k.sh.pmem k.sh.vmm.pagingStructure (q * pageSize)).paddr = q * pageSize

/-- What the handler is meant to have done for a fault at `a` in the area `x`: the page of `a` is
mapped to itself, and so is every page whose entry was written, all of them pages of the area. -/
structure LoadsExactly (x : Area) (a : Nat) (k k' : Kernel) : Prop where
  faulting : k'.MapsToItself (a / pageSize)
  written : ∃ pages : List Nat, writtenPages k' = pages.reverse ++ writtenPages k ∧
    (∀ q ∈ pages, x.start ≤ q * pageSize ∧ (q + 1) * pageSize ≤ x.stop ∧ k'.MapsToItself q) ∧
    ∀ v, (∀ q ∈ pages, ¬ SamePage (q * pageSize) v) →
      entryAt k'.sh.pmem k'.sh.vmm.pagingStructure v = entryAt k.sh.pmem k.sh.vmm.pagingStructure v

section

variable {k k' : Kernel} {xs : List Area} {x : Area} {info : PageFaultInfo}
  {owned owned' all freed : List Nat} {a q : Nat}

/-! ## The window -/

theorem mapEntry_page (p flags : Nat) : mapEntry p flags = mapEntry (p / pageSize * pageSize) flags := by
  rw [mapEntry_eq, mapEntry_eq]
  simp only [pageSize]
  omega

theorem Kernel.mapsToItself_of_entry {flags : Nat} (hq : q < 2 ^ 35)
    (h : entryAt k.sh.pmem k.sh.vmm.pagingStructure (q * pageSize) = mapEntry (q * pageSize) flags) :
    k.MapsToItself q := by
  have hframe : IsFrame (q * pageSize) := by
    refine ⟨Nat.mul_mod_left _ _, ?_⟩
    simp only [pageSize]
    omega
  have hlow : canonicalPaddr (q * pageSize) = q * pageSize := by
    refine (canonicalPaddr_eq_iff hframe).2 ?_
    simp only [pageSize]
    omega
  have heq : getPhysicalAddress k.sh.pmem k.sh.vmm.pagingStructure (q * pageSize) =
      ⟨q * pageSize, (flags ||| pagePresent) &&& 0xfff, true⟩ := by
    rw [getPhysicalAddress_eq]
    refine (congrArg PagingMapState.ofEntry h).trans ?_
    rw [ofEntry_mapEntry hframe, hlow]
  unfold Kernel.MapsToItself
  rw [heq]
  exact ⟨rfl, rfl⟩

def loadedWindow (a : Nat) : List Nat :=
  (List.range 17).map fun i => (a - 8) / pageSize + i

theorem mem_loadedWindow : q ∈ loadedWindow a ↔
    (a - 8) / pageSize ≤ q ∧ q < (a - 8) / pageSize + 17 := by
  unfold loadedWindow
  rw [List.mem_map]
  constructor
  · rintro ⟨i, hi, rfl⟩
    rw [List.mem_range] at hi
    omega
  · rintro ⟨h1, h2⟩
    exact ⟨q - (a - 8) / pageSize, List.mem_range.2 (by omega), by omega⟩

theorem Paged.load (h : Paged k k.sh.vmm.pagingStructure owned all)
    (hin : pageSize ≤ a ∧ a < identityMapVmemEnd)
    (hrun : (mapIdentityPages (loadStart a) (loadCount a)).run k = .ok () k') :
    writtenPages k' = (loadedWindow a).reverse ++ writtenPages k ∧
      (∀ q ∈ loadedWindow a, k'.MapsToItself q) ∧
      ∀ v, (∀ q ∈ loadedWindow a, ¬ SamePage (q * pageSize) v) →
        entryAt k'.sh.pmem k'.sh.vmm.pagingStructure v =
          entryAt k.sh.pmem k.sh.vmm.pagingStructure v := by
  have hend := identityMapVmemEnd_eq
  have hpage : pageSize = 4096 := rfl
  have hps : k'.sh.vmm.pagingStructure = k.sh.vmm.pagingStructure := by
    rw [(PagingEffect.of_run hrun).vmm]
  rw [loadStart_eq hin, loadCount_eq hin] at hrun
  -- the page of each round
  have hround : ∀ i < 17, nthPage (a - 8) i / pageSize = (a - 8) / pageSize + i := by
    intro i hi
    unfold nthPage add64
    simp only [pageSize]
    omega
  have hsame : ∀ i < 17, SamePage (nthPage (a - 8) i) (((a - 8) / pageSize + i) * pageSize) := by
    intro i hi
    unfold SamePage
    rw [hround i hi, Nat.mul_div_cancel _ (by decide)]
  have hwrites := writes_mapIdentityPages _ _ hrun
  unfold mapIdentityPages at hrun
  rw [run_get_bind] at hrun
  obtain ⟨owned', hset⟩ := h.mapLoop (by decide) rfl (fun _ _ _ => rfl) hrun
  refine ⟨?_, fun q hq => ?_, fun v hv => ?_⟩
  · rw [hwrites]
    congr 2
    exact List.map_congr_left fun i hi => hround i (List.mem_range.1 hi)
  · obtain ⟨h1, h2⟩ := mem_loadedWindow.1 hq
    have hi : q - (a - 8) / pageSize < 17 := by omega
    have hq' : (a - 8) / pageSize + (q - (a - 8) / pageSize) = q := by omega
    have hsmall : q < 2 ^ 35 := by
      simp only [pageSize] at h2
      omega
    have he := hset.entry _ hi
    rw [entryAt_congr (hsame _ hi), mapEntry_page, hround _ hi, hq'] at he
    refine Kernel.mapsToItself_of_entry hsmall (?_ : _ = mapEntry _ (pageWritable ||| pagePresent))
    rw [hps]
    exact he
  · rw [hps]
    refine hset.same v fun i hi hs => hv ((a - 8) / pageSize + i) ?_ ?_
    · exact mem_loadedWindow.2 ⟨by omega, by omega⟩
    · exact (hsame i hi).symm.trans hs

/-! ## When the handler returns -/

theorem identityLoad_returns (hi : VmmInv k xs) (hx : x ∈ xs) (htype : x.type = .identityMap)
    (hp : info.faultVmem = x.ptr) (hpresent : info.pageNotPresent = true)
    (hin : pageSize ≤ info.faultAddress ∧ info.faultAddress < identityMapVmemEnd)
    (hframes : FramesLeft (17 * 3) k) :
    ∃ k', (mapIdentityPages (loadStart info.faultAddress) (loadCount info.faultAddress)).run k =
        .ok () k' ∧ (pageFaultCheckIdentityMapLoad info).run k = .ok true k' := by
  have hne := hi.vmm.list.ptr_ne_null hx
  obtain ⟨_, k', hload⟩ := (within_mapIdentityPages (loadStart info.faultAddress) 17).returns hframes
  rw [← loadCount_eq hin] at hload
  have hq := (hi.paging (PagingEffect.of_run hload)).quiet
  refine ⟨k', hload, ?_⟩
  unfold pageFaultCheckIdentityMapLoad getVmemType
  rw [if_neg (by simp [isVmemhandleInvalid, hp, hne]), bind_assoc, run_readDesc_bind, pure_bind,
    hp, (hi.vmm.list.fields hx).2.2.2.2, if_pos (by simp [htype, hpresent])]
  exact ⟨hne, run_bind_ok.2 ⟨(), k', hload, run_bind_ok.2 ⟨(), k',
    shootdownRange_uninitialized hq, rfl⟩⟩⟩

end

/-- The faults in an identity mapping that load nothing but pages of the mapping. -/
theorem identityLoad_exact_iff {k : Kernel} {xs : List Area} {x : Area} {owned all : List Nat}
    {info : PageFaultInfo} (h : VmmState k xs) (hpaged : Paged k k.sh.vmm.pagingStructure owned all)
    (hframes : FramesLeft (17 * 3) k) (hx : x ∈ xs) (htype : x.type = .identityMap)
    (hp : info.faultVmem = x.ptr) (hpresent : info.pageNotPresent = true)
    (hin : x.start ≤ info.faultAddress ∧ info.faultAddress < x.stop) :
    (∃ k', (pageFaultCheckIdentityMapLoad info).run k = .ok true k' ∧
      LoadsExactly x info.faultAddress k k') ↔
    x.start + pageFaultAdditionalPageLoad / 2 ≤ info.faultAddress ∧
      info.faultAddress + pageFaultAdditionalPageLoad * pageSize <
        x.stop + pageFaultAdditionalPageLoad / 2 := by
  have hok := h.layout.ok x hx
  have hlow := hok.stop_le_low (h.low x hx htype)
  have hfirst := (h.layout.bounds hx).1
  have hpart : pageSize ≤ info.faultAddress ∧ info.faultAddress < identityMapVmemEnd := by omega
  obtain ⟨k', hload, hrun⟩ := identityLoad_returns h.toVmmInv hx htype hp hpresent hpart hframes
  obtain ⟨hwritten, hself, hrest⟩ := hpaged.load hpart hload
  -- the first and the last page of the window decide
  have hwindow : (∀ q ∈ loadedWindow info.faultAddress, x.start ≤ q * pageSize ∧
      (q + 1) * pageSize ≤ x.stop) ↔ x.start + 8 ≤ info.faultAddress ∧
        info.faultAddress + 16 * pageSize < x.stop + 8 := by
    have hstart := hok.start_aligned
    have hsize := hok.size_aligned
    simp only [mem_loadedWindow, Area.stop]
    unfold Area.stop at hin
    simp only [pageSize] at hstart hsize hpart hfirst ⊢
    constructor
    · intro hall
      have hone := hall ((info.faultAddress - 8) / 4096)
      have hlast := hall ((info.faultAddress - 8) / 4096 + 16)
      omega
    · intro hcond q hq
      omega
  refine Iff.trans ?_ hwindow
  constructor
  · rintro ⟨t, hrun', hexact⟩
    rw [hrun] at hrun'
    cases hrun'
    obtain ⟨pages, hpages, hinside, -⟩ := hexact.written
    rw [hwritten] at hpages
    obtain rfl := List.reverse_injective (List.append_cancel_right hpages)
    exact fun q hq => ⟨(hinside q hq).1, (hinside q hq).2.1⟩
  · intro hinside
    refine ⟨k', hrun, hself _ ?_, _, hwritten, fun q hq => ?_, hrest⟩
    · rw [mem_loadedWindow]
      simp only [pageSize] at hpart ⊢
      omega
    · exact ⟨(hinside q hq).1, (hinside q hq).2, hself q hq⟩

theorem lowSpace_mapped : ∃ xs owned, Mapped False 1 lowSpace xs owned startedFrames :=
  mapped_of_run (Nat.one_dvd _) twoStructures_empty newSpace_run
    (.single (.identityMap (by decide) (by decide) lowSpace_run))

theorem lowSpace_inVmList : InVmList lowSpace (.early 0) :=
  inVmList_of_nth (n := 0) (by decide +kernel) (by decide +kernel)

theorem lowSpace_area : ∃ xs x owned, Mapped False 1 lowSpace xs owned startedFrames ∧ x ∈ xs ∧
    x.ptr = .early 0 ∧ x.type = .identityMap ∧ x.start = pageSize ∧ x.stop = 41 * pageSize := by
  obtain ⟨xs, owned, h⟩ := lowSpace_mapped
  obtain ⟨x, hx, hp⟩ := lowSpace_inVmList.exists_area h.vmm.list h.vmm.head
  obtain ⟨hstart, -, -, -, htype⟩ := h.vmm.list.fields hx
  have hstop := h.layout.endVaddr h.vmm.list hx
  rw [← hp] at hstart hstop htype
  exact ⟨xs, x, owned, h, hx, hp.symm, htype.symm.trans (by decide +kernel),
    hstart.symm.trans (by decide +kernel), hstop.symm.trans (by decide +kernel)⟩

theorem identityLoad_exact_lowSpace : ∃ xs x k', VmmState lowSpace xs ∧ x ∈ xs ∧
    (pageFaultCheckIdentityMapLoad ⟨20 * pageSize, .early 0, true⟩).run lowSpace = .ok true k' ∧
    LoadsExactly x (20 * pageSize) lowSpace k' := by
  obtain ⟨xs, x, owned, h, hx, hp, htype, hstart, hstop⟩ := lowSpace_area
  have hframes : FramesLeft (17 * 3) lowSpace := ⟨by decide +kernel, by decide +kernel⟩
  obtain ⟨k', hrun, hexact⟩ := (@identityLoad_exact_iff _ _ _ _ _ ⟨20 * pageSize, .early 0, true⟩
    h.toVmmState h.paged hframes hx htype hp.symm rfl (by rw [hstart, hstop]; decide)).2
    (by rw [hstart, hstop]; decide)
  exact ⟨xs, x, k', h.toVmmState, hx, hrun, hexact⟩

/-- A fault at the first page of the mapping maps page 0. -/
theorem exists_page_zero_mapped : ∃ (k k' : Kernel) (xs : List Area) (x : Area) (owned : List Nat),
    VmmState k xs ∧ Paged k k.sh.vmm.pagingStructure owned startedFrames ∧ FramesLeft (17 * 3) k ∧
    (x ∈ xs ∧ x.type = .identityMap ∧ x.start ≤ pageSize ∧ pageSize < x.stop) ∧
    (getPhysicalAddress k.sh.pmem k.sh.vmm.pagingStructure pageSize).mmapPresent = false ∧
    (getPhysicalAddress k.sh.pmem k.sh.vmm.pagingStructure 0).mmapPresent = false ∧
    (pageFaultCheckIdentityMapLoad ⟨pageSize, x.ptr, true⟩).run k = .ok true k' ∧
    (getPhysicalAddress k'.sh.pmem k'.sh.vmm.pagingStructure 0).mmapPresent = true := by
  obtain ⟨xs, x, owned, h, hx, hp, htype, hstart, hstop⟩ := lowSpace_area
  have hrun : (pageFaultCheckIdentityMapLoad ⟨pageSize, .early 0, true⟩).run lowSpace = .ok true
      (finalState ((pageFaultCheckIdentityMapLoad ⟨pageSize, .early 0, true⟩).run lowSpace)) :=
    eq_of_returned (by decide +kernel)
  refine ⟨lowSpace, _, xs, x, owned, h.toVmmState, h.paged, ⟨by decide +kernel, by decide +kernel⟩,
    ⟨hx, htype, by rw [hstart], by rw [hstop]; decide⟩, by decide +kernel, by decide +kernel,
    by rw [hp]; exact hrun, by decide +kernel⟩

end GarbageOS
