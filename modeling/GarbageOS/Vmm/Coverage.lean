import GarbageOS.Vmm.Handed

/-!
# Which calls hand on the pages they wrote

For each operation that writes page table entries: when the range it hands to the shootdown
subsystem covers exactly the pages it wrote.
-/

namespace GarbageOS

open Lib Function

/-! ## The size of a new region

No invariant of the list is needed: if the descriptor for the rest of the area were the one that
is cut, the assertion at the end of `cut_descriptor_start` would fail. -/

/-- Every descriptor starts where it did and has the size it had. -/
def SameExtents (k k' : Kernel) : Prop :=
  ∀ p, (k'.sh.descs p).startVaddr = (k.sh.descs p).startVaddr ∧
    (k'.sh.descs p).sizeBytes = (k.sh.descs p).sizeBytes

instance : IsPreorder Kernel SameExtents where
  refl _ _ := ⟨rfl, rfl⟩
  trans _ _ _ h₁ h₂ p := ⟨(h₂ p).1.trans (h₁ p).1, (h₂ p).2.trans (h₁ p).2⟩

def Kernel.WordSizes (k : Kernel) : Prop := ∀ p, InVmList k p → (k.sh.descs p).sizeBytes < 2 ^ 64

section

variable {k k' : Kernel} {p q new oldPrev oldNext : DescPtr} {size up lo : Nat} {u : Unit}
  {type : VirtualMemoryType}

theorem modifyDesc_extents {f : VirtualMemoryDescriptor → VirtualMemoryDescriptor}
    (h : (modifyDesc p f).run k = .ok u k')
    (hf : ∀ d, (f d).startVaddr = d.startVaddr ∧ (f d).sizeBytes = d.sizeBytes) :
    SameExtents k k' := by
  intro x
  obtain ⟨-, rfl⟩ := run_modifyDesc_ok.1 h
  rw [Kernel.setDesc_descs, update_apply]
  split
  · next he =>
    subst he
    exact hf _
  · exact ⟨rfl, rfl⟩

theorem modifyDescIf_extents {f : VirtualMemoryDescriptor → VirtualMemoryDescriptor}
    (h : (modifyDescIf p f).run k = .ok u k')
    (hf : ∀ d, (f d).startVaddr = d.startVaddr ∧ (f d).sizeBytes = d.sizeBytes) :
    SameExtents k k' :=
  Keeps.onlyIf (fun _ _ _ _ h => modifyDesc_extents h hf) h

theorem allocateVmemDescriptor_extents (hheld : .vmm ∈ k.cpu.held)
    (h : allocateVmemDescriptor.run k = .ok p k') : SameExtents k k' := by
  unfold allocateVmemDescriptor isKheapInitialized at h
  rw [run_gets_bind] at h
  split at h
  · obtain ⟨a, k₁, hmalloc, h⟩ := run_bind_ok.1 h
    obtain ⟨_, k₂, hinit, h⟩ := run_bind_ok.1 h
    cases h
    have hdescs : k₁.sh.descs = k.sh.descs := by rw [(kmalloc_heapEffect hmalloc hheld).eq]
    have hext := modifyDesc_extents hinit fun _ => ⟨rfl, rfl⟩
    unfold SameExtents at hext ⊢
    rwa [hdescs] at hext
  · rw [run_get_bind, run_check_bind, run_modifyShared_bind] at h
    obtain ⟨_, k₂, hinit, h⟩ := run_bind_ok.1 h.2
    cases h
    have hext := modifyDesc_extents hinit fun _ => ⟨rfl, rfl⟩
    exact hext

/-- `linkAfter` moves nothing and asserts that the new descriptor starts where the other one ends. -/
theorem linkAfter_extents (h : (linkAfter oldPrev p new oldNext).run k = .ok u k') :
    SameExtents k k' ∧ (k.sh.descs p).endVaddr = (k.sh.descs new).startVaddr := by
  unfold linkAfter at h
  obtain ⟨_, k₁, h₁, h⟩ := run_bind_ok.1 h
  obtain ⟨_, k₂, h₂, h⟩ := run_bind_ok.1 h
  obtain ⟨_, k₃, h₃, h⟩ := run_bind_ok.1 h
  obtain ⟨_, k₄, h₄, h⟩ := run_bind_ok.1 h
  have h₁ := modifyDescIf_extents h₁ fun _ => ⟨rfl, rfl⟩
  have h₂ := modifyDesc_extents h₂ fun _ => ⟨rfl, rfl⟩
  have h₃ := modifyDesc_extents h₃ fun _ => ⟨rfl, rfl⟩
  have h₄ := modifyDescIf_extents h₄ fun _ => ⟨rfl, rfl⟩
  have hlinked : SameExtents k k₄ :=
    trans_of SameExtents h₁ (trans_of SameExtents h₂ (trans_of SameExtents h₃ h₄))
  rw [run_readDesc_bind, run_readDesc_bind, run_kassert_bind] at h
  obtain ⟨-, -, hends, hhead⟩ := h
  refine ⟨trans_of SameExtents hlinked (keeps_updateHeadFrom (fun _ _ _ => ⟨rfl, rfl⟩) _ hhead), ?_⟩
  rw [beq_iff_eq, VirtualMemoryDescriptor.endVaddr, (hlinked p).1, (hlinked p).2,
    (hlinked new).1] at hends
  exact hends

theorem cutDescriptorStart_sizeBytes (hheld : .vmm ∈ k.cpu.held)
    (hword : (k.sh.descs p).sizeBytes < 2 ^ 64) (h : (cutDescriptorStart p size).run k = .ok q k') :
    q = p ∧ (k'.sh.descs p).sizeBytes = size := by
  unfold cutDescriptorStart at h
  rw [run_readDesc_bind, run_kassert_bind, run_kassert_bind, run_kassert_bind,
    run_kassert_bind] at h
  obtain ⟨-, -, hle, -, -, h⟩ := h
  have hle : size ≤ (k.sh.descs p).sizeBytes := of_decide_eq_true hle
  split at h
  · next heq =>
    cases h
    exact ⟨rfl, heq⟩
  · next hne =>
    obtain ⟨new, k₁, halloc, h⟩ := run_bind_ok.1 h
    have hext := allocateVmemDescriptor_extents hheld halloc
    rw [run_readDesc_bind, run_modifyDesc_bind, run_readDesc_bind, run_modifyDesc_bind] at h
    obtain ⟨-, -, -, -, h⟩ := h
    obtain ⟨_, k₂, hlink, h⟩ := run_bind_ok.1 h
    cases h
    obtain ⟨hkept, hends⟩ := linkAfter_extents hlink
    refine ⟨rfl, (hkept p).2.trans ?_⟩
    rcases eq_or_ne p new with rfl | hpn
    · -- a descriptor that is its own rest would have to end where it starts
      exfalso
      simp only [Kernel.setDesc_descs, update_self, VirtualMemoryDescriptor.endVaddr,
        (hext p).2] at hends
      rw [sub64_eq hle hword] at hends
      unfold add64 at hends
      omega
    · simp only [Kernel.setDesc_descs, update_of_ne hpn, update_self]

theorem InVmList.congr (h : InVmList k p) (hsh : k'.sh = k.sh) : InVmList k' p := by
  induction h with
  | head hne => exact hsh ▸ .head (hsh ▸ hne)
  | next _ hne ih => exact hsh ▸ .next ih (hsh ▸ hne)

theorem findDescriptor_inVmList {test : VirtualMemoryDescriptor → Bool} {steps : Nat}
    (hp : InVmList k p) (h : (findDescriptor test steps p).run k = .ok q k') : InVmList k q := by
  induction steps generalizing p with
  | zero => exact (run_throw_ok.1 h).elim
  | succ steps ih =>
    unfold findDescriptor at h
    obtain ⟨-, h⟩ := run_readDesc_bind.1 h
    split at h
    · cases h
      exact hp
    · next hgo => exact ih (.next hp fun hnull => hgo (.inl hnull)) h

theorem findFromHead_inVmList {test : VirtualMemoryDescriptor → Bool}
    (h : (findFromHead test).run k = .ok q k') : InVmList k q := by
  unfold findFromHead at h
  rw [run_get_bind] at h
  have hhead : k.sh.vmm.vmListHead ≠ .null := by
    unfold findDescriptor at h
    exact (run_readDesc_bind.1 h).1
  exact findDescriptor_inVmList (.head hhead) h

theorem cutRegion_extent (hheld : .vmm ∈ k.cpu.held) (hword : k.WordSizes)
    (h : (cutRegion size type up lo).run k = .ok p k') :
    (k'.sh.descs p).sizeBytes = size ∧ (k'.sh.descs p).lowerPadding = lo ∧
      (k'.sh.descs p).upperPadding = up := by
  unfold cutRegion at h
  obtain ⟨q, t, hfind, h⟩ := run_bind_ok.1 h
  obtain rfl : k = t := Kept.keeps (R := Eq) hfind
  rw [run_readDesc_bind, run_check_bind] at h
  obtain ⟨-, -, h⟩ := h
  obtain ⟨c, k₁, hcut, hedit⟩ := run_bind_ok.1 h
  obtain ⟨rfl, hsize⟩ :=
    cutDescriptorStart_sizeBytes hheld (hword q (findFromHead_inVmList hfind)) hcut
  rw [run_modifyDesc_bind, run_readDesc_bind, run_kassert_bind, run_modifyDesc_bind] at hedit
  obtain ⟨-, -, -, -, hedit⟩ := hedit
  cases hedit
  simp [hsize]

theorem usable_eq (hsize : size < 2 ^ 64) (up lo : Nat) :
    sub64 (sub64 (add64 size (add64 lo up)) up) lo = size := by
  unfold sub64 add64
  omega

end

/-! ## The operations -/

section

variable {k k' : Kernel} {p : VMemHandle} {size : Nat} {b : Bool} {u : Unit}

set_option synthInstance.maxSize 1000000 in
theorem identityMap_handsExactly {paddr : Nat} (h : (identityMap paddr size).run k = .ok p k') :
    HandsExactly k k' := by
  unfold identityMap at h
  rw [run_kassert_bind, run_kassert_bind, run_kassert_bind] at h
  exact (LockedEffect.withLock h.2.2.2).sameLogs.handsExactly

/-- The range starts at the first page, but where the end of the memory wraps around the loop
does nothing. -/
theorem loadIdentityMapPages_handsExactly_iff {paddr : Nat} {handle : VMemHandle} (hq : k.sh.queueArray ≠ 0)
    (hpaddr : paddr < 2 ^ 64) (hsize : size < 2 ^ 64)
    (h : (loadIdentityMapPages paddr size handle).run k = .ok u k') :
    HandsExactly k k' ↔ paddr + size < 2 ^ 64 := by
  unfold loadIdentityMapPages at h
  rw [run_kassert_bind, run_kassert_bind, run_kassert_bind] at h
  obtain ⟨-, hmod, -, h⟩ := h
  obtain ⟨_, k₁, hlock, h⟩ := run_bind_ok.1 h
  have hdesc := LockedEffect.withLock hlock
  obtain ⟨_, k₂, hmap, hshoot⟩ := run_bind_ok.1 h
  have heff := PagingEffect.of_run hmap
  have hwritten : Logs k₁ k₂ [] (loopPages paddr (addressPageCount paddr (add64 paddr size))) :=
    heff.logs (writes_mapIdentityPages _ _ hmap)
  obtain ⟨hmod, hshot⟩ := shootdown_logs (by rw [heff.queueArray, hdesc.quiet]; exact hq) hshoot
  have hlogs := Logs.before hdesc.sameLogs (hwritten.trans hshot)
  rw [List.append_nil, List.nil_append] at hlogs
  by_cases hfit : paddr + size < 2 ^ 64
  · have hcount : addressPageCount paddr (add64 paddr size) = size / pageSize := by
      rw [add64_eq hfit, addressPageCount]
      split
      · rw [Nat.add_sub_cancel_left, pageCount_eq hmod]
      · rw [show size = 0 by omega, Nat.zero_div]
    rw [hcount] at hlogs
    exact ⟨fun _ => hfit, fun _ => hlogs.handsExactly_loop⟩
  · have hcount : addressPageCount paddr (add64 paddr size) = 0 := by
      rw [addressPageCount, if_neg]
      unfold add64
      omega
    rw [hlogs.handsExactly_iff hq]
    refine ⟨fun hcov => ?_, fun hfit' => absurd hfit' hfit⟩
    have hpos : 0 < size / pageSize := by
      simp only [pageSize] at hmod ⊢
      omega
    have hnone := (hcov _).1 (covers_iff.2 ⟨0, hpos, rfl⟩)
    rw [hcount] at hnone
    cases hnone

theorem memoryMap_handsExactly {paddr flags : Nat} (h : (memoryMap paddr size flags).run k = .ok p k') :
    HandsExactly k k' := by
  intro hq
  unfold memoryMap at h
  obtain ⟨⟨cut, d⟩, k₁, hlock, h⟩ := run_bind_ok.1 h
  have hdesc : DescEffect k k₁ := LockedEffect.withLock hlock
  obtain ⟨_, k₂, hloop, h⟩ := run_bind_ok.1 h
  obtain ⟨_, k₃, hshoot, h⟩ := run_bind_ok.1 h
  cases h
  obtain ⟨-, hlogs⟩ := loop_shootdown_logs (v := getNoPaddingStartAddr d) (hdesc.quiet ▸ hq)
    (fun _ => .bind .silent fun _ => writes_pagingMap _ _ _ _) hloop hshoot
  exact (Logs.before hdesc.sameLogs hlogs).handsExactly_loop hq

theorem allocate_handsExactly_iff {type : VirtualMemoryType} {up lo : Nat}
    (hq : k.sh.queueArray ≠ 0) (hsize : size < 2 ^ 64) (hword : k.WordSizes)
    (h : (allocateKernelVirtualMemory size type up lo).run k = .ok p k') :
    HandsExactly k k' ↔ size = 0 := by
  unfold allocateKernelVirtualMemory at h
  rw [run_kassert_bind, run_check_bind] at h
  obtain ⟨⟨cut, d⟩, k₁, hlock, hrest⟩ := run_bind_ok.1 h.2.2
  have hdesc : DescEffect k k₁ := LockedEffect.withLock hlock
  have husable : getNoPaddingSize d = size := by
    obtain ⟨-, t, ht, -⟩ := run_withLock_ok.1 hlock
    rw [run_get_bind, run_kassert_bind] at ht
    obtain ⟨_, t', hcut, hread⟩ := run_bind_ok.1 ht.2
    rw [run_readDesc_bind] at hread
    obtain ⟨-, hread⟩ := hread
    cases hread
    have hlocked : (k.locked .vmm).WordSizes := fun q hin => hword q (hin.congr rfl)
    obtain ⟨hs, hl, hu⟩ := cutRegion_extent List.mem_cons_self hlocked hcut
    rw [getNoPaddingSize, hs, hl, hu]
    exact usable_eq hsize up lo
  simp only [husable] at hrest
  obtain ⟨_, k₂, hloop, hrest⟩ := run_bind_ok.1 hrest
  obtain ⟨_, k₃, hshoot, hrest⟩ := run_bind_ok.1 hrest
  cases hrest
  exact loop_behind_handsExactly_iff hq hdesc.sameLogs hdesc.quiet (fun _ => writes_mapNewFrame _) hloop
    hshoot ⟨rfl, rfl⟩

theorem deallocate_handsExactly_iff (hq : k.sh.queueArray ≠ 0)
    (h : (deallocateKernelVirtualMemory p).run k = .ok b k') :
    HandsExactly k k' ↔ getNoPaddingSize (k.sh.descs p) = 0 := by
  obtain ⟨-, t, ht, rfl⟩ := run_withLock_ok.1 h
  rw [run_get_bind, run_kassert_bind, run_readDesc_bind, run_kassert_bind, run_kassert_bind] at ht
  obtain ⟨-, -, -, -, ht⟩ := ht
  obtain ⟨_, k₁, hloop, ht⟩ := run_bind_ok.1 ht
  obtain ⟨_, k₂, hshoot, ht⟩ := run_bind_ok.1 ht
  have hpaging : PagingEffect (k.locked .vmm) k₁ := .of_run hloop
  -- the lock is still held when the descriptors are merged
  have hheld : .vmm ∈ k₂.cpu.held := by
    have hrestores : Restores k₁ k₂ := Kept.keeps hshoot
    rw [hrestores.held, hpaging.held]
    exact List.mem_cons_self
  have hrelease : SameLogs k₂ t := DescEffect.sameLogs (Kept.keeps (R := LockedEffect) ht hheld)
  have hlocked : SameLogs k (k.locked .vmm) := ⟨rfl, rfl⟩
  exact loop_behind_handsExactly_iff hq hlocked rfl
    (fun _ => writes_unmapPage _ _) hloop hshoot (hrelease.trans ⟨rfl, rfl⟩)

theorem tryExpand_handsExactly_iff {side : Side} (hq : k.sh.queueArray ≠ 0)
    (h : (tryExpandWith kmalloc side p size true).run k = .ok b k') :
    HandsExactly k k' ↔ ((k.sh.descs p).type.isBacked = false ∨
      side.padding (k.sh.descs p) < roundUpToPage size) ∨ roundUpToPage size = 0 := by
  obtain ⟨-, ⟨-, rfl, hrefused⟩ | ⟨-, hbacked, hroom, k₁, hpages, hshoot⟩⟩ := tryExpandWith_cases h
  · exact ⟨fun _ => .inl hrefused, fun _ => SameLogs.handsExactly ⟨rfl, rfl⟩⟩
  · have hgranted : ¬ ((k.sh.descs p).type.isBacked = false ∨
        side.padding (k.sh.descs p) < roundUpToPage size) := by
      simp [hbacked, hroom]
    unfold expandPages at hpages
    have hshrunk : SameLogs k (k.setDesc p
        (side.shrinkPadding (roundUpToPage size) (k.sh.descs p))) := ⟨rfl, rfl⟩
    rw [loop_behind_handsExactly_iff hq hshrunk rfl
      (fun _ => .bind .silent fun _ => writes_mapNewFrame _) hpages hshoot ⟨rfl, rfl⟩]
    exact ⟨.inr, fun hor => hor.resolve_left hgranted⟩

theorem copy_handsExactly {src vaddr flags : Nat}
    (h : (copyMemoryMappingFromPagingStructure src vaddr size flags).run k = .ok p k') :
    HandsExactly k k' := by
  intro hq
  rw [copyMemoryMapping_eq, run_kassert_bind] at h
  obtain ⟨r, k₁, hplace, h⟩ := run_bind_ok.1 h.2
  have hcritical : DescEffect k k₁ := LockedEffect.withLock hplace
  cases r with
  | none =>
    cases h
    exact hcritical.sameLogs.handsExactly hq
  | some cut =>
    obtain ⟨_, t, hfill, h⟩ := run_bind_ok.1 h
    cases h
    unfold fillCopy at hfill
    rw [run_get_bind] at hfill
    obtain ⟨_, k₃, hcopy, hfill⟩ := run_bind_ok.1 hfill
    obtain ⟨_, k₄, hflush, hfill⟩ := run_bind_ok.1 hfill
    obtain ⟨_, k₅, hshoot, hfill⟩ := run_bind_ok.1 hfill
    -- the lock is taken and given back once more
    have hlast : SameLogs k₅ k' := (LockedEffect.withLock hfill).sameLogs
    have hcopied : PagingEffect _ k₃ := .of_run hcopy
    have hflushed : PagingEffect k₃ k₄ :=
      .of_run hflush
    have hunwritten : SameLog writtenPages k₃ k₄ := Kept.keeps hflush
    obtain ⟨hmod, hshot⟩ := shootdown_logs
      (by rw [hflushed.queueArray, hcopied.queueArray, hcritical.quiet]; exact hq) hshoot
    have hwritten : Logs _ k₃ [] (loopPages vaddr (pageCount size)) :=
      hcopied.logs (writes_forPages (fun _ => writes_copyPagingEntry _ _ _ _) hcopy)
    have hsilent : SameLogs k₃ k₄ := hflushed.logs hunwritten
    have hlogs := (Logs.before hcritical.sameLogs ((hwritten.after hsilent).trans hshot)).after hlast
    rw [List.append_nil, List.nil_append, pageCount_eq hmod] at hlogs
    exact hlogs.handsExactly_loop hq

theorem load_not_covered {t c : Nat} (ht : t < 2 ^ 64)
    (hc : c = addressPageCount t (add64 t ((1 + pageFaultAdditionalPageLoad) * pageSize)))
    (hcov : ∀ q, (⟨add64 t (c * pageSize),
      sub64 (add64 t ((1 + pageFaultAdditionalPageLoad) * pageSize)) (add64 t (c * pageSize)) /
        pageSize⟩ : VMMCacheShootdownRange).Covers q ↔ q ∈ loopPages t c) : False := by
  simp only [covers_iff, mem_loopPages] at hcov
  have hlen : (1 + pageFaultAdditionalPageLoad) * pageSize = 69632 := by decide
  by_cases hfit : t + 69632 < 2 ^ 64
  · -- the loop loads 17 pages and ends at the end of the window: no page is left for the range
    have hc17 : c = 17 := by
      rw [hc, hlen, add64_eq hfit, addressPageCount, if_pos (by omega), Nat.add_sub_cancel_left]
      decide
    obtain ⟨i, hi, -⟩ := (hcov _).2 ⟨0, by omega, rfl⟩
    subst hc17
    rw [hlen] at hi
    simp only [pageSize, Nat.reduceMul] at hi
    unfold sub64 add64 at hi
    omega
  · -- the end of the window lies below its start: the loop loads none of the 17 pages
    have hc0 : c = 0 := by
      rw [hc, hlen, addressPageCount, if_neg]
      unfold add64
      omega
    have hrange : 0 < sub64 (add64 t 69632) (add64 t 0) / 4096 := by
      unfold sub64 add64
      omega
    subst hc0
    simp only [pageSize, Nat.zero_mul] at hcov
    obtain ⟨i, hi, -⟩ := (hcov _).1 ⟨0, hrange, rfl⟩
    exact absurd hi (Nat.not_lt_zero i)

/-- A load never hands on what it wrote: where the loop ran the range is empty, and where it did
not the range is not. -/
theorem identityFault_handsExactly_iff {info : PageFaultInfo} (hq : k.sh.queueArray ≠ 0)
    (h : (pageFaultCheckIdentityMapLoad info).run k = .ok b k') :
    HandsExactly k k' ↔ ¬ (info.faultVmem ≠ .null ∧
      (k.sh.descs info.faultVmem).type = .identityMap ∧ info.pageNotPresent = true) := by
  unfold pageFaultCheckIdentityMapLoad at h
  by_cases hnull : info.faultVmem = .null
  · rw [if_pos (by simp [isVmemhandleInvalid, hnull])] at h
    cases h
    exact ⟨fun _ hload => hload.1 hnull, fun _ => SameLogs.handsExactly ⟨rfl, rfl⟩⟩
  · rw [if_neg (by simp [isVmemhandleInvalid, hnull])] at h
    unfold getVmemType at h
    rw [bind_assoc, run_readDesc_bind, pure_bind] at h
    obtain ⟨-, h⟩ := h
    split at h
    · next hload =>
      have hload : (k.sh.descs info.faultVmem).type = .identityMap ∧ info.pageNotPresent = true := by
        simpa using hload
      obtain ⟨_, k₁, hmap, h⟩ := run_bind_ok.1 h
      obtain ⟨_, k₂, hshoot, h⟩ := run_bind_ok.1 h
      cases h
      have heff := PagingEffect.of_run hmap
      have hshot := shootdownRange_logs (heff.queueArray ▸ hq) hshoot
      have hwritten : Logs k k₁ [] (loopPages _ _) := heff.logs (writes_mapIdentityPages _ _ hmap)
      have hlogs := hwritten.trans hshot
      rw [List.append_nil, List.nil_append] at hlogs
      rw [hlogs.handsExactly_iff hq]
      exact ⟨fun hcov => (load_not_covered (sub64_lt _ _) rfl hcov).elim,
        fun hno => absurd ⟨hnull, hload⟩ hno⟩
    · next hload =>
      cases h
      refine ⟨fun _ hall => hload ?_, fun _ => SameLogs.handsExactly ⟨rfl, rfl⟩⟩
      simp [hall.2.1, hall.2.2]

end

/-! ## Calls -/

/-- A call of an operation, or of the handler of faults in identity mappings. -/
inductive MappingCall where
  | vmm (c : VmmCall)
  | identityFault (info : PageFaultInfo)

namespace MappingCall

def Returns (k k' : Kernel) : MappingCall → Prop
  | vmm c => c.Returns k k'
  | identityFault info => ∃ b, (pageFaultCheckIdentityMapLoad info).run k = .ok b k'

def Words : MappingCall → Prop
  | vmm (.loadIdentityMapPages paddr size _) => paddr < 2 ^ 64 ∧ size < 2 ^ 64
  | vmm (.allocate size ..) => size < 2 ^ 64
  | _ => True

/-- The calls that hand on the pages they write: those that keep the address of the first page,
and those that have no page to write. -/
def KeepsFirstPage (k : Kernel) : MappingCall → Prop
  | vmm (.identityMap ..) => True
  | vmm (.memoryMap ..) => True
  | vmm (.copyMemoryMapping ..) => True
  | vmm (.loadIdentityMapPages paddr size _) => paddr + size < 2 ^ 64
  | vmm (.allocate size ..) => size = 0
  | vmm (.deallocate handle) => getNoPaddingSize (k.sh.descs handle) = 0
  | vmm (.tryExpandVmemTop handle size) =>
    (VmmCall.tryExpandVmemTop handle size).Refused k ∨ roundUpToPage size = 0
  | vmm (.tryExpandVmemBottom handle size) =>
    (VmmCall.tryExpandVmemBottom handle size).Refused k ∨ roundUpToPage size = 0
  | identityFault info => ¬ (info.faultVmem ≠ .null ∧
      (k.sh.descs info.faultVmem).type = .identityMap ∧ info.pageNotPresent = true)

end MappingCall

/-- A call that returns hands the shootdown subsystem exactly the pages whose entries it wrote if,
once the subsystem is initialised, it keeps the address of the first page or writes none. -/
theorem hands_exactly_iff {c : MappingCall} {k k' : Kernel} (hwords : c.Words)
    (hsizes : k.WordSizes) (h : c.Returns k k') :
    HandsExactly k k' ↔ (k.sh.queueArray ≠ 0 → c.KeepsFirstPage k) := by
  by_cases hq : k.sh.queueArray = 0
  · exact ⟨fun _ hinit => absurd hq hinit, fun _ hinit => absurd hq hinit⟩
  · have hguard : ∀ {P : Prop}, (k.sh.queueArray ≠ 0 → P) ↔ P := forall_prop_of_true hq
    rw [hguard]
    cases c with
    | identityFault info =>
      obtain ⟨_, h⟩ := h
      exact identityFault_handsExactly_iff hq h
    | vmm c =>
      cases c with
      | identityMap paddr size =>
        obtain ⟨_, h⟩ := h
        exact iff_of_true (identityMap_handsExactly h) trivial
      | loadIdentityMapPages paddr size handle =>
        exact loadIdentityMapPages_handsExactly_iff hq hwords.1 hwords.2 h
      | memoryMap paddr size pageFlags =>
        obtain ⟨_, h⟩ := h
        exact iff_of_true (memoryMap_handsExactly h) trivial
      | copyMemoryMapping src vaddr size pageFlags =>
        obtain ⟨_, h⟩ := h
        exact iff_of_true (copy_handsExactly h) trivial
      | allocate size type upperPadding lowerPadding =>
        obtain ⟨_, h⟩ := h
        exact allocate_handsExactly_iff hq hwords hsizes h
      | deallocate handle =>
        obtain ⟨_, h⟩ := h
        exact deallocate_handsExactly_iff hq h
      | tryExpandVmemTop handle size =>
        obtain ⟨_, h⟩ := h
        exact tryExpand_handsExactly_iff hq h
      | tryExpandVmemBottom handle size =>
        obtain ⟨_, h⟩ := h
        exact tryExpand_handsExactly_iff hq h

/-! ## Two CPUs -/

/-- What a second CPU does while the first one waits: it runs the interrupt handler. -/
def secondCpuHandles (s : Shared) : Shared :=
  (finalState (cacheShootdownInterruptHandler.run
    { staticKernel with cpu := { staticKernel.cpu with lapicId := 1 }, sh := s })).sh

/-- The heap is initialised on its region, both CPUs are registered and both queues active. -/
def startSmp : KM Unit := do
  initializeHeapOn (.early 1)
  modifyShared fun s => { s with kheapInitialized := true }
  let first ← registerLocalKernelDataCpu
  setLocalKernelData first ⟨.null, 0⟩
  let second ← registerLocalKernelDataCpu
  setLocalKernelData second ⟨.null, 1⟩
  initializeVmmcacheShootdownSubsystem 2
  activateThisCpuVmmcacheShootdown
  modifyQueue second fun q => { q with active := true }

def smpSpace : Kernel := finalState (startSmp.run { heapSpace with others := secondCpuHandles })

theorem inVmList_mem {k : Kernel} {ps : List DescPtr} {p : DescPtr} (hp : InVmList k p)
    (hhead : k.sh.vmm.vmListHead ∈ ps)
    (hnext : ∀ q ∈ ps, (k.sh.descs q).next = .null ∨ (k.sh.descs q).next ∈ ps) : p ∈ ps := by
  induction hp with
  | head _ => exact hhead
  | next _ hne ih => exact (hnext _ ih).resolve_left hne

theorem smpSpace_wordSizes : smpSpace.WordSizes := by
  intro p hp
  have hlist : ∀ q ∈ [DescPtr.early 0, .early 1, .early 2], (smpSpace.sh.descs q).sizeBytes < 2 ^ 64 := by
    decide +kernel
  exact hlist p (inVmList_mem hp (by decide +kernel) (by decide +kernel))

/-- A page of device memory is mapped, and the second CPU is told about that page. -/
theorem hands_exactly_smpSpace : ∃ k', (memoryMap (8 * pageSize) pageSize 0).run smpSpace =
    .ok (.early 2) k' ∧ smpSpace.sh.queueArray ≠ 0 ∧ HandsExactly smpSpace k' := by
  have hrun := eq_of_returned (a := DescPtr.early 2)
    (r := (memoryMap (8 * pageSize) pageSize 0).run smpSpace) (by decide +kernel)
  exact ⟨_, hrun, by decide +kernel,
    (hands_exactly_iff (c := .vmm (.memoryMap (8 * pageSize) pageSize 0)) trivial smpSpace_wordSizes
      ⟨_, hrun⟩).2 fun _ => trivial⟩

/-- One page is allocated: its entry is written, and the page after it is handed on. -/
theorem exists_page_not_handed : ∃ k' v, (allocateKernelVirtualMemory pageSize .generalUse 0 0).run
    smpSpace = .ok (.early 2) k' ∧ getNoPaddingStartAddr (k'.sh.descs (.early 2)) = v ∧
      Logs smpSpace k' [⟨v + pageSize, 1⟩] [v / pageSize] ∧ ¬ HandsExactly smpSpace k' := by
  have hrun := eq_of_returned (a := DescPtr.early 2)
    (r := (allocateKernelVirtualMemory pageSize .generalUse 0 0).run smpSpace) (by decide +kernel)
  refine ⟨_, _, hrun, rfl, ⟨by decide +kernel, by decide +kernel⟩, fun hex => ?_⟩
  have hzero := (allocate_handsExactly_iff (by decide +kernel) (by decide) smpSpace_wordSizes hrun).1 hex
  exact absurd hzero (by decide)

end GarbageOS
