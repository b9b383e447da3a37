import GarbageOS.Paging.Copy
import GarbageOS.Paging.Writes
import GarbageOS.Vmm.Code

/-!
# Reading a mapping back

`paging_map` and `get_physical_address` agree on the flags and on the address below bit
47. A physical address with bit 47 set is made canonical when it is read back, as if it
were a virtual one, so it is not the address that was mapped.
-/

namespace GarbageOS

open Lib

/-! ## Structures built by the code -/

/-- The paging structures of a kernel: `create_empty_kernel_paging_structure` makes one, its
pages are mapped, unmapped and copied from other structures, and nothing else writes to it. -/
inductive BuiltPaging (ps : Nat) : Kernel → Prop where
  | create {k k' : Kernel}
      (hframes : Supplies k.sh.halArchInitialized (fun _ => False) 514 k.sh.frames)
      (hrun : createEmptyKernelPagingStructure.run k = .ok ps k') : BuiltPaging ps k'
  | step {k k' : Kernel} (h : BuiltPaging ps k) (hstep : PagingStep ps k k') : BuiltPaging ps k'
  | copy {k k' : Kernel} {src v newFlags : Nat} (h : BuiltPaging ps k)
      (hsrc : PageTables k.sh.pmem src) (hsep : NoSharedFrame k.sh.pmem src ps)
      (hfresh : FreshFrames k src ps) (hflags : newFlags < 2 ^ 16)
      (hrun : (copyPagingEntry src ps v newFlags).run k = .ok () k') : BuiltPaging ps k'
  | other {k k' : Kernel} (h : BuiltPaging ps k)
      (hsame : ∀ b, StructureWord k.sh.pmem ps b → k'.sh.pmem b = k.sh.pmem b) : BuiltPaging ps k'

theorem BuiltPaging.pageTables {ps : Nat} {k : Kernel} (h : BuiltPaging ps k) :
    PageTables k.sh.pmem ps := by
  induction h with
  | create hframes hrun => exact run_createEmptyKernelPagingStructure_ok hframes hrun
  | step _ hstep ih =>
    obtain ⟨op, hfresh, hrun⟩ := hstep
    exact (ih.exec hfresh hrun).1
  | copy _ hsrc hsep hfresh hflags hrun ih => exact (hsrc.copyEntry ih hsep hfresh hflags hrun).tables
  | other _ hsame ih => exact (ih.congr hsame).1

/-! ## Encoding and decoding an entry -/

section

variable {p flags : Nat}

theorem canonicalPaddr_eq_iff (hp : IsFrame p) : canonicalPaddr p = p ↔ p < 2 ^ 47 := by
  have hlt := hp.2
  have hbit : p &&& 0x0000800000000000 = p / 2 ^ 47 % 2 * 2 ^ 47 := by
    simpa using and_mask p 1 47
  unfold canonicalPaddr
  rw [hbit]
  by_cases h : p < 2 ^ 47
  · have hzero : p / 2 ^ 47 % 2 * 2 ^ 47 = 0 := by omega
    rw [hzero]
    exact iff_of_true rfl h
  · have hor : p ||| 0xffff000000000000 = 0xffff000000000000 + p := by
      rw [Nat.or_comm]
      exact or_eq_add (k := 48) (by decide) hlt
    rw [if_pos (by omega), hor]
    omega

theorem isEntryPresent_iff {entry : Nat} : isEntryPresent entry = true ↔ entry % 2 = 1 := by
  rw [isEntryPresent, pagePresent, bne_iff_ne, Nat.and_one_is_mod]
  omega

theorem isEntryPresent_mapEntry (p flags : Nat) : isEntryPresent (mapEntry p flags) = true := by
  have hodd : (flags ||| pagePresent) % 2 = 1 := by
    rw [pagePresent, Nat.or_mod_two_eq_one]
    exact .inr rfl
  rw [isEntryPresent_iff, mapEntry_eq]
  omega

theorem mapEntry_and_frameMask (hp : IsFrame p) : mapEntry p flags &&& frameMask = p := by
  have hmod := hp.1
  have hlt := hp.2
  simp only [pageSize] at hmod
  rw [mapEntry_eq, frameMask, show 0x0000fffffffff000 = (2 ^ 36 - 1) * 2 ^ 12 from rfl, and_mask]
  omega

theorem ofEntry_mapEntry (hp : IsFrame p) : PagingMapState.ofEntry (mapEntry p flags) =
    ⟨canonicalPaddr p, (flags ||| pagePresent) &&& 0xfff, true⟩ := by
  have hlow : mapEntry p flags &&& 0xfff = (flags ||| pagePresent) &&& 0xfff := by
    rw [mapEntry_eq, show 0xfff = 2 ^ 12 - 1 from rfl, Nat.and_two_pow_sub_one_eq_mod,
      Nat.and_two_pow_sub_one_eq_mod]
    omega
  rw [PagingMapState.ofEntry, mapEntry_and_frameMask hp, hlow, isEntryPresent_mapEntry]

end

/-! ## The frames given back -/

def freedFrames (k : Kernel) : List Nat := k.cpu.freed

instance : CpuLog freedFrames := ⟨fun _ _ => rfl, fun _ _ => rfl, fun _ _ _ => rfl⟩

theorem frees_deallocFrame (paddr : Nat) : Emits freedFrames (deallocFrame paddr) [paddr] := by
  have hlog : Emits freedFrames (modifyCpu fun c => { c with freed := paddr :: c.freed }) [paddr] :=
    .modify fun _ => rfl
  exact hlog.bind fun _ => .silent

instance (root vaddr entry value : Nat) :
    Kept (SameLog freedFrames) (writePte root vaddr entry value) :=
  ⟨.bind Kept.keeps fun _ => .modify fun _ => rfl⟩

instance (ps vaddr : Nat) : Kept (SameLog freedFrames) (invalidatePagingMapping ps vaddr) := by
  unfold invalidatePagingMapping; infer_instance

theorem run_unmapPage_freed {type : VirtualMemoryType} {v : Nat} {u : Unit} {k k' : Kernel}
    (htype : type.isBacked = true)
    (hpresent : (getPhysicalAddress k.sh.pmem k.sh.vmm.pagingStructure v).mmapPresent = true)
    (hrun : (unmapPage type v).run k = .ok u k') :
    k'.cpu.freed = (getPhysicalAddress k.sh.pmem k.sh.vmm.pagingStructure v).paddr :: k.cpu.freed := by
  unfold unmapPage at hrun
  rw [run_get_bind] at hrun
  dsimp only at hrun
  rw [onlyIf_pos htype, bind_assoc, run_get_bind, onlyIf_pos hpresent] at hrun
  obtain ⟨_, k₁, hfree, hrun⟩ := run_bind_ok.1 hrun
  exact (Kept.keeps (R := SameLog freedFrames) hrun).trans (frees_deallocFrame _ hfree)

/-! ## Read-back -/

theorem BuiltPaging.getPhysicalAddress_map {k k' : Kernel} {ps v p flags : Nat}
    (hbuilt : BuiltPaging ps k) (hp : IsFrame p) (hfresh : FreshTables ps v k)
    (hmap : (pagingMap ps v p flags).run k = .ok () k') :
    getPhysicalAddress k'.sh.pmem ps v =
      ⟨canonicalPaddr p, (flags ||| pagePresent) &&& 0xfff, true⟩ := by
  have hrun : ((PagingOp.map v p flags).exec ps).run k = .ok () k' := hmap
  have hfresh' : FreshTables ps (PagingOp.map v p flags).vaddr k := hfresh
  have hexec := hbuilt.pageTables.exec hfresh' hrun
  have hself : SamePage (PagingOp.map v p flags).vaddr v := rfl
  rw [getPhysicalAddress_eq, hexec.2.2, if_pos hself]
  exact ofEntry_mapEntry hp

/-- After `paging_map` of a frame `p`, `get_physical_address` reports `p` with the flags
exactly if `p` is below `2^47`, and then `p` is the frame that unmapping the page of a
region gives back to the allocator. -/
theorem mapping_readBack_iff {k k' : Kernel} {ps v p flags : Nat} (hbuilt : BuiltPaging ps k)
    (hp : IsFrame p) (hfresh : FreshTables ps v k)
    (hmap : (pagingMap ps v p flags).run k = .ok () k') :
    (getPhysicalAddress k'.sh.pmem ps v = ⟨p, (flags ||| pagePresent) &&& 0xfff, true⟩ ↔
        p < 2 ^ 47) ∧
      ∀ type k'', type.isBacked = true → k'.sh.vmm.pagingStructure = ps →
        (unmapPage type v).run k' = .ok () k'' →
        (k''.cpu.freed = p :: k'.cpu.freed ↔ p < 2 ^ 47) := by
  have hreport := hbuilt.getPhysicalAddress_map hp hfresh hmap
  constructor
  · rw [hreport, ← canonicalPaddr_eq_iff hp]
    simp
  · intro type k'' htype hps hrun
    rw [← hps] at hreport
    have hfreed := run_unmapPage_freed htype (by rw [hreport]) hrun
    rw [hfreed, hreport, ← canonicalPaddr_eq_iff hp]
    simp

theorem newPagingKernel_built : BuiltPaging newPaging newPagingKernel :=
  .create (roomyKernel_supplies 514) newPagingKernel_run

theorem mapping_readBack_low :
    getPhysicalAddress lowPage.sh.pmem newPaging 0xffff800000000000 = ⟨0x7fffffff000, 3, true⟩ :=
  (mapping_readBack_iff newPagingKernel_built ⟨by decide, by decide⟩ (newPagingKernel_fresh _)
    lowPage_run).1.2 (by decide)

/-- The frame at `2^47` is read back as `0xffff800000000000`. -/
theorem mapping_not_readBack_high :
    BuiltPaging newPaging newPagingKernel ∧
      (pagingMap newPaging 0xffff800000000000 0x800000000000 pageWritable).run newPagingKernel =
        .ok () (mappedKernel 0x800000000000) ∧
      getPhysicalAddress (mappedKernel 0x800000000000).sh.pmem newPaging 0xffff800000000000 =
        ⟨0xffff800000000000, 3, true⟩ := by
  have hmap : (pagingMap newPaging 0xffff800000000000 0x800000000000 pageWritable).run
      newPagingKernel = .ok () (mappedKernel 0x800000000000) :=
    eq_of_returned (by decide +kernel)
  have hframe : IsFrame 0x800000000000 := ⟨by decide, by decide⟩
  refine ⟨newPagingKernel_built, hmap, ?_⟩
  rw [newPagingKernel_built.getPhysicalAddress_map hframe (newPagingKernel_fresh _) hmap]
  decide

end GarbageOS
