import GarbageOS.Vmm.MapRuns

/-!
# Deallocating a region

`deallocate_kernel_virtual_memory` returns for every region but one at the end of the list
that has no free area before it: there the descriptor after the last one is read.
-/

namespace GarbageOS

open Lib Relation

section

variable {full : Prop} {g : Nat} {k k' : Kernel} {xs xs' : List Area} {x m : Area}
  {owned all : List Nat}

/-- The pages of a region are present; those of a mapping may need tables. -/
theorem Mapped.unmapPages_returns (h : Mapped full g k xs owned all) (hx : x ∈ xs)
    (hused : isFreeType x.type = false) (hlock : .frameAllocator ∉ k.cpu.held)
    (hframes : x.type.isBacked = false → FramesLeft (x.length / pageSize * 3) k) :
    ∃ k', (unmapPages x.type x.base x.length).run k = .ok () k' := by
  have hwhole := h.whole x hx hused
  have hend := (h.layout.ok x hx).base_add_length
  have hstop := h.layout.stop_lt hx
  have hbase : x.start ≤ x.base := Nat.le_add_right _ _
  cases hb : x.type.isBacked with
  | true =>
    have hhigh := h.backed_high hx hb
    have hstart := kernelVmemStart_eq
    have hsmall : x.length ≤ 2 ^ 48 := by omega
    exact GarbageOS.unmapPages_returns h.paged rfl hsmall (h.ownFrames hx hused)
      (fun i hi => h.present hx hb hi) hlock
  | false =>
    have hsmall : x.length ≤ 2 ^ 64 - pageSize := by
      simp only [pageSize] at hwhole ⊢
      omega
    have hbudget := hframes hb
    rw [← pageCount_eq hwhole] at hbudget
    obtain ⟨_, k', hk'⟩ := (within_unmapPages x.base hb hsmall).returns hbudget
    exact ⟨k', hk'⟩

theorem Mapped.deallocate_returns (h : Mapped full g k xs owned all) (hx : x ∈ xs)
    (hused : isFreeType x.type = false) (hl : .vmm ∉ k.cpu.held) (hmerge : Mergeable xs x)
    (hframes : x.type.isBacked = false → FramesLeft (x.length / pageSize * 3) k) :
    ∃ k', (deallocateKernelVirtualMemory x.ptr).run k = .ok true k' := by
  have h₀ : Mapped full g (k.locked .vmm) xs owned all := h.congr_sh (h.toVmmState.locked hl) rfl
  have hempty : k.cpu.held = [] := h.held.resolve_right fun e => hl (by rw [e]; simp)
  have hheld : (k.locked .vmm).cpu.held = [.vmm] := by
    show .vmm :: k.cpu.held = _
    rw [hempty]
  obtain ⟨k₁, hpages⟩ := h₀.unmapPages_returns hx hused (by rw [hheld]; decide)
    fun hb => (hframes hb).locked
  have heff := PagingEffect.of_run hpages
  have h₁ := h₀.toVmmInv.paging heff
  obtain ⟨k₂, -, -, hrelease, -⟩ := release_runs h₁.vmm h₁.layout rfl hmerge
    (by rw [heff.held, hheld]; decide)
  have hx0 : x.ptr ≠ .null := h.vmm.list.ptr_ne_null hx
  obtain ⟨hstart, -, -, -, htype⟩ := h₀.vmm.list.fields hx
  obtain ⟨hbase, hlength⟩ := h.layout.noPadding h₀.vmm hx
  have hne : x.type ≠ .free ∧ x.type ≠ .identityMapFree := by
    constructor <;> rintro e <;> rw [e] at hused <;> cases hused
  refine ⟨k₂.unlocked .vmm k.cpu.interrupts, run_withLock_ok.2 ⟨hl, k₂, ?_, rfl⟩⟩
  rw [run_get_bind, run_kassert_bind, run_readDesc_bind, run_kassert_bind, run_kassert_bind]
  simp only [hbase, hlength, hstart, htype, bne_iff_ne]
  refine ⟨h.mode, hx0, hne.1, hne.2, run_bind_ok.2 ⟨(), k₁, hpages, ?_⟩⟩
  rw [run_ok_bind (shootdown_returns h₁.quiet (h.whole x hx hused))]
  have hrest : ((do
      modifyDesc x.ptr fun n =>
        { n with type := freeTypeAt x.start, lowerPadding := 0, upperPadding := 0 }
      coalesce (← freePredecessor x.ptr (freeTypeAt x.start)) (freeTypeAt x.start)) >>=
        fun _ => pure true).run k₁ = .ok true k₂ := run_bind_ok.2 ⟨(), k₂, hrelease, rfl⟩
  simpa only [bind_assoc, freeTypeAt] using hrest

theorem Released.covers (h : Released xs x m xs') (hlay : Layout xs) (hlay' : Layout xs') :
    m ∈ xs' ∧ m.start ≤ x.start ∧ x.stop ≤ m.stop := by
  obtain ⟨pre, fs, gs, post, rfl, rfl, -⟩ := h.places
  have hx := hlay.ok x (by simp)
  obtain ⟨a, e, hold, hm, hme⟩ := hlay.tiles.replaced hlay'.tiles
  obtain ⟨hlo, hhi⟩ := (hold.bounds fun y _ => y.start_le_bound).2 x (by simp)
  have hme' : m.bound = e := hme
  have hstop := x.stop_le_bound
  have hpos := hx.nonempty
  have hpart := hx.inPart
  refine ⟨by simp, by omega, ?_⟩
  unfold Area.bound at hme'
  unfold Area.InPart at hpart
  split at hme'
  · -- `m` ends with the low part, and so `x` does not lie in the kernel part
    unfold Area.stop at *
    omega
  · omega

end

/-- The range of `x` is free, and the other areas in use are what they were. -/
structure Deallocated (xs : List Area) (x : Area) (xs' : List Area) : Prop where
  free : ∃ m ∈ xs', isFreeType m.type = true ∧ m.start ≤ x.start ∧ x.stop ≤ m.stop
  others : ∀ y, isFreeType y.type = false → (y ∈ xs' ↔ y ∈ xs ∧ y ≠ x)

/-- In every run in which no request wraps, deallocating a region returns true, frees its range
and keeps the others, exactly if the lock is free and the region is not at the end of the list or has
a free area before it. -/
theorem deallocate_total_iff {k₀ k₁ k : Kernel} {ps : Nat} {owned all : List Nat}
    (h₀ : EmptySpace k₀ ps owned all) (hinit : (initializeKernelVMM ps).run k₀ = .ok () k₁)
    (hrun : ReflTransGen (MapStep False 1) k₁ k) :
    ∃ xs, AddressSpace k xs ∧ ∀ x ∈ xs, isFreeType x.type = false →
      (x.type.isBacked = false → FramesLeft (x.length / pageSize * 3) k) →
      ((∃ k' xs', (deallocateKernelVirtualMemory x.ptr).run k = .ok true k' ∧ AddressSpace k' xs' ∧
        Deallocated xs x xs') ↔ .vmm ∉ k.cpu.held ∧ Mergeable xs x) := by
  obtain ⟨xs, owned', h⟩ := mapped_of_run (Nat.one_dvd _) h₀ hinit hrun
  refine ⟨xs, h.addressSpace, fun x hx hused hframes => ⟨?_, fun ⟨hl, hmerge⟩ => ?_⟩⟩
  · rintro ⟨k', xs', hcall, -, -⟩
    obtain ⟨-, -, hmerge, hl, -⟩ := h.deallocateStep hx hcall
    exact ⟨hl, hmerge⟩
  · obtain ⟨k', hcall⟩ := h.deallocate_returns hx hused hl hmerge hframes
    obtain ⟨-, -, -, -, m, xs', owned', hr, h', -⟩ := h.deallocateStep hx hcall
    obtain ⟨hm, hlo, hhi⟩ := hr.covers h.layout h'.layout
    refine ⟨k', xs', hcall, h'.addressSpace, ⟨m, hm, ?_, hlo, hhi⟩, fun y hy => ?_⟩
    · rw [hr.type]
      exact isFreeType_freeTypeAt _
    · exact hr.used h.vmm.list.nodup.of_map hy

/-- The heap of `heapSpace`, which has free memory after it. -/
theorem deallocate_heapSpace : ∃ k', (deallocateKernelVirtualMemory (.early 1)).run heapSpace =
    .ok true k' := by
  obtain ⟨xs, h, hall⟩ := deallocate_total_iff twoStructures_empty newSpace_run
    (.single (.allocate rfl (by decide) (by decide) heapSpace_run))
  obtain ⟨x, hx, hp, htype⟩ := heapSpace_area h
  obtain ⟨pre, post, rfl⟩ := List.append_of_mem hx
  have hpost : post ≠ [] := by
    rintro rfl
    have hnext : (heapSpace.sh.descs x.ptr).next = .null := h.list.around.2
    rw [← hp] at hnext
    exact absurd hnext (by decide +kernel)
  obtain ⟨k', -, hcall, -⟩ := (hall x hx (by rw [htype]; rfl) (by rw [htype]; intro hb; cases hb)).2
    ⟨by decide +kernel, pre, post, rfl, .inl hpost⟩
  exact ⟨k', hp ▸ hcall⟩

def topSpace : Kernel :=
  finalState ((copyMemoryMappingFromPagingStructure (7 * pageSize) (kernelVmemEnd - 2 * pageSize)
    (2 * pageSize) 1).run newSpace)

def fullTopSpace : Kernel :=
  finalState ((copyMemoryMappingFromPagingStructure (7 * pageSize) (kernelVmemEnd - 4 * pageSize)
    (2 * pageSize) 1).run topSpace)

/-- The region at the end cannot be deallocated: the descriptor after it is NULL. -/
theorem exists_nullAccess_deallocate : ∃ (k₀ k₁ k₂ k : Kernel) (p q : VMemHandle), BeforeVmm k₀ ∧
    (initializeKernelVMM (5 * pageSize)).run k₀ = .ok () k₁ ∧
    (copyMemoryMappingFromPagingStructure (7 * pageSize) (kernelVmemEnd - 2 * pageSize) (2 * pageSize)
      1).run k₁ = .ok p k₂ ∧
    (copyMemoryMappingFromPagingStructure (7 * pageSize) (kernelVmemEnd - 4 * pageSize) (2 * pageSize)
      1).run k₂ = .ok q k ∧
    k.cpu.held = [] ∧ InVmList k p ∧ (k.sh.descs p).type = .memoryMapping ∧
    ∃ k', (deallocateKernelVirtualMemory p).run k = .error .nullAccess k' :=
  ⟨twoStructures, newSpace, topSpace, fullTopSpace, .early 2, .early 3, twoStructures_before,
    newSpace_run, eq_of_returned (by decide +kernel), eq_of_returned (by decide +kernel),
    by decide +kernel, inVmList_of_nth (n := 3) (by decide +kernel) (by decide +kernel),
    by decide +kernel, _, run_eq_of_stopped (by decide +kernel)⟩

end GarbageOS
