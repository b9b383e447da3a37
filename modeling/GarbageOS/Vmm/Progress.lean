import GarbageOS.Vmm.Place

/-!
# When the operations return

A cut returns if the descriptors it needs can be allocated and the request fits.
-/

namespace GarbageOS

open Lib Function

section

variable {k : Kernel} {xs pre post : List Area} {d x : Area} {start size up lo : Nat}
  {type : VirtualMemoryType}

/-! ## Cuts -/

section

variable (hv : VmmList k (pre ++ d :: post)) (hlay : Layout (pre ++ d :: post))
  (hheld : .vmm ∈ k.cpu.held)

include hv hlay hheld

theorem cutDescriptorStart_returns (hfree : isFreeType d.type = true) (hle : size ≤ d.size)
    (hmod : size % pageSize = 0) (hcan : size < d.size → CanAllocate 1 k) :
    ∃ p k', (cutDescriptorStart d.ptr size).run k = .ok p k' := by
  obtain ⟨-, hsize, -, -, htype⟩ := hv.list.fields (d := d) (by simp)
  rcases Nat.lt_or_eq_of_le hle with hlt | rfl
  · obtain ⟨new, k₁, hnew, -⟩ := hcan hlt
    obtain ⟨k', -, -, hrun, -⟩ := cutDescriptorStart_runs hv hheld hnew hlay hfree hmod hlt
    exact ⟨_, k', hrun⟩
  · have hd0 : d.ptr ≠ .null := hv.list.ptr_ne_null (by simp)
    unfold cutDescriptorStart
    simp only [run_readDesc_bind, run_kassert_bind, htype, hsize, if_true,
      decide_eq_true_eq, beq_iff_eq]
    exact ⟨_, _, hd0, hfree, hle, hmod, hmod, rfl⟩

theorem cutDescriptor_returns (hfree : isFreeType d.type = true) (hmod : size % pageSize = 0)
    (hlo : d.start ≤ start) (hhi : start + size ≤ d.stop) (hin : start ≠ identityMapVmemEnd)
    (hcan : CanAllocate (cutsNeeded d start size) k) :
    ∃ p k', (cutDescriptor d.ptr start size).run k = .ok p k' := by
  obtain ⟨hstart, hsize, -, -, htype⟩ := hv.list.fields (d := d) (by simp)
  have hd0 : d.ptr ≠ .null := hv.list.ptr_ne_null (by simp)
  have hmod' := (hlay.ok d (by simp)).size_aligned
  have hstop := hlay.stop_lt (x := d) (by simp)
  have hend := hlay.endVaddr hv.list (x := d) (by simp)
  unfold cutsNeeded at hcan
  unfold cutDescriptor
  simp only [run_readDesc_bind, run_kassert_bind, htype, hstart, hsize, hend,
    add64_eq (show start + size < 2 ^ 64 by omega), beq_iff_eq]
  -- in each case the rest of the code returns
  have hrest : ∀ {y : KM DescPtr}, (∃ p k', y.run k = .ok p k') →
      ∃ p k', d.ptr ≠ .null ∧ isFreeType d.type = true ∧ d.size % pageSize = 0 ∧
        size % pageSize = 0 ∧ y.run k = .ok p k' :=
    fun ⟨p, k', h⟩ => ⟨p, k', hd0, hfree, hmod', hmod, h⟩
  apply hrest
  split
  · exact ⟨_, _, rfl⟩
  · split
    · next he =>
      unfold Area.stop at hhi hcan
      refine cutDescriptorStart_returns hv hlay hheld hfree (by omega) hmod fun hlt => ?_
      rwa [if_neg (by omega), if_pos (by omega)] at hcan
    · next hne =>
      split
      · next he =>
        rw [if_pos (by omega), if_neg (by omega)] at hcan
        obtain ⟨new, k₁, hnew, -⟩ := hcan
        obtain ⟨k', -, -, hrun, -⟩ :=
          cutDescriptorEnd_runs hv hheld hnew hlay hfree hmod (by omega) he.symm hin
        exact ⟨_, k', hrun⟩
      · next hne' =>
        rw [if_pos (by omega), if_pos (by omega)] at hcan
        obtain ⟨pd, k₁, hpd, nd, k₂, hnd, -⟩ := hcan
        obtain ⟨k', -, -, -, hrun, -⟩ :=
          cutDescriptorMiddle_runs hv hlay hheld hfree hmod (by omega) (by omega) hin hpd hnd
        exact ⟨_, k', hrun⟩

end

/-! ## Placement -/

theorem placeRegion_returns {ft : VirtualMemoryType} (ut : VirtualMemoryType) {a n : Nat}
    (hv : VmmList k xs) (hlay : Layout xs) (hheld : .vmm ∈ k.cpu.held) (hmode : k.sh.vmm.kernelMode = true)
    (hft : isFreeType ft = true) (ha : a % pageSize = 0) (hn : 0 < n ∧ n % pageSize = 0)
    (hcan : ∀ d, FoundAt xs a d → RangePasses ft a n d →
      a + n < 2 ^ 64 ∧ CanAllocate (cutsNeeded d a n) k) :
    ∃ r k', (placeRegion ft ut a n).run k = .ok r k' := by
  obtain ⟨d, hfound, hfind⟩ := exists_foundAt hv hlay a
  have hd0 : d.ptr ≠ .null := hv.list.ptr_ne_null hfound.mem
  have hpass := rangePasses_iff ft a n hlay hv hfound.mem
  unfold placeRegion
  rw [run_get_bind]
  simp only [run_kassert_bind, run_ok_bind hfind, run_readDesc_bind]
  split
  · exact ⟨none, k, hmode, hd0, rfl⟩
  · next hyes =>
    have hp := hpass.1 (Bool.eq_false_iff.2 hyes)
    obtain ⟨hfit, hneeded⟩ := hcan d hfound hp
    obtain ⟨htype, hlo, hhi⟩ := hp
    rw [add64_eq hfit] at hhi
    have hd := hlay.ok d hfound.mem
    have hstop := hlay.stop_lt hfound.mem
    have hin := hd.inside hlo (by omega)
    obtain ⟨pre, post, rfl⟩ := List.append_of_mem hfound.mem
    obtain ⟨p, k₁, hcut⟩ :=
      cutDescriptor_returns hv hlay hheld (by rw [htype]; exact hft) hn.2 hlo hhi hin hneeded
    obtain ⟨-, u, f, g, hret⟩ := run_cutDescriptor_ok hv hlay hheld hlo hhi hin hcut
    have hp0 : p ≠ .null := hret.ptr ▸ hret.vmm.list.ptr_ne_null (by simp [cutPieces])
    have hstart : (k₁.sh.descs p).startVaddr = a := by
      rw [← hret.ptr, (hret.vmm.list.fields (d := u) (by simp [cutPieces])).1, hret.start]
    simp only [run_ok_bind hcut, run_readDesc_bind, run_kassert_bind, run_modifyDesc_bind,
      hstart, beq_iff_eq]
    exact ⟨some p, _, hmode, hd0, hp0, ha, hp0, rfl⟩

/-! ## Regions -/

theorem FirstFit.exists_of_mem {n : Nat} (hx : x ∈ xs) (hfit : x.type = .free ∧ n ≤ x.size) :
    ∃ a, FirstFit xs n a := by
  induction xs with
  | nil => cases hx
  | cons y ys ih =>
    by_cases hy : y.type = .free ∧ n ≤ y.size
    · exact ⟨y.start, [], y, ys, rfl, rfl, hy.1, hy.2, by simp⟩
    · rcases List.mem_cons.1 hx with rfl | hx
      · exact (hy hfit).elim
      · obtain ⟨a, pre, d, post, rfl, ha, ht, hle, hpre⟩ := ih hx
        refine ⟨a, y :: pre, d, post, rfl, ha, ht, hle, fun z hz => ?_⟩
        rcases List.mem_cons.1 hz with rfl | hz
        · exact hy
        · exact hpre z hz

theorem cutRegion_returns (hv : VmmList k xs) (hlay : Layout xs) (hheld : .vmm ∈ k.cpu.held)
    (hmod : size % pageSize = 0) (hfit : ∃ x ∈ xs, x.type = .free ∧ size ≤ x.size)
    (hcan : ∀ d ∈ xs, FirstFit xs size d.start → size < d.size → CanAllocate 1 k) :
    ∃ p k', (cutRegion size type up lo).run k = .ok p k' := by
  obtain ⟨pre, d, post, rfl, hfind, hpre, hd⟩ := findFreeOfSize_ok size hv hlay
  have hd0 : d.ptr ≠ .null := hv.list.ptr_ne_null (by simp)
  have hdok := hlay.ok d (by simp)
  have htype := (hv.list.fields (d := d) (by simp)).2.2.2.2
  -- the search ended at an area that fits
  obtain ⟨hfree, hle⟩ : d.type = .free ∧ size ≤ d.size := by
    rcases hd with hd | rfl
    · exact hd
    · obtain ⟨x, hx, hxfit⟩ := hfit
      rcases mem_splice.1 hx with rfl | hx
      · exact hxfit
      · exact (hpre x (by simpa using hx) hxfit).elim
  have hfree' : isFreeType d.type = true := by rw [hfree]; rfl
  obtain ⟨p, k₁, hcut⟩ := cutDescriptorStart_returns hv hlay hheld hfree' hle hmod
    (hcan d (by simp) ⟨pre, d, post, rfl, rfl, hfree, hle, hpre⟩)
  obtain ⟨-, -, u, g, hret⟩ := run_cutDescriptorStart_ok hv hlay hheld hcut
  have hp0 : p ≠ .null := hret.ptr ▸ hret.vmm.list.ptr_ne_null (by simp [cutPieces])
  have hstart : (k₁.sh.descs p).startVaddr = d.start := by
    have hu := (hret.vmm.list.fields (d := u) (by simp [cutPieces])).1
    rw [← hret.ptr, hu, hret.start]
  unfold cutRegion
  simp only [run_ok_bind hfind, run_readDesc_bind, run_check_bind, htype,
    run_ok_bind hcut, run_modifyDesc_bind, run_kassert_bind, Kernel.setDesc_descs,
    update_self, hstart, hdok.start_aligned]
  exact ⟨p, _, hd0, by simp [hfree], hp0, hp0, rfl, hp0, rfl⟩

/-- Without an area that fits the two operations panic: on the type of the last descriptor, or on
its size. -/
theorem cutRegion_panics (hv : VmmList k xs) (hlay : Layout xs)
    (hno : ∀ x ∈ xs, ¬ (x.type = .free ∧ size ≤ x.size)) :
    ∃ e k', (cutRegion size type up lo).run k = .error (.panic e) k' := by
  obtain ⟨pre, d, post, rfl, hfind, -, -⟩ := findFreeOfSize_ok size hv hlay
  have hd0 : d.ptr ≠ .null := hv.list.ptr_ne_null (by simp)
  obtain ⟨-, hsize, -, -, htype⟩ := hv.list.fields (d := d) (by simp)
  have hread : (readDesc d.ptr).run k = .ok (k.sh.descs d.ptr) k := run_readDesc_ok.2 ⟨hd0, rfl, rfl⟩
  unfold cutRegion
  rw [run_ok_bind hfind, run_ok_bind hread, htype]
  by_cases hfree : d.type = .free
  · have hlarge : ¬ size ≤ d.size := fun hle => hno d (by simp) ⟨hfree, hle⟩
    have hcut : (cutDescriptorStart d.ptr size).run k = .error (.panic .failedAssert) k := by
      unfold cutDescriptorStart
      rw [run_ok_bind hread, htype, hsize, run_kassert_pos (by rw [hfree]; rfl)]
      exact run_bind_of_error (run_check_false (by simpa using hlarge))
    rw [run_ok_bind (run_check_true (by simp [hfree]))]
    exact ⟨_, _, run_bind_of_error hcut⟩
  · exact ⟨_, _, run_bind_of_error (run_check_false (by simpa using hfree))⟩

end

end GarbageOS
