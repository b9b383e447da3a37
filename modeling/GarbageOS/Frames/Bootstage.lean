import GarbageOS.Frames.Accounting

/-!
# Frames during the boot stage

Until `is_hal_arch_initialized` only frames below 1 GiB are mapped. The bound is tested when a
frame is taken from a range; a frame from the stack was given out before. The test adds a page
to the start of the range and wraps if that is the last page of the address space.
-/

namespace GarbageOS

open Lib Relation

def InBootstage (x : Nat) : Prop :=
  getBootstageIndentityMappedRAM.startAddress ≤ x ∧
    x + pageSize ≤ getBootstageIndentityMappedRAM.startAddress + getBootstageIndentityMappedRAM.size

theorem inBootstage_iff {x : Nat} : InBootstage x ↔ x + pageSize ≤ GB := by
  unfold InBootstage getBootstageIndentityMappedRAM
  simp

/-- All frames on the stack and outside of the allocator are mapped. -/
structure BootFrames (f : FrameAllocator) (owned : List Nat) : Prop where
  stack : ∃ c, f.frameStack.top = add64 f.frameStack.base (8 * c) ∧
    8 * c ≤ f.frameStack.maxSizeBytes ∧
    ∀ j < c, InBootstage (load f.stackMem (add64 f.frameStack.base (8 * j)))
  max : f.frameStack.maxSizeBytes < 2 ^ 63
  ranges : ∀ i < f.numberOfRanges, pageSize ≤ (f.freeRanges i).size →
    (f.freeRanges i).startAddress + pageSize < 2 ^ 64
  cached : f.cachedMemoryRangeIndex < f.numberOfRanges
  owned : ∀ x ∈ owned, InBootstage x

section

variable {f f' : FrameAllocator} {owned : List Nat} {x : Nat} {u : Unit}

theorem isUsableInBootstage_iff {r : PhysicalMemoryRange} {bytes : Nat} :
    isUsableInBootstage r bytes = true ↔ add64 r.startAddress bytes < GB := by
  simp [isUsableInBootstage, getBootstageIndentityMappedRAM]

section

variable (h : BootFrames f owned)

include h

theorem BootFrames.set_freeFrames (n : Nat) : BootFrames { f with freeFrames := n } owned :=
  { h with }

theorem BootFrames.set_stack {owned' : List Nat} {c top : Nat} {m : Mem}
    (htop : top = add64 f.frameStack.base (8 * c)) (hmax : 8 * c ≤ f.frameStack.maxSizeBytes)
    (hslots : ∀ j < c, InBootstage (load m (add64 f.frameStack.base (8 * j))))
    (howned : ∀ x ∈ owned', InBootstage x) :
    BootFrames (setStackTop top { f with stackMem := m }) owned' :=
  ⟨⟨c, htop, hmax, hslots⟩, h.max, h.ranges, h.cached, howned⟩

theorem BootFrames.pop (hpos : 0 < frameStackCount f.frameStack) :
    BootFrames (setStackTop (sub64 f.frameStack.top 8) f)
      (load f.stackMem (sub64 f.frameStack.top 8) :: owned) := by
  obtain ⟨c, hc, hmax, hslots⟩ := h.stack
  have hroom := h.max
  rw [frameStackCount_eq hc (by omega)] at hpos
  obtain ⟨c, rfl⟩ := Nat.exists_eq_add_one.2 hpos
  have htop : sub64 f.frameStack.top 8 = add64 f.frameStack.base (8 * c) := by
    rw [hc]
    exact sub64_add64_succ _ _
  rw [htop]
  exact h.set_stack rfl (by omega) (fun j hj => hslots j (by omega))
    (List.forall_mem_cons.2 ⟨hslots c (Nat.lt_succ_self c), h.owned⟩)

/-- The test of a range is exact, as nothing wraps. -/
theorem BootFrames.inBootstage_of_served {i : Nat} (hi : i < f.numberOfRanges)
    (hserved : isServed false (f.freeRanges i) = true) :
    InBootstage (f.freeRanges i).startAddress := by
  rw [isServed, Bool.false_or] at hserved
  obtain ⟨hlarge, husable⟩ := Bool.and_eq_true_iff.1 hserved
  have hword := h.ranges i hi (of_decide_eq_true hlarge)
  have hlt := isUsableInBootstage_iff.1 husable
  rw [add64_eq hword] at hlt
  exact inBootstage_iff.2 hlt.le

theorem BootFrames.takeFrom {i : Nat} (hi : f.source false = some i) :
    BootFrames (({ f with cachedMemoryRangeIndex := i } : FrameAllocator).takenFrom i)
      ((f.freeRanges i).startAddress :: owned) := by
  obtain ⟨hin, hserved⟩ := FrameAllocator.source_some hi
  have hlt : i < f.numberOfRanges := hin.elim (fun he => he ▸ h.cached) id
  have hin := h.inBootstage_of_served hlt hserved
  refine ⟨h.stack, h.max, fun j hj hsize => ?_, hlt, List.forall_mem_cons.2 ⟨hin, h.owned⟩⟩
  by_cases hji : j = i
  · -- what is left of the range starts at most at the bound
    rw [inBootstage_iff] at hin
    have hGB : GB = 1073741824 := rfl
    simp only [FrameAllocator.takenFrom, setFreeRange, if_pos hji, pageSize, add64] at hin ⊢
    omega
  · simp only [FrameAllocator.takenFrom, setFreeRange, if_neg hji] at hsize ⊢
    exact h.ranges j hj hsize

theorem BootFrames.take (hrun : (takeFreeFrame false).run f = .ok x f') :
    BootFrames f' (x :: owned) := by
  obtain ⟨g, hg, ⟨hpos, rfl, rfl⟩ | ⟨i, hi, rfl, rfl⟩⟩ := run_takeFreeFrame_ok hrun
  · exact BootFrames.pop (hg ▸ h.set_freeFrames _) hpos
  · exact BootFrames.takeFrom (hg ▸ h.set_freeFrames _) hi

theorem BootFrames.put (hx : x ∈ owned) (hrun : (putFreeFrame x).run f = .ok u f') :
    BootFrames f' (owned.erase x) := by
  obtain ⟨c, hc, hmax, hslots⟩ := h.stack
  have hroom := h.max
  have hin := h.owned x hx
  obtain ⟨hfits, rfl⟩ := run_putFreeFrame_ok hrun
  rw [frameStackSizeBytes_eq hc (by omega), add64_eq (by omega)] at hfits
  have htop : add64 f.frameStack.top 8 = add64 f.frameStack.base (8 * (c + 1)) := by
    rw [hc]
    exact add64_add64_eight _ _
  have hword : x < 2 ^ 64 := by
    have hlt := inBootstage_iff.1 hin
    have hGB : GB = 1073741824 := rfl
    omega
  refine (h.set_freeFrames (add64 f.freeFrames 1)).set_stack htop hfits (fun j hj => ?_)
    fun y hy => h.owned y (List.mem_of_mem_erase hy)
  rcases Nat.lt_succ_iff_lt_or_eq.1 hj with hj | rfl
  · -- the slots below the top are not overwritten
    have hne : add64 f.frameStack.base (8 * j) ≠ f.frameStack.top := by
      rw [hc]
      unfold add64
      omega
    rw [load_store_ne hne]
    exact hslots j hj
  · rw [← hc, load_store_same hword]
    exact hin

end

theorem bootFrames_of_init {ranges : Nat → PhysicalMemoryRange} {n ram : Nat} (hram : ram < 2 ^ 64)
    (hword : ∀ i < n, (ranges i).startAddress < 2 ^ 64 ∧ (ranges i).size < 2 ^ 64)
    (hlast : ∀ i < n, pageSize ≤ (ranges i).size → (ranges i).startAddress + pageSize < 2 ^ 64)
    (hrun : (initFrameAllocator ranges n ram).run f = .ok u f') : BootFrames f' [] := by
  obtain ⟨i, hi, hlarge, husable, rfl⟩ := run_initFrameAllocator_ok hrun
  have hsmall := (neededBytesStackFrame_spec hram).2
  have hlt := isUsableInBootstage_iff.1 husable
  refine ⟨⟨0, ?_, Nat.zero_le _, fun j hj => absurd hj (Nat.not_lt_zero j)⟩, hsmall,
    fun j hj hsize => ?_, hi, fun x hx => absurd hx List.not_mem_nil⟩
  · exact (Nat.mod_eq_of_lt (hword i hi).1).symm
  · by_cases hji : j = i
    · have : (f.startedFrom ranges n (neededBytesStackFrame ram) i).freeRanges j =
          ⟨add64 (ranges i).startAddress (neededBytesStackFrame ram),
            sub64 (ranges i).size (neededBytesStackFrame ram)⟩ := if_pos hji
      rw [this]
      have hGB : GB = 1073741824 := rfl
      simp only [pageSize]
      omega
    · have : (f.startedFrom ranges n (neededBytesStackFrame ram) i).freeRanges j = ranges j :=
        if_neg hji
      rw [this] at hsize ⊢
      exact hlast j hj hsize

end

def BootStep (c c' : FrameClient) : Prop :=
  c.kernel.sh.halArchInitialized = false ∧ FrameStep c c'

theorem BootStep.bootFrames {c c' : FrameClient} (h : BootStep c c')
    (hc : BootFrames c.kernel.sh.frames c.owned) : BootFrames c'.kernel.sh.frames c'.owned := by
  obtain ⟨hhal, hstep⟩ := h
  cases hstep with
  | alloc hrun =>
    have htake := run_allocFrame_ok hrun
    rw [hhal] at htake
    exact hc.take htake
  | dealloc hmem hrun => exact hc.put hmem (run_deallocFrame_ok hrun)
  | other hsame =>
    simp only at hc ⊢
    rw [hsame]
    exact hc

/-- If no range starts in the last page of the address space, all frames that are given out in
the boot stage are mapped. -/
theorem bootstage_frames_mapped {ranges : Nat → PhysicalMemoryRange} {n ram : Nat} {k k₀ k' : Kernel}
    {c : FrameClient} {x : Nat} (hram : ram < 2 ^ 64)
    (hword : ∀ i < n, (ranges i).startAddress < 2 ^ 64 ∧ (ranges i).size < 2 ^ 64)
    (hlast : ∀ i < n, pageSize ≤ (ranges i).size → (ranges i).startAddress + pageSize < 2 ^ 64)
    (hinit : (onFrames (initFrameAllocator ranges n ram)).run k = .ok () k₀)
    (hrun : ReflTransGen BootStep ⟨k₀, []⟩ c) (hhal : c.kernel.sh.halArchInitialized = false)
    (halloc : allocFrame.run c.kernel = .ok x k') : InBootstage x := by
  obtain ⟨f, hf, rfl⟩ := run_onFrames_ok.1 hinit
  have h := @invariant_of_steps _ _ (fun d => BootFrames d.kernel.sh.frames d.owned)
    (fun _ _ hstep hd => hstep.bootFrames hd) _ _ hrun (bootFrames_of_init hram hword hlast hf)
  have htake := run_allocFrame_ok halloc
  rw [hhal] at htake
  exact (h.take htake).owned x List.mem_cons_self

def oneReturned : Kernel := finalState ((deallocFrame (MB + 2 * pageSize)).run oneAllocated)

/-- A frame is allocated, given back, and allocated again. -/
theorem bootstage_frames_mapped_again : ∃ k', allocFrame.run oneReturned =
    .ok (MB + 2 * pageSize) k' ∧ InBootstage (MB + 2 * pageSize) := by
  have hreturn : (deallocFrame (MB + 2 * pageSize)).run oneAllocated = .ok () oneReturned :=
    eq_of_returned (by decide +kernel)
  have halloc := eq_of_returned (a := MB + 2 * pageSize) (r := allocFrame.run oneReturned)
    (by decide +kernel)
  have hone : ∀ a, oneRange a = ⟨MB, MB⟩ := fun _ => rfl
  exact ⟨_, halloc, bootstage_frames_mapped (by decide) (fun i _ => by rw [hone]; decide)
    (fun i _ => by rw [hone]; decide) startedKernel_run
    (.tail (.single ⟨by decide +kernel, .alloc oneAllocated_run⟩)
      ⟨by decide +kernel, .dealloc List.mem_cons_self hreturn⟩)
    (by decide +kernel) halloc⟩

/-- The last page of the address space, and a range that the frame stack takes up. -/
def lastPageRanges : Nat → PhysicalMemoryRange
  | 0 => ⟨2 ^ 64 - pageSize, pageSize⟩
  | _ => ⟨MB, 2 * pageSize⟩

theorem lastPageRanges_free : FreeRanges lastPageRanges 2 where
  aligned := by decide
  word := by decide
  fits := by decide
  disjoint i hi j hj hne x := by
    unfold PhysicalMemoryRange.Contains
    interval_cases i <;> interval_cases j <;> simp [lastPageRanges, pageSize, MB] at hne ⊢ <;> omega

/-- The last page passes the test of the boot stage. -/
theorem exists_unmapped_frame : FreeRanges lastPageRanges 2 ∧ ∃ k₀ k' : Kernel,
    (onFrames (initFrameAllocator lastPageRanges 2 (3 * pageSize))).run staticKernel = .ok () k₀ ∧
    k₀.sh.halArchInitialized = false ∧
    allocFrame.run k₀ = .ok (2 ^ 64 - pageSize) k' ∧ ¬ InBootstage (2 ^ 64 - pageSize) := by
  have hinit := eq_of_returned (a := ())
    (r := (onFrames (initFrameAllocator lastPageRanges 2 (3 * pageSize))).run staticKernel)
    (by decide +kernel)
  refine ⟨lastPageRanges_free, _, _, hinit, by decide +kernel,
    eq_of_returned (by decide +kernel), ?_⟩
  rw [inBootstage_iff]
  decide

end GarbageOS
