import GarbageOS.Vmm.ExactGrowth
import GarbageOS.Vmm.Progress

/-!
# Stacks that grow on faults

An access below the usable range of a stack faults, and the handler moves the start of the range
64 KiB down if a page of padding is left then. The access is run again until its page is mapped
or the handler gives up.
-/

namespace GarbageOS

open Lib Relation

def Kernel.isMapped (k : Kernel) (a : Nat) : Bool :=
  (getPhysicalAddress k.sh.pmem k.sh.vmm.pagingStructure a).mmapPresent

/-- What `page_fault` does for a page that is not present and belongs to no identity mapping. -/
def stackFault (a : Nat) : KM Bool := do
  let p ← getVmemFromAddress a
  pageFaultCheckStackOverflow ⟨a, p, true⟩

/-- The access to `a` faults `n` times, and each of the faults is solved. -/
inductive FaultsSolved (a : Nat) : Nat → Kernel → Kernel → Prop where
  | zero (k : Kernel) : FaultsSolved a 0 k k
  | succ {n : Nat} {k t k' : Kernel} (h : FaultsSolved a n k t) (habsent : t.isMapped a = false)
      (hrun : (stackFault a).run t = .ok true k') : FaultsSolved a (n + 1) k k'

section

variable {k k' : Kernel} {xs : List Area} {x : Area} {owned all : List Nat} {a n : Nat}

/-! ## One fault -/

/-- The handle is that of the only area that contains the address, paddings included, and invalid
exactly if there is none. -/
theorem getVmemFromAddress_exact (hl : DescList k.sh.descs xs)
    (hh : k.sh.vmm.vmListHead = headPtr xs) (hlay : Layout xs) (a : Nat) :
    ∃ p, (getVmemFromAddress a).run k = .ok p k ∧
      (p = .null ↔ ∀ x ∈ xs, ¬ (x.start ≤ a ∧ a < x.stop)) ∧
      ∀ x ∈ xs, p = x.ptr ↔ x.start ≤ a ∧ a < x.stop := by
  obtain ⟨p, hrun, ⟨rfl, hnone⟩ | ⟨x, hx, rfl, hin⟩⟩ := run_getVmemFromAddress a hl hh hlay
  · exact ⟨_, hrun, iff_of_true rfl hnone, fun y hy =>
      iff_of_false (hl.ptr_ne_null hy).symm (hnone y hy)⟩
  · refine ⟨_, hrun, iff_of_false (hl.ptr_ne_null hx) fun h => h x hx hin, fun y hy => ?_⟩
    constructor
    · intro hp
      obtain rfl := List.inj_on_of_nodup_map hl.nodup hx hy hp
      exact hin
    · intro hiny
      rw [hlay.area_eq hx hy hin hiny]

theorem getVmemFromAddress_exact_newSpace :
    (getVmemFromAddress kernelVmemStart).run newSpace = .ok (.early 1) newSpace := by
  obtain ⟨h, -⟩ := initializeKernelVMM_ok twoStructures_before newSpace_run
  obtain ⟨p, hrun, -, hp⟩ := getVmemFromAddress_exact h.vmm.list h.vmm.head h.layout kernelVmemStart
  -- the second area starts with the kernel part
  obtain rfl : p = .early 1 :=
    (hp _ (List.mem_cons_of_mem _ List.mem_cons_self)).2 ⟨Nat.le_refl _, by decide⟩
  exact hrun

section

variable (hi : VmmInv k xs) (hx : x ∈ xs)

include hi hx

theorem VmmInv.getVmemFromAddress_returns (ha : x.start ≤ a ∧ a < x.stop) :
    (getVmemFromAddress a).run k = .ok x.ptr k := by
  obtain ⟨q, hq, ⟨-, hnone⟩ | ⟨y, hy, rfl, hya⟩⟩ := run_getVmemFromAddress a hi.vmm.list
    hi.vmm.head hi.layout
  · exact (hnone x hx ha).elim
  · obtain rfl := hi.layout.area_eq hx hy ha hya
    exact hq

/-- What the handler decides on is the padding. -/
theorem VmmInv.run_stackFault_ok (htype : x.type = .stack) (hkio : k.sh.kioInitialized = true)
    (ha : x.start ≤ a ∧ a < x.base) {b : Bool} :
    (stackFault a).run k = .ok b k' ↔
      (if kernelStackExpansionStep + minimumStackPadding ≤ x.lower then
        tryExpandWith kmalloc .bottom x.ptr kernelStackExpansionStep false
      else pure false).run k = .ok b k' := by
  have hok := hi.layout.ok x hx
  have hne := hi.vmm.list.ptr_ne_null hx
  obtain ⟨-, -, -, hlower, htype'⟩ := hi.vmm.list.fields hx
  have hin : x.start ≤ a ∧ a < x.stop := by
    have hpad := hok.padding
    unfold Area.base at ha
    unfold Area.stop
    omega
  unfold stackFault
  rw [run_ok_bind (hi.getVmemFromAddress_returns hx hin)]
  unfold pageFaultCheckStackOverflow
  dsimp only
  rw [if_neg (by simp [isVmemhandleInvalid, hne]), run_readDesc_bind, htype', hlower,
    (hi.layout.noPadding hi.vmm hx).1, if_pos (by simp [htype, ha.2]), run_get_bind, run_check_bind]
  simp only [remainingPadding_iff (hi.lower_lt hx), hkio, true_and]
  exact and_iff_right hne

theorem VmmInv.stackFault_cases (ha : x.start ≤ a ∧ a < x.stop)
    (hrun : (stackFault a).run k = .ok true k') :
    kernelStackExpansionStep + minimumStackPadding ≤ x.lower ∧
      Expands .bottom k k' xs x kernelStackExpansionStep := by
  unfold stackFault at hrun
  rw [run_ok_bind (hi.getVmemFromAddress_returns hx ha)] at hrun
  rcases stackOverflow_cases hi hx rfl hrun with ⟨hno, -⟩ | ⟨-, -, -, -, -, hroom, he⟩
  · cases hno
  · exact ⟨hroom, he⟩

theorem VmmInv.stackFault_solved {m : Nat} (htype : x.type = .stack)
    (hkio : k.sh.kioInitialized = true) (ha : x.start ≤ a ∧ a < x.base)
    (hroom : kernelStackExpansionStep + minimumStackPadding ≤ x.lower)
    (hframes : FramesLeft (16 * 4 + m) k) :
    ∃ k', (stackFault a).run k = .ok true k' ∧ FramesLeft m k' := by
  have hround : roundUpToPage kernelStackExpansionStep = kernelStackExpansionStep := by decide
  have hfit : roundUpToPage kernelStackExpansionStep ≤ Side.bottom.room x := by
    rw [hround]
    exact (Nat.le_add_right _ _).trans hroom
  have hacq : (acquireIf false).run k = .ok false k := rfl
  obtain ⟨k', hrun, hleft⟩ := hi.tryExpand_granted hx (by rw [htype]; rfl) hfit hacq rfl
    (by rw [releaseIf, onlyIf_neg (by decide)]; rfl) (DescEffect.setDesc _ _ _) hframes
  refine ⟨k', ?_, hleft⟩
  rw [hi.run_stackFault_ok hx htype hkio ha, if_pos hroom]
  exact hrun

end

/-! ## Several faults -/

theorem Side.grow_bottom_add (m n : Nat) (x : Area) :
    Side.bottom.grow n (Side.bottom.grow m x) = Side.bottom.grow (m + n) x := by
  simp only [Side.grow, Nat.sub_sub]

theorem Side.base_grow_bottom (hle : n ≤ x.lower) : (Side.bottom.grow n x).base + n = x.base := by
  simp only [Side.grow, Area.base]
  omega

/-- A stack with a lower padding of whole pages. -/
structure PagedStack (x : Area) : Prop where
  type : x.type = .stack
  ok : x.Ok
  lower : x.lower % pageSize = 0

/-- The usable pages of a stack that has grown by whole pages, below its old start. -/
theorem PagedStack.hasPage_grow_iff {v : Nat} (hs : PagedStack x) (hle : n ≤ x.lower)
    (hn : n % pageSize = 0) (hwhole : (Side.bottom.grow n x).length % pageSize = 0)
    (hv : x.start ≤ v ∧ v < x.base) :
    (Side.bottom.grow n x).HasPage (v / pageSize) ↔ x.base ≤ v + n := by
  have hpad := hs.ok.padding
  have hstart := hs.ok.start_aligned
  have hlower := hs.lower
  simp only [Side.grow, Area.HasPage, InPages, Area.base, Area.length, pageSize]
    at hv hn hlower hstart hwhole ⊢
  omega

/-- The state after `n` faults below the stack `x` that were solved. -/
structure StackAfter (x : Area) (n : Nat) (k : Kernel) (all : List Nat) : Prop where
  grown : ∃ xs owned, Mapped False 1 k xs owned all ∧
    Side.bottom.grow (n * kernelStackExpansionStep) x ∈ xs
  guard : n = 0 ∨ n * kernelStackExpansionStep + minimumStackPadding ≤ x.lower
  frames : FramesLeft ((x.lower - n * kernelStackExpansionStep) / pageSize * 4) k
  kio : k.sh.kioInitialized = true

theorem StackAfter.le_lower (h : StackAfter x n k all) : n * kernelStackExpansionStep ≤ x.lower := by
  rcases h.guard with rfl | hguard
  · omega
  · omega

theorem StackAfter.isMapped_iff {v : Nat} (h : StackAfter x n k all) (hs : PagedStack x)
    (hv : x.start ≤ v ∧ v < x.base) :
    k.isMapped v = true ↔ x.base ≤ v + n * kernelStackExpansionStep := by
  obtain ⟨xs, owned, hm, hx⟩ := h.grown
  have hle := h.le_lower
  have hmod : n * kernelStackExpansionStep % pageSize = 0 :=
    Nat.mod_eq_zero_of_dvd ((show pageSize ∣ kernelStackExpansionStep by decide).mul_left n)
  generalize n * kernelStackExpansionStep = m at hx hle hmod ⊢
  obtain ⟨-, hstart, hsize, htype'⟩ := @Side.grow_same .bottom m x
  rw [hs.type] at htype'
  have hin : (Side.bottom.grow m x).start ≤ v ∧ v < (Side.bottom.grow m x).stop := by
    have hpad := hs.ok.padding
    rw [Area.stop, hstart, hsize]
    unfold Area.base at hv
    omega
  unfold Kernel.isMapped
  rw [hm.area_present_iff hx (by rw [htype']; rfl) hin]
  exact hs.hasPage_grow_iff hle hmod (hm.whole _ hx (by rw [htype']; rfl)) hv

theorem Expands.kioInitialized {side : Side} (h : Expands side k k' xs x n) :
    k'.sh.kioInitialized = k.sh.kioInitialized := by
  obtain ⟨-, k₁, -, -, heff, hrun⟩ := h.grows
  rw [(PagingEffect.of_run hrun).eq, heff.eq]

section

variable (h : StackAfter x n k all) (hs : PagedStack x)
  (ha : x.start ≤ a ∧ a + n * kernelStackExpansionStep < x.base)

include h hs ha

theorem StackAfter.area :
    ∃ xs owned y, Mapped False 1 k xs owned all ∧ y ∈ xs ∧
      y = Side.bottom.grow (n * kernelStackExpansionStep) x ∧ y.type = .stack ∧
      y.lower + n * kernelStackExpansionStep = x.lower ∧ (y.start ≤ a ∧ a < y.base) ∧ a < y.stop := by
  obtain ⟨xs, owned, hm, hx⟩ := h.grown
  have hle := h.le_lower
  generalize n * kernelStackExpansionStep = m at hx hle ha ⊢
  have hpad := hs.ok.padding
  have hbase := Side.base_grow_bottom hle
  obtain ⟨-, hstart, hsize, htype'⟩ := @Side.grow_same .bottom m x
  refine ⟨xs, owned, _, hm, hx, rfl, htype'.trans hs.type, Nat.sub_add_cancel hle, ?_⟩
  rw [Area.stop, hstart, hsize]
  unfold Area.base at ha hbase ⊢
  omega

theorem StackAfter.step (hrun : (stackFault a).run k = .ok true k') :
    StackAfter x (n + 1) k' all := by
  obtain ⟨xs, owned, y, hm, hy, hgrow, hytype, hlower, hya, hystop⟩ := h.area hs ha
  obtain ⟨hroom, he⟩ := hm.toVmmInv.stackFault_cases hy ⟨hya.1, hystop⟩ hrun
  have hguard : (n + 1) * kernelStackExpansionStep + minimumStackPadding ≤ x.lower := by
    rw [Nat.add_one_mul]
    omega
  refine ⟨?_, .inr hguard, ?_, he.kioInitialized.trans h.kio⟩
  · obtain ⟨xs', owned', hr, hm'⟩ := hm.expand (Nat.one_dvd _) (by decide) he
    obtain ⟨pre, post, -, rfl⟩ := hr.places
    refine ⟨_, owned', hm', ?_⟩
    rw [Nat.add_one_mul, ← Side.grow_bottom_add, ← hgrow]
    simp
  · have hframes : FramesLeft (16 * 4 +
        (x.lower - (n + 1) * kernelStackExpansionStep) / pageSize * 4) k := by
      refine affords_framesLeft.le h.frames ?_
      have hstep : kernelStackExpansionStep = 65536 := by decide
      rw [hstep] at hguard ⊢
      simp only [pageSize]
      omega
    obtain ⟨t, hrun', hleft⟩ := hm.toVmmInv.stackFault_solved hy hytype h.kio hya hroom hframes
    rw [hrun] at hrun'
    cases hrun'
    exact hleft

end

theorem StackAfter.not_reached (h : StackAfter x n k all) (hs : PagedStack x)
    (ha : x.start ≤ a ∧ a < x.base) (habsent : k.isMapped a = false) :
    x.start ≤ a ∧ a + n * kernelStackExpansionStep < x.base := by
  refine ⟨ha.1, Nat.lt_of_not_le fun hle => ?_⟩
  rw [(h.isMapped_iff hs ha).2 hle] at habsent
  cases habsent

theorem FaultsSolved.after (h : FaultsSolved a n k k') (h₀ : StackAfter x 0 k all)
    (hs : PagedStack x) (ha : x.start ≤ a ∧ a < x.base) : StackAfter x n k' all := by
  induction h with
  | zero => exact h₀
  | succ _ habsent hrun ih =>
    exact (ih h₀).step hs ((ih h₀).not_reached hs ha habsent) hrun

end

/-! ## Runs -/

/-- `init_kio`, as far as the page fault handler sees it. -/
def Kernel.initKio (k : Kernel) : Kernel := { k with sh := { k.sh with kioInitialized := true } }

theorem Mapped.initKio {full : Prop} {g : Nat} {k : Kernel} {xs : List Area} {owned all : List Nat}
    (h : Mapped full g k xs owned all) : Mapped full g k.initKio xs owned all := by
  have hi : VmmInv k.initKio xs :=
    ⟨⟨h.vmm.list, h.vmm.head, { h.vmm.pool with }⟩, h.layout, h.quiet⟩
  exact h.congr ⟨hi, h.mode, h.held, h.whole, h.low⟩ rfl rfl rfl

end GarbageOS
