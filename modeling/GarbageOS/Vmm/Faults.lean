import GarbageOS.Vmm.Ops
import GarbageOS.Vmm.PageFault

/-!
# Page faults on the address space

`page_fault` looks up the area of the faulting address. A fault in an identity mapping
loads pages, one in the lower padding of a stack grows the stack; every other fault is
not solved.
-/

namespace GarbageOS

open Lib

/-- Only the locks of the CPU and the flag of the page fault handler change. -/
structure LockEffect (k k' : Kernel) : Prop where
  eq : k' =
    { k with
      cpu := { k.cpu with held := k'.cpu.held, interrupts := k'.cpu.interrupts }
      sh := { k.sh with servicingPageFault := k'.sh.servicingPageFault } }

section

variable {k k' : Kernel} {xs : List Area} {x : Area} {info : PageFaultInfo} {b : Bool} {p : DescPtr}

theorem VmmInv.locks (h : VmmInv k xs) (heff : LockEffect k k') : VmmInv k' xs := by
  rw [heff.eq]
  exact ⟨⟨h.vmm.list, h.vmm.head, { h.vmm.pool with }⟩,
    h.layout, h.quiet⟩

theorem run_getVmemFromAddress (a : Nat) (hl : DescList k.sh.descs xs)
    (hh : k.sh.vmm.vmListHead = headPtr xs) (hlay : Layout xs) :
    ∃ p, (getVmemFromAddress a).run k = .ok p k ∧
      ((p = .null ∧ ∀ x ∈ xs, ¬ (x.start ≤ a ∧ a < x.stop)) ∨
        ∃ x ∈ xs, p = x.ptr ∧ x.start ≤ a ∧ a < x.stop) := by
  obtain ⟨pre, d, post, hxs, hfind, hpre, hd⟩ := run_findFromHead hl hh hlay
    fun d => a ≥ d.startVaddr && a < d.endVaddr
  have htest : ∀ x ∈ xs, (a ≥ (k.sh.descs x.ptr).startVaddr &&
      a < (k.sh.descs x.ptr).endVaddr : Bool) = decide (x.start ≤ a ∧ a < x.stop) := by
    intro x hx
    rw [hlay.endVaddr hl hx, (hl.fields hx).1, Bool.eq_iff_iff]
    simp
  have hmem : d ∈ xs := by simp [hxs]
  have hd0 : d.ptr ≠ .null := hl.ptr_ne_null hmem
  -- an address outside the last area is in none
  have hnone : ¬ (d.start ≤ a ∧ a < d.stop) → ∀ x ∈ xs, ¬ (x.start ≤ a ∧ a < x.stop) := by
    intro hout x hx
    rw [htest d hmem, decide_eq_true_eq] at hd
    obtain rfl := hd.resolve_left hout
    rw [hxs, List.mem_append, List.mem_singleton] at hx
    rcases hx with hx' | rfl
    · have := hpre x hx'
      rw [htest x (by simp [hxs, hx'])] at this
      exact of_decide_eq_false this
    · exact hout
  unfold getVmemFromAddress
  simp only [run_ok_bind hfind, run_readDesc_bind, hlay.endVaddr hl hmem, (hl.fields hmem).1]
  split
  · exact ⟨_, ⟨hd0, rfl⟩, .inl ⟨rfl, hnone (by omega)⟩⟩
  · split
    · exact ⟨_, ⟨hd0, rfl⟩, .inl ⟨rfl, hnone (by omega)⟩⟩
    · exact ⟨_, ⟨hd0, rfl⟩, .inr ⟨d, hmem, rfl, by omega, by omega⟩⟩

/-! ## Identity mappings -/

/-- The first address that the handler maps, and how many pages. -/
def loadStart (a : Nat) : Nat := sub64 a (pageFaultAdditionalPageLoad / 2)

def loadCount (a : Nat) : Nat :=
  addressPageCount (loadStart a)
    (add64 (loadStart a) ((1 + pageFaultAdditionalPageLoad) * pageSize))

theorem identityMapLoad_cases (hi : VmmInv k xs) (hx : x ∈ xs) (hp : info.faultVmem = x.ptr)
    (h : (pageFaultCheckIdentityMapLoad info).run k = .ok b k') :
    (b = false ∧ k' = k ∧ ¬ (x.type = .identityMap ∧ info.pageNotPresent = true)) ∨
      (b = true ∧ x.type = .identityMap ∧ info.pageNotPresent = true ∧
        (mapIdentityPages (loadStart info.faultAddress) (loadCount info.faultAddress)).run k =
          .ok () k') := by
  have hne := hi.vmm.list.ptr_ne_null hx
  unfold pageFaultCheckIdentityMapLoad getVmemType at h
  rw [if_neg (by simp [isVmemhandleInvalid, hp, hne]), bind_assoc, run_readDesc_bind, pure_bind,
    hp, (hi.vmm.list.fields hx).2.2.2.2] at h
  obtain ⟨-, h⟩ := h
  split at h
  · next hc =>
    obtain ⟨_, k₁, hload, h⟩ := run_bind_ok.1 h
    have hq := (hi.paging (PagingEffect.of_run hload)).quiet
    rw [run_ok_bind (shootdownRange_uninitialized hq)] at h
    cases h
    have hc' : x.type = .identityMap ∧ info.pageNotPresent = true := by simpa using hc
    exact .inr ⟨rfl, hc'.1, hc'.2, hload⟩
  · next hc =>
    cases h
    exact .inl ⟨rfl, rfl, by simpa using hc⟩

/-! ## Stacks -/

/-- What the handler computes of the lower padding, for a padding that is no negative number. -/
theorem remainingPadding_iff {lower : Nat} (h : lower < 2 ^ 63) :
    toInt64 (sub64 lower kernelStackExpansionStep) ≥ minimumStackPadding ↔
      kernelStackExpansionStep + minimumStackPadding ≤ lower := by
  have h1 : kernelStackExpansionStep = 65536 := by decide
  have h2 : minimumStackPadding = 4096 := by decide
  rw [h1, h2]
  unfold toInt64 sub64
  split <;> omega

theorem VmmInv.lower_lt (hi : VmmInv k xs) (hx : x ∈ xs) : x.lower < 2 ^ 63 := by
  have hpad := (hi.layout.ok x hx).padding
  have hpart := (hi.layout.ok x hx).inPart
  have hstop := hi.layout.stop_lt hx
  have h1 := kernelVmemStart_eq
  have h2 := identityMapVmemEnd_eq
  unfold Area.InPart at hpart
  unfold Area.stop at hpart hstop
  omega

theorem stackOverflow_cases (hi : VmmInv k xs) (hx : x ∈ xs) (hp : info.faultVmem = x.ptr)
    (h : (pageFaultCheckStackOverflow info).run k = .ok b k') :
    (b = false ∧ k' = k ∧ ¬ (x.type = .stack ∧ info.faultAddress < x.base ∧
        info.pageNotPresent = true ∧ kernelStackExpansionStep + minimumStackPadding ≤ x.lower)) ∨
      (b = true ∧ x.type = .stack ∧ info.faultAddress < x.base ∧ info.pageNotPresent = true ∧
        k.sh.kioInitialized = true ∧ kernelStackExpansionStep + minimumStackPadding ≤ x.lower ∧
        Expands .bottom k k' xs x kernelStackExpansionStep) := by
  have hne := hi.vmm.list.ptr_ne_null hx
  obtain ⟨-, -, -, hlower, htype⟩ := hi.vmm.list.fields hx
  have hlow := hi.lower_lt hx
  unfold pageFaultCheckStackOverflow at h
  rw [if_neg (by simp [isVmemhandleInvalid, hp, hne]), hp, run_readDesc_bind, htype, hlower,
    (hi.layout.noPadding hi.vmm hx).1] at h
  obtain ⟨-, h⟩ := h
  split at h
  · next hc =>
    rw [run_get_bind, run_check_bind] at h
    obtain ⟨hkio, h⟩ := h
    have hc' : (x.type = .stack ∧ info.faultAddress < x.base) ∧ info.pageNotPresent = true := by
      simpa using hc
    simp only [remainingPadding_iff hlow] at h
    split at h
    · next hroom =>
      have hround : roundUpToPage kernelStackExpansionStep = kernelStackExpansionStep := by decide
      have hroom' : kernelStackExpansionStep ≤ x.lower :=
        (Nat.le_add_right _ _).trans hroom
      have hcases := tryExpandWith_unlocked_cases h
      unfold Side.Refuses at hcases
      rw [htype, hc'.1.1, Side.padding_eq hi.vmm hx, hround] at hcases
      rcases hcases with ⟨-, -, hno | hno⟩ | ⟨rfl, -, -, k₁, hpages, hshoot⟩
      · cases hno
      · have hno' : x.lower < kernelStackExpansionStep := hno
        omega
      · refine .inr ⟨rfl, hc'.1.1, hc'.1.2, hc'.2, hkio, hroom, ?_⟩
        exact hi.expands hx (by rw [hc'.1.1]; rfl) hroom' (DescEffect.setDesc _ _ _) rfl hpages hshoot
    · next hroom =>
      cases h
      exact .inl ⟨rfl, rfl, fun hall => hroom hall.2.2.2⟩
  · next hc =>
    cases h
    refine .inl ⟨rfl, rfl, fun hall => hc ?_⟩
    simp [hall.1, hall.2.1, hall.2.2.1]

/-! ## `page_fault` -/

/-- What a handled page fault did. -/
inductive FaultSolved (a : Nat) (k k' : Kernel) (xs : List Area) : Prop where
  | loaded (x : Area) (hx : x ∈ xs) (hin : x.start ≤ a ∧ a < x.stop) (htype : x.type = .identityMap)
      (hrun : (mapIdentityPages (loadStart a) (loadCount a)).run k = .ok () k')
  | grown (x : Area) (hx : x ∈ xs) (hin : x.start ≤ a ∧ a < x.base) (htype : x.type = .stack)
      (hroom : kernelStackExpansionStep + minimumStackPadding ≤ x.lower)
      (hgrows : Expands .bottom k k' xs x kernelStackExpansionStep)

theorem run_pageFaultSolve_ok (hi : VmmInv k xs) (hx : x ∈ xs) (hp : info.faultVmem = x.ptr)
    (hin : x.start ≤ info.faultAddress ∧ info.faultAddress < x.stop)
    (h : (pageFaultSolve info).run k = .ok true k') : FaultSolved info.faultAddress k k' xs := by
  unfold pageFaultSolve at h
  obtain ⟨b, k₁, hload, hrest⟩ := run_bind_ok.1 h
  rcases identityMapLoad_cases hi hx hp hload with ⟨rfl, rfl, -⟩ | ⟨rfl, htype, -, hrun⟩
  · rw [if_neg (by decide)] at hrest
    rcases stackOverflow_cases hi hx hp hrest with ⟨hb, -⟩ | ⟨-, htype, hlow, -, -, hroom, hgrows⟩
    · cases hb
    · exact .grown x hx ⟨hin.1, hlow⟩ htype hroom hgrows
  · rw [if_pos rfl] at hrest
    cases hrest
    exact .loaded x hx hin htype hrun

theorem pageFault_cases {a e : Nat} {u : Unit} (hi : VmmInv k xs)
    (h : (pageFault a e).run k = .ok u k') :
    .vmm ∉ k.cpu.held ∧ ∃ k₀ k₁, LockEffect k k₀ ∧ k₀.cpu.held = .vmm :: k.cpu.held ∧
      FaultSolved a k₀ k₁ xs ∧ LockEffect k₁ k' ∧ k'.cpu.held = k₁.cpu.held.erase .vmm := by
  rw [show pageFault a e = pageFault (Fault.mk a e).address (Fault.mk a e).error from rfl,
    pageFault_eq] at h
  obtain ⟨_, t, henter, h⟩ := run_bind_ok.1 h
  obtain ⟨_, t', hresolve, hleave⟩ := run_bind_ok.1 h
  -- the flag is set
  unfold pageFaultEnter acquireSpinlock releaseSpinlock at henter
  rw [run_check_bind] at henter
  obtain ⟨_, _, hlock, henter⟩ := run_bind_ok.1 henter.2
  obtain ⟨-, rfl⟩ := run_takeLock_ok.1 hlock
  rw [run_get_bind, run_check_bind, run_modifyShared_bind, run_modifyCpu] at henter
  cases henter.2
  -- the fault is solved with the lock of the virtual memory manager held
  unfold pageFaultResolve acquireSpinlock releaseSpinlock at hresolve
  obtain ⟨_, k₀, hlock', hresolve⟩ := run_bind_ok.1 hresolve
  obtain ⟨hvmm, hk₀⟩ := run_takeLock_ok.1 hlock'
  have heff₀ : LockEffect k k₀ := ⟨by rw [hk₀]⟩
  have hheld₀ : k₀.cpu.held = .vmm :: k.cpu.held := by rw [hk₀]; simp
  have hi₀ := hi.locks heff₀
  obtain ⟨p, hget, hfound⟩ := run_getVmemFromAddress a hi₀.vmm.list hi₀.vmm.head hi₀.layout
  rw [run_ok_bind hget] at hresolve
  obtain ⟨b, k₁, hsolve, hresolve⟩ := run_bind_ok.1 hresolve
  rw [run_check_bind, run_modifyCpu] at hresolve
  obtain ⟨rfl, hresolve⟩ := hresolve
  cases hresolve
  have hsolved : FaultSolved a k₀ k₁ xs := by
    rcases hfound with ⟨rfl, -⟩ | ⟨x, hx, rfl, hin⟩
    · cases hsolve
    · exact run_pageFaultSolve_ok hi₀ hx rfl hin hsolve
  -- the flag is cleared
  unfold pageFaultLeave acquireSpinlock releaseSpinlock at hleave
  obtain ⟨_, _, hlock'', hleave⟩ := run_bind_ok.1 hleave
  obtain ⟨-, rfl⟩ := run_takeLock_ok.1 hlock''
  rw [run_modifyShared_bind, run_modifyCpu] at hleave
  cases hleave
  refine ⟨by simpa using hvmm, k₀, k₁, heff₀, hheld₀, hsolved, ⟨rfl⟩, ?_⟩
  simp

end

end GarbageOS
