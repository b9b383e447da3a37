import GarbageOS.Vmm.Pages
import GarbageOS.Vmm.Progress
import GarbageOS.Vmm.Runs

/-!
# First fit

`memory_map` and `allocate_kernel_virtual_memory` take the first bytes of the free area with the
lowest address among those that are large enough, and panic if there is none. They also panic,
after the area was cut, on a size that is not made of whole pages without its padding.
-/

namespace GarbageOS

open Lib Relation

/-! ## The lowest area that fits -/

def LowestFit (xs : List Area) (n : Nat) (d : Area) : Prop :=
  (d ∈ xs ∧ d.type = .free ∧ n ≤ d.size) ∧
    ∀ x ∈ xs, x.type = .free → n ≤ x.size → d.start ≤ x.start

def NoFit (xs : List Area) (n : Nat) : Prop := ∀ x ∈ xs, ¬ (x.type = .free ∧ n ≤ x.size)

section

variable {xs : List Area} {n a : Nat} {d d' : Area}

theorem Layout.eq_of_start (hlay : Layout xs) (hd : d ∈ xs) (hd' : d' ∈ xs)
    (h : d.start = d'.start) : d = d' := by
  have hinj : (xs.map Area.start).Nodup := hlay.increasing.imp Nat.ne_of_lt
  exact List.inj_on_of_nodup_map hinj hd hd' h

theorem FirstFit.lowest (h : FirstFit xs n a) (hlay : Layout xs) :
    ∃ d, d.start = a ∧ LowestFit xs n d := by
  obtain ⟨pre, d, post, rfl, rfl, hfree, hle, hpre⟩ := h
  have hinc := hlay.increasing
  rw [List.map_append, List.map_cons, List.pairwise_append, List.pairwise_cons] at hinc
  refine ⟨d, rfl, ⟨by simp, hfree, hle⟩, fun x hx hxfree hxle => ?_⟩
  rcases List.mem_append.1 hx with hx | hx
  · exact (hpre x hx ⟨hxfree, hxle⟩).elim
  · rcases List.mem_cons.1 hx with rfl | hx
    · exact Nat.le_refl _
    · exact Nat.le_of_lt (hinc.2.1.1 _ (List.mem_map_of_mem hx))

theorem LowestFit.unique (h : LowestFit xs n d) (h' : LowestFit xs n d') (hlay : Layout xs) :
    d = d' := by
  obtain ⟨⟨hd, hfree, hle⟩, hlow⟩ := h
  obtain ⟨⟨hd', hfree', hle'⟩, hlow'⟩ := h'
  exact hlay.eq_of_start hd hd'
    (Nat.le_antisymm (hlow d' hd' hfree' hle') (hlow' d hd hfree hle))

theorem firstFit_iff (hlay : Layout xs) (hd : d ∈ xs) :
    FirstFit xs n d.start ↔ LowestFit xs n d := by
  constructor
  · intro h
    obtain ⟨d', hstart, hlow⟩ := h.lowest hlay
    obtain rfl := hlay.eq_of_start hd hlow.1.1 hstart.symm
    exact hlow
  · intro h
    obtain ⟨a, hfirst⟩ := FirstFit.exists_of_mem h.1.1 h.1.2
    obtain ⟨d', rfl, hlow⟩ := hfirst.lowest hlay
    rwa [h.unique hlow hlay]

theorem noFit_or_lowestFit (hlay : Layout xs) (n : Nat) : NoFit xs n ∨ ∃ d, LowestFit xs n d := by
  by_cases hfit : ∃ x ∈ xs, x.type = .free ∧ n ≤ x.size
  · obtain ⟨x, hx, hxfit⟩ := hfit
    obtain ⟨a, hfirst⟩ := FirstFit.exists_of_mem hx hxfit
    obtain ⟨d, -, hlow⟩ := hfirst.lowest hlay
    exact .inr ⟨d, hlow⟩
  · exact .inl fun x hx hxfit => hfit ⟨x, hx, hxfit⟩

end

/-! ## Requests -/

namespace Request

/-- The frames for the page tables, and for the pages of new memory. -/
def Budget : Request → Kernel → Prop
  | memoryMap _ size _, k => FramesLeft (size / pageSize * 3) k
  | allocate size .., k => FramesLeft (size / pageSize * 4) k

section

variable {r : Request} {k k' : Kernel} {xs : List Area} {p : VMemHandle}

theorem run_before (ht : r.Typed) (hmod : r.padded % pageSize = 0) : r.before.run k = .ok () k := by
  cases r with
  | memoryMap => rfl
  | allocate size type upper lower =>
    have ht' : type.isBacked = true := ht
    unfold before
    rw [run_kassert_bind, run_check_ok]
    refine ⟨by simpa using hmod, ?_, rfl⟩
    revert ht'
    cases type <;> decide

theorem run_checks (hmod : r.padded % pageSize = 0) (hpage : r.PageAddress) :
    r.checks.run k = .ok () k := by
  cases r with
  | memoryMap =>
    unfold checks
    rw [run_kassert_bind, run_kassert_ok]
    exact ⟨by simpa using hmod, by simpa [PageAddress] using hpage, rfl⟩
  | allocate => rfl

theorem run_checks_panics (hmod : r.padded % pageSize = 0) (hpage : ¬ r.PageAddress) :
    r.checks.run k = .error (.panic .failedAssert) k := by
  cases r with
  | memoryMap paddr size flags =>
    unfold checks
    rw [run_kassert_pos (by simpa using hmod)]
    exact run_check_false (by simpa [PageAddress] using hpage)
  | allocate => exact (hpage trivial).elim

/-! ### What a call does -/

theorem run_call_lowest (h : VmmState k xs) (ht : r.Typed) (hn : 0 < r.padded ∧ r.padded < 2 ^ 64)
    (hrun : r.call.run k = .ok p k') :
    .vmm ∉ k.cpu.held ∧ r.PageAddress ∧ r.size % pageSize = 0 ∧
      ∃ x xs', LowestFit xs r.padded x ∧ (r.padded < x.size → CanAllocate 1 (k.locked .vmm)) ∧
        Reserved xs (r.area p x.start) xs' ∧ VmmState k' xs' := by
  obtain ⟨hl, hpage, hmod, x, xs', t, hx, hr, hmap⟩ := run_call_ok h.toVmmInv ht hn hrun
  have hlow := (firstFit_iff h.layout hx.mem).1 hx.first
  exact ⟨hl, hpage, hmod, x, xs', hlow, hx.rest, hr.reserved,
    (h.reserves hr (used_area ht hmod _ _)).paging (PagingEffect.of_run hmap)⟩

/-! ### When it returns -/

theorem reserve_returns (h : VmmState k xs) (ht : r.Typed)
    (hn : 0 < r.padded ∧ r.padded % pageSize = 0) (hpage : r.PageAddress) {x : Area}
    (hlow : LowestFit xs r.padded x) (hcan : r.padded < x.size → CanAllocate 1 (k.locked .vmm)) :
    ∃ q t, r.reserve.run (k.locked .vmm) = .ok q t := by
  have hv : VmmList (k.locked .vmm) xs := h.vmm.congr_sh rfl
  have hcan' : ∀ d ∈ xs, FirstFit xs r.padded d.start → r.padded < d.size →
      CanAllocate 1 (k.locked .vmm) := by
    intro d hd hfirst
    obtain rfl := hlow.unique ((firstFit_iff h.layout hd).1 hfirst) h.layout
    exact hcan
  obtain ⟨q, t, hcut⟩ : ∃ q t,
      (cutRegion r.padded r.type r.upper r.lower).run (k.locked .vmm) = .ok q t :=
    cutRegion_returns hv h.layout List.mem_cons_self hn.2 ⟨x, hlow.1.1, hlow.1.2⟩ hcan'
  obtain ⟨d, xs', -, hr⟩ := run_cutRegion_ok hv h.layout List.mem_cons_self (isFreeType_type ht)
    padding_le hn.1 hcut
  have hq0 : q ≠ .null := hr.vmm.list.ptr_ne_null hr.mem
  refine ⟨(q, t.sh.descs q), t, ?_⟩
  unfold reserve
  rw [run_get_bind, run_kassert_bind, run_ok_bind (run_checks hn.2 hpage),
    run_ok_bind hcut, run_readDesc_bind]
  exact ⟨h.mode, hq0, rfl⟩

theorem within_mapPages (vaddr : Nat) (hsmall : r.size ≤ 2 ^ 64 - pageSize)
    (hmod : r.size % pageSize = 0) (hbudget : r.Budget k) :
    ∃ t, (r.mapPages vaddr r.size).run k = .ok () t := by
  cases r with
  | memoryMap paddr size flags =>
    have hframes : FramesLeft (pageCount size * 3) k := by
      rw [pageCount_eq (n := size) hmod]
      exact hbudget
    have hloop : Within FramesLeft (pageCount size * 3)
        ((memoryMap paddr size flags).mapPages vaddr size) := by
      refine within_forPages hsmall fun _ => ?_
      rw [← Nat.zero_add 3]
      exact .bind .get fun _ => within_pagingMap _ _ _ _
    obtain ⟨_, t, hrun⟩ := hloop.returns hframes
    exact ⟨t, hrun⟩
  | allocate size type upper lower =>
    have hframes : FramesLeft (pageCount size * 4) k := by
      rw [pageCount_eq (n := size) hmod]
      exact hbudget
    obtain ⟨_, t, hrun⟩ := (within_mapFrames vaddr hsmall).returns hframes
    exact ⟨t, hrun⟩

theorem Budget.descs (h : r.Budget k) (heff : DescEffect k k') : r.Budget k' := by
  cases r with
  | memoryMap => exact FramesLeft.descs h heff
  | allocate => exact FramesLeft.descs h heff

theorem call_returns (h : VmmState k xs) (hl : .vmm ∉ k.cpu.held) (ht : r.Typed)
    (hn : 0 < r.padded ∧ r.padded % pageSize = 0 ∧ r.padded < 2 ^ 64) (hbudget : r.Budget k)
    (hpage : r.PageAddress) (hmod : r.size % pageSize = 0) {x : Area}
    (hlow : LowestFit xs r.padded x) (hcan : r.padded < x.size → CanAllocate 1 (k.locked .vmm)) :
    ∃ p k', r.call.run k = .ok p k' := by
  obtain ⟨⟨q, d⟩, t, hreserve⟩ := reserve_returns h ht ⟨hn.1, hn.2.1⟩ hpage hlow hcan
  obtain ⟨-, a, xs', -, hr, -, hlen⟩ := run_reserve_ok h.toVmmInv ht hn.1 hreserve
  have hlocked : (withLock .vmm r.reserve).run k = .ok (q, d) _ :=
    run_withLock_ok.2 ⟨hl, t, hreserve, rfl⟩
  have hsmall : r.size ≤ 2 ^ 64 - pageSize := by
    have hle : r.size ≤ r.padded := Nat.le_add_right _ _
    have hmod' := hmod
    simp only [pageSize] at hmod' ⊢
    omega
  obtain ⟨t', hmap⟩ := within_mapPages (getNoPaddingStartAddr d) hsmall hmod
    (hbudget.descs hr.effect)
  have hshoot : (shootdown kmalloc (r.handed (getNoPaddingStartAddr d) r.size) r.size).run t' =
      .ok () t' :=
    shootdown_returns ((hr.inv h.toVmmInv).paging (PagingEffect.of_run hmap)).quiet hmod
  have hfinish : (r.finish d).run (t.unlocked .vmm k.cpu.interrupts) = .ok () t' := by
    unfold finish
    rw [hlen, run_ok_bind hmap, hshoot]
  refine ⟨q, t', ?_⟩
  rw [call_eq hn.2.2, run_ok_bind (run_before ht hn.2.1), run_ok_bind hlocked]
  exact run_bind_ok.2 ⟨(), t', hfinish, rfl⟩

theorem call_panics (h : VmmState k xs) (hl : .vmm ∉ k.cpu.held) (ht : r.Typed)
    (hn : r.padded % pageSize = 0 ∧ r.padded < 2 ^ 64) (hno : NoFit xs r.padded) :
    ∃ e k', r.call.run k = .error (.panic e) k' := by
  have hv : VmmList (k.locked .vmm) xs := h.vmm.congr_sh rfl
  obtain ⟨e, t, hreserve⟩ : ∃ e t, r.reserve.run (k.locked .vmm) = .error (.panic e) t := by
    have hmode : (k.locked .vmm).sh.vmm.kernelMode = true := h.mode
    unfold reserve
    rw [run_get_bind, run_kassert_pos hmode]
    by_cases hpage : r.PageAddress
    · obtain ⟨e, t, hcut⟩ : ∃ e t, (cutRegion r.padded r.type r.upper r.lower).run (k.locked .vmm) =
          .error (.panic e) t := cutRegion_panics hv h.layout hno
      rw [run_ok_bind (run_checks hn.1 hpage)]
      exact ⟨e, t, run_bind_of_error hcut⟩
    · exact ⟨_, _, run_bind_of_error (run_checks_panics hn.1 hpage)⟩
  refine ⟨e, t, ?_⟩
  rw [call_eq hn.2, run_ok_bind (run_before ht hn.1)]
  exact run_bind_of_error (run_withLock_of_error hl hreserve)

theorem call_deadlocks (hl : .vmm ∈ k.cpu.held) (ht : r.Typed)
    (hn : r.padded % pageSize = 0 ∧ r.padded < 2 ^ 64) :
    ∃ k', r.call.run k = .error (.deadlock .vmm) k' := by
  obtain ⟨t, hlock⟩ := run_withLock_of_held (x := r.reserve) hl
  refine ⟨t, ?_⟩
  rw [call_eq hn.2, run_ok_bind (run_before ht hn.1)]
  exact run_bind_of_error hlock

end

/-! ## First fit -/

/-- The request is given the first bytes of the lowest free area that fits, or panics if none does. -/
inductive Placed (r : Request) (k : Kernel) (xs : List Area) : Prop where
  | placed {p : VMemHandle} {k' : Kernel} {x : Area} {xs' : List Area} (hrun : r.call.run k = .ok p k')
      (hlow : LowestFit xs r.padded x) (hnew : Reserved xs (r.area p x.start) xs')
      (hspace : AddressSpace k' xs')
      (husable : getNoPaddingStartAddr (k'.sh.descs p) = x.start + r.lower ∧
        getNoPaddingSize (k'.sh.descs p) = r.size)
  | none {e : ErrorCode} {k' : Kernel} (hrun : r.call.run k = .error (.panic e) k')
      (hno : NoFit xs r.padded)

/-- What a request needs: the lock and, if an area fits, a size of whole pages, the address of a
page and a descriptor for the rest of the area. -/
structure Allowed (r : Request) (k : Kernel) (xs : List Area) : Prop where
  lock : .vmm ∉ k.cpu.held
  fits : ∀ x, LowestFit xs r.padded x → r.size % pageSize = 0 ∧ r.PageAddress ∧
    (r.padded < x.size → CanAllocate 1 (k.locked .vmm))

end Request

/-- In every run in which no requested range ends at `2^64`: the requests that are placed by first fit. -/
theorem first_fit_iff {k₀ k₁ k : Kernel} {ps : Nat} (h₀ : BeforeVmm k₀)
    (hinit : (initializeKernelVMM ps).run k₀ = .ok () k₁)
    (hrun : ReflTransGen (VmmStep (2 ^ 64 - 1)) k₁ k) :
    ∃ xs, AddressSpace k xs ∧ ∀ r : Request, r.Typed →
      0 < r.padded ∧ r.padded % pageSize = 0 ∧ r.padded ≤ 2 ^ 47 → r.Budget k →
      (r.Placed k xs ↔ r.Allowed k xs) := by
  obtain ⟨xs, h⟩ := vmmState_of_run h₀ hinit hrun
  refine ⟨xs, h.addressSpace, fun r ht hn hbudget => ?_⟩
  have hn' : 0 < r.padded ∧ r.padded % pageSize = 0 ∧ r.padded < 2 ^ 64 :=
    ⟨hn.1, hn.2.1, Nat.lt_of_le_of_lt hn.2.2 (by decide)⟩
  constructor
  · intro hplaced
    cases hplaced with
    | placed hcall hlow hnew hspace husable =>
      obtain ⟨hl, hpage, hmod, x, xs', hlow', hcan, -⟩ := Request.run_call_lowest h ht ⟨hn'.1, hn'.2.2⟩ hcall
      refine ⟨hl, fun y hy => ⟨hmod, hpage, ?_⟩⟩
      obtain rfl := hlow'.unique hy h.layout
      exact hcan
    | none hcall hno =>
      refine ⟨fun hheld => ?_, fun y hy => (hno y hy.1.1 hy.1.2).elim⟩
      obtain ⟨t, hdead⟩ := Request.call_deadlocks hheld ht hn'.2
      rw [hcall] at hdead
      cases hdead
  · intro hallowed
    rcases noFit_or_lowestFit h.layout r.padded with hno | ⟨x, hlow⟩
    · obtain ⟨e, k', hcall⟩ := Request.call_panics h hallowed.lock ht hn'.2 hno
      exact .none hcall hno
    · obtain ⟨hmod, hpage, hcan⟩ := hallowed.fits x hlow
      obtain ⟨p, k', hcall⟩ := Request.call_returns h hallowed.lock ht hn' hbudget hpage hmod hlow hcan
      obtain ⟨-, -, -, y, xs', hlow', -, hnew, h'⟩ := Request.run_call_lowest h ht ⟨hn'.1, hn'.2.2⟩ hcall
      have hmem : r.area p y.start ∈ xs' := (hnew.mem_used hnew.used).2 (.inl rfl)
      obtain ⟨hbase, hlength⟩ := h'.layout.noPadding h'.vmm hmem
      exact .placed hcall hlow' hnew h'.addressSpace ⟨hbase, hlength.trans (Request.length_area _ _)⟩

def onePage : Request := .allocate pageSize .generalUse 0 0

theorem first_fit_newSpace : ∃ xs, AddressSpace newSpace xs ∧ onePage.Placed newSpace xs := by
  have hframes : FramesLeft 4 newSpace := ⟨by decide +kernel, by decide +kernel⟩
  obtain ⟨xs, h, hall⟩ := first_fit_iff twoStructures_before newSpace_run .refl
  refine ⟨xs, h, (hall onePage rfl (by decide) hframes).2
    ⟨by decide +kernel, fun x _ => ⟨by decide, trivial, fun _ => ?_⟩⟩⟩
  exact ⟨.early 2, _, eq_of_returned (by decide +kernel), trivial⟩

/-- One byte and 4095 bytes of padding are a page, but the byte is not. -/
def onePaddedByte : Request := .allocate 1 .generalUse 4095 0

theorem exists_fit_not_placed : ∃ (k₀ k₁ : Kernel) (xs : List Area) (r : Request), BeforeVmm k₀ ∧
    (initializeKernelVMM (5 * pageSize)).run k₀ = .ok () k₁ ∧ AddressSpace k₁ xs ∧ r.Typed ∧
    (0 < r.padded ∧ r.padded % pageSize = 0 ∧ r.padded ≤ 2 ^ 47) ∧ FramesLeft 8 k₁ ∧
    ¬ r.Placed k₁ xs := by
  obtain ⟨h, -, -, -⟩ := initializeKernelVMM_ok twoStructures_before newSpace_run
  obtain ⟨t, hcall⟩ : ∃ t, onePaddedByte.call.run newSpace = .error (.panic .failedAssert) t :=
    ⟨_, run_eq_of_stopped (by decide +kernel)⟩
  refine ⟨twoStructures, newSpace, _, onePaddedByte, twoStructures_before, newSpace_run,
    h.addressSpace, rfl, by decide, ⟨by decide +kernel, by decide +kernel⟩, fun hplaced => ?_⟩
  cases hplaced with
  | placed hrun _ _ _ _ =>
    rw [hcall] at hrun
    cases hrun
  | none _ hno => exact hno _ (List.mem_cons_of_mem _ List.mem_cons_self) ⟨rfl, by decide⟩

end GarbageOS
