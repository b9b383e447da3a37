import GarbageOS.Vmm.Pages
import GarbageOS.Vmm.Progress
import GarbageOS.Vmm.Runs

/-!
# Exact placement

`identity_map` and the copy operation reserve the requested range if and only if it lies in
one free area, and change nothing otherwise. What breaks this is a range that ends at `2^64`
or above: its end wraps below its start and the range check passes.
-/

namespace GarbageOS

open Lib Relation

namespace Placement

/-- The frames for the tables of the two structures it copies between. -/
def Budget : Placement → Nat → Kernel → Prop
  | identity, _, _ => True
  | copy .., n, k => FramesLeft (n / pageSize * 6) k

section

variable {pl : Placement} {k k' : Kernel} {xs : List Area} {d : Area} {p : VMemHandle} {a n : Nat}

/-- What a returned handle says about the test, and the descriptors a valid one took. -/
theorem passes_of_run (h : VmmState k xs) (hfound : FoundAt xs a d)
    (hrun : (pl.call a n).run k = .ok p k') :
    .vmm ∉ k.cpu.held ∧ (p = .null ↔ ¬ RangePasses pl.ft a n d) ∧ (p = .null → VmmState k' xs) ∧
      (RangePasses pl.ft a n d → 0 < n → a + n < 2 ^ 64 →
        CanAllocate (cutsNeeded d a n) (k.locked .vmm)) := by
  obtain ⟨hl, r, t, hplace, rfl, hnone, -⟩ := place_of_run hrun
  have hv : VmmList (k.locked .vmm) xs := h.vmm.congr_sh rfl
  refine ⟨hl, ?_⟩
  obtain ⟨d', hfound', hcases⟩ :=
    run_placeRegion_ok hv h.layout List.mem_cons_self pl.isFreeType_ut hplace
  obtain rfl := hfound.unique hfound'
  rcases hcases with ⟨rfl, hno, rfl⟩ | ⟨q, rfl, hq0, hp, hcut⟩
  · refine ⟨iff_of_true rfl hno, fun _ => ?_, fun hp => (hno hp).elim⟩
    rw [hnone rfl]
    rw [k.relocked]
    exact h
  · exact ⟨iff_of_false hq0 (not_not_intro hp), fun hq => (hq0 hq).elim,
      fun _ hn hfit => (hcut hn hfit).1⟩

theorem copyLoops_return (src dst a flags : Nat) (hn : n % pageSize = 0) (hsmall : n ≤ 2 ^ 64 - pageSize)
    (hframes : FramesLeft (n / pageSize * 6) k) : ∃ k₁ k₂,
      (copyPagingStructureMappingNoPageInvalidation src dst a n flags).run k = .ok () k₁ ∧
      (forPages n fun i => deletePageTranslationCache (add64 a (i * pageSize))).run k₁ = .ok () k₂ ∧
      PagingEffect k k₂ := by
  rw [← pageCount_eq hn] at hframes
  have hframes' : FramesLeft (pageCount n * 6 + pageCount n * 0) k := hframes
  obtain ⟨_, k₁, hcopy, hleft⟩ := within_copyPages src dst a flags hsmall hframes'
  obtain ⟨_, k₂, hflush⟩ := (within_flushPages a hsmall).returns hleft
  have heff : PagingEffect k k₁ := .of_run hcopy
  exact ⟨k₁, k₂, hcopy, hflush, heff.trans (CpuEffect.paging (Kept.keeps hflush))⟩

theorem returns (h : VmmState k xs) (hl : .vmm ∉ k.cpu.held) (ha : a ≠ 0 ∧ a % pageSize = 0)
    (hn : 0 < n ∧ n % pageSize = 0) (hbudget : pl.Budget n k)
    (hcan : ∀ d, FoundAt xs a d → RangePasses pl.ft a n d →
      a + n < 2 ^ 64 ∧ CanAllocate (cutsNeeded d a n) (k.locked .vmm)) :
    ∃ p k', (pl.call a n).run k = .ok p k' := by
  have hv : VmmList (k.locked .vmm) xs := h.vmm.congr_sh rfl
  obtain ⟨r, t, hplace⟩ := placeRegion_returns pl.ut hv h.layout List.mem_cons_self h.mode
    pl.isFreeType_ft ha.2 hn hcan
  cases pl with
  | identity =>
    have hlocked : (withLock .vmm (placeRegion .identityMapFree .identityMap a n)).run k =
        .ok r _ := run_withLock_ok.2 ⟨hl, t, hplace, rfl⟩
    rw [call, identityMap_eq]
    simp only [run_kassert_bind, run_ok_bind hlocked, bne_iff_ne, beq_iff_eq]
    exact ⟨_, _, ha.1, hn.2, ha.2, rfl⟩
  | copy src flags =>
    have hlocked : (withLock .vmm (placeRegion .free .memoryMapping a n)).run k =
        .ok r _ := run_withLock_ok.2 ⟨hl, t, hplace, rfl⟩
    rw [call, copyMemoryMapping_eq]
    simp only [run_kassert_bind, run_ok_bind hlocked, beq_iff_eq]
    cases r with
    | none => exact ⟨_, _, hn.2, rfl⟩
    | some cut =>
      obtain ⟨d, hfound, ⟨hr, -⟩ | ⟨q, -, -, hp, hr⟩⟩ :=
        run_placeRegion_ok hv h.layout List.mem_cons_self rfl hplace
      · cases hr
      obtain ⟨hfit, -⟩ := hcan d hfound hp
      obtain ⟨-, xs', hr⟩ := hr hn.1 hfit
      have hr' := hr.unlock
      have hsmall : n ≤ 2 ^ 64 - pageSize := by
        simp only [pageSize] at ha hn ⊢
        omega
      obtain ⟨k₂, k₃, hcopy, hflush, heff⟩ := copyLoops_return src
        (t.unlocked .vmm k.cpu.interrupts).sh.vmm.pagingStructure a flags hn.2 hsmall
        (FramesLeft.descs hbudget hr'.effect)
      have hquiet := ((hr'.inv h.toVmmInv).paging heff).quiet
      have hheld : .vmm ∉ k₃.cpu.held := by
        rw [heff.held, hr'.effect.held]
        exact hl
      have hlock : (withLock .vmm (pure ()) : KM Unit).run k₃ = .ok () _ :=
        run_withLock_ok.2 ⟨hheld, _, rfl, rfl⟩
      simp only [fillCopy, bind_assoc]
      rw [run_get_bind, run_ok_bind hcopy, run_ok_bind hflush,
        run_ok_bind (shootdown_returns hquiet hn.2), run_ok_bind hlock]
      exact ⟨_, _, hn.2, rfl⟩

end

end Placement

/-- The request is answered as the descriptor list says, and only a valid handle changes the list. -/
inductive Placement.Exact (pl : Placement) (k : Kernel) (xs : List Area) (a n : Nat) : Prop where
  | placed {p : VMemHandle} {k' : Kernel} {xs' : List Area} (hrun : (pl.call a n).run k = .ok p k')
      (hvalid : p ≠ .null) (hin : Contained xs pl.ft a n)
      (hnew : Reserved xs ⟨p, a, n, 0, 0, pl.ut⟩ xs') (hspace : AddressSpace k' xs')
  | refused {k' : Kernel} (hrun : (pl.call a n).run k = .ok .null k')
      (hout : ¬ Contained xs pl.ft a n) (hsame : AddressSpace k' xs)

/-- What a request needs: the lock and, if it was looked for in a free area, a range that does not
wrap and the descriptors for the rest of the area. -/
structure Placement.Allowed (pl : Placement) (k : Kernel) (xs : List Area) (a n : Nat) : Prop where
  lock : .vmm ∉ k.cpu.held
  range : ∀ d, FoundAt xs a d → d.type = pl.ft → d.start ≤ a → a + n < 2 ^ 64 ∧
    (a + n ≤ d.stop → CanAllocate (cutsNeeded d a n) (k.locked .vmm))

theorem Contained.fit {xs : List Area} {t : VirtualMemoryType} {a n : Nat} (h : Contained xs t a n)
    (hlay : Layout xs) : a + n < 2 ^ 64 := by
  obtain ⟨d, hd, -, -, hhi⟩ := h
  have := hlay.stop_lt hd
  omega

/-- In every run in which no requested range ends at `2^64`: the requests that are answered exactly. -/
theorem placement_exact_iff {k₀ k₁ k : Kernel} {ps : Nat} (h₀ : BeforeVmm k₀)
    (hinit : (initializeKernelVMM ps).run k₀ = .ok () k₁)
    (hrun : ReflTransGen (VmmStep (2 ^ 64 - 1)) k₁ k) :
    ∃ xs, AddressSpace k xs ∧ ∀ (pl : Placement) (a n : Nat),
      0 < a ∧ a < 2 ^ 64 ∧ a % pageSize = 0 → 0 < n ∧ n < 2 ^ 64 ∧ n % pageSize = 0 →
      pl.Budget n k → (pl.Exact k xs a n ↔ pl.Allowed k xs a n) := by
  obtain ⟨xs, h⟩ := vmmState_of_run h₀ hinit hrun
  refine ⟨xs, h.addressSpace, fun pl a n ha hn hbudget => ?_⟩
  have hv : VmmList (k.locked .vmm) xs := h.vmm.congr_sh rfl
  obtain ⟨d, hfound, -⟩ := exists_foundAt hv h.layout a
  constructor
  · intro hexact
    -- an exact answer is consistent with the test, which fails for a range that wraps
    obtain ⟨p, k', hcall, hnull⟩ : ∃ p k', (pl.call a n).run k = .ok p k' ∧
        (p = .null ↔ ¬ Contained xs pl.ft a n) := by
      cases hexact with
      | placed hrun hvalid hin _ _ => exact ⟨_, _, hrun, iff_of_false hvalid (not_not_intro hin)⟩
      | refused hrun hout _ => exact ⟨_, _, hrun, iff_of_true rfl hout⟩
    obtain ⟨hl, htest, -, hcan⟩ := pl.passes_of_run h hfound hcall
    refine ⟨hl, fun d' hfound' ht hlo => ?_⟩
    obtain rfl := hfound.unique hfound'
    have hfit : a + n < 2 ^ 64 := by
      by_contra hwrap
      have hp := hfound.passes_of_wrap h.layout ht hlo ha.2 hn.2 (Nat.le_of_not_lt hwrap)
      have hin : Contained xs pl.ft a n := not_not.1 fun hout => htest.1 (hnull.2 hout) hp
      exact hwrap (hin.fit h.layout)
    exact ⟨hfit, fun hhi => hcan ⟨ht, hlo, by rwa [add64_eq hfit]⟩ hn.1 hfit⟩
  · intro hallowed
    obtain ⟨p, k', hcall⟩ := pl.returns h hallowed.lock ⟨ha.1.ne', ha.2.2⟩ ⟨hn.1, hn.2.2⟩ hbudget
      fun d' hfound' ⟨ht, hlo, hhi⟩ => by
        obtain ⟨hfit, hcan⟩ := hallowed.range d' hfound' ht hlo
        rw [add64_eq hfit] at hhi
        exact ⟨hfit, hcan hhi⟩
    by_cases hfit : a + n < 2 ^ 64
    · rcases h.placement hn.1 hfit hcall with ⟨rfl, hout, h'⟩ | ⟨hp, hin, xs', hnew, h'⟩
      · exact .refused hcall hout h'.addressSpace
      · exact .placed hcall hp hin hnew h'.addressSpace
    · -- such a range was not looked for in a free area, and is refused
      obtain ⟨-, htest, hsame, -⟩ := pl.passes_of_run h hfound hcall
      obtain rfl := htest.2 fun ⟨ht, hlo, _⟩ => hfit (hallowed.range d hfound ht hlo).1
      exact .refused hcall (fun hin => hfit (hin.fit h.layout)) (hsame rfl).addressSpace

/-- A range behind one that is identity mapped already. -/
theorem placement_exact_lowSpace : ∃ xs, AddressSpace lowSpace xs ∧
    Placement.identity.Exact lowSpace xs (64 * pageSize) (4 * pageSize) := by
  obtain ⟨xs, h, hall⟩ := placement_exact_iff twoStructures_before newSpace_run
    (.single (.identityMap (by decide) (by decide) lowSpace_run))
  refine ⟨xs, h, (hall .identity _ _ (by decide) (by decide) trivial).2
    ⟨by decide +kernel, fun d _ _ _ => ⟨by decide, fun _ => ?_⟩⟩⟩
  obtain ⟨p, k, hp, hk⟩ : CanAllocate 2 (lowSpace.locked .vmm) := ⟨.early 3, _,
    eq_of_returned (by decide +kernel), .early 4, _, eq_of_returned (by decide +kernel), trivial⟩
  unfold cutsNeeded
  split <;> split
  exacts [⟨p, k, hp, hk⟩, ⟨p, k, hp, trivial⟩, ⟨p, k, hp, trivial⟩, trivial]

/-- Two pages that end at `2^64` are copied, though the last one is in no area. -/
theorem exists_inexact_placement : ∃ (k₀ k₁ k : Kernel) (p : VMemHandle) (xs : List Area),
    BeforeVmm k₀ ∧ (initializeKernelVMM (5 * pageSize)).run k₀ = .ok () k₁ ∧ AddressSpace k₁ xs ∧
    (copyMemoryMappingFromPagingStructure (7 * pageSize) (2 ^ 64 - 2 * pageSize) (2 * pageSize) 1).run
      k₁ = .ok p k ∧ p ≠ .null ∧ ¬ Contained xs .free (2 ^ 64 - 2 * pageSize) (2 * pageSize) := by
  obtain ⟨h, -, -, -⟩ := initializeKernelVMM_ok twoStructures_before newSpace_run
  refine ⟨twoStructures, newSpace, wrappedSpace, .early 1, _, twoStructures_before, newSpace_run,
    h.addressSpace, wrappedSpace_run, by decide, fun hin => ?_⟩
  exact absurd (hin.fit h.layout) (by decide)

end GarbageOS
