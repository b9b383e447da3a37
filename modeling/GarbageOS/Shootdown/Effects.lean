import GarbageOS.Paging.Effects
import GarbageOS.Shootdown.Code

/-!
# What a shootdown changes

Before the subsystem is initialised a shootdown does nothing. A CPU that holds
the heap lock can only finish one when no other queue is active, since pushing to
a queue allocates: it then neither pushes nor waits.
-/

namespace GarbageOS

open Lib

/-- Only the log of ranges and the caller's shootdown states change. -/
structure ShootdownEffect (k k' : Kernel) : Prop where
  eq : k' =
    { k with
      cpu := { k.cpu with handed := k'.cpu.handed }
      sh := { k.sh with shootdownStates := k'.sh.shootdownStates } }

section

variable {k k' : Kernel}

theorem ShootdownEffect.held (h : ShootdownEffect k k') : k'.cpu.held = k.cpu.held := by rw [h.eq]

theorem ShootdownEffect.heap (h : ShootdownEffect k k') : k'.sh.heap = k.sh.heap := by rw [h.eq]

theorem ShootdownEffect.descs (h : ShootdownEffect k k') : k'.sh.descs = k.sh.descs := by rw [h.eq]

/-- A critical section that only reads leaves the kernel as it was. -/
instance : LockKeeps (@Eq Kernel) where
  unlock := by
    rintro l k _ rfl
    exact k.relocked.symm

instance (vaddr : Nat) : Kept PagingEffect (deletePageTranslationCache vaddr) :=
  ⟨.modify fun _ => ⟨rfl⟩⟩

/-! ## What the code on queues keeps -/

/-- The relation holds across the steps a shootdown is made of, allocations apart. -/
class ShootdownKeeps (R : Kernel → Kernel → Prop) : Prop extends LockKeeps R where
  queues : ∀ (k : Kernel) q, R k { k with sh := { k.sh with queues := q } }
  nodes : ∀ (k : Kernel) n, R k { k with sh := { k.sh with queueNodes := n } }
  states : ∀ (k : Kernel) s, R k { k with sh := { k.sh with shootdownStates := s } }
  handed : ∀ (k : Kernel) l, R k { k with cpu := { k.cpu with handed := l } }
  waits : ∀ k : Kernel, R k { k with sh := k.sh.afterOthers (k.others k.sh) k.cpu.held }

section

variable {R : Kernel → Kernel → Prop} [IsPreorder Kernel R]

instance (d : KernelData) (test : LocalKernelDataList → Bool) (steps itr : Nat) :
    Kept R (findLocalData d test steps itr) := by
  induction steps generalizing itr <;> (unfold findLocalData; infer_instance)

instance [LockKeeps R] (apicId : Nat) : Kept R (getCpuIdFromApicId apicId) := by
  unfold getCpuIdFromApicId getLocalDataNode; infer_instance

instance [LockKeeps R] : Kept R getLogicalCoreVmmcacheShootdownQueueIndex := by
  unfold getLogicalCoreVmmcacheShootdownQueueIndex; infer_instance

instance [LockKeeps R] (i : Nat) : Kept R (isShootdownQActive i) := by
  unfold isShootdownQActive; infer_instance

instance : Kept R isVmmcacheShootdownSubsystemInitialized := by
  unfold isVmmcacheShootdownSubsystemInitialized; infer_instance

variable [h : ShootdownKeeps R]

instance (i : Nat) (f : VMMCacheShootdownQueue → VMMCacheShootdownQueue) :
    Kept R (modifyQueue i f) := ⟨.modify fun k => h.queues k _⟩

instance (addr : Nat) (f : CSQNode → CSQNode) : Kept R (modifyNode addr f) :=
  ⟨.modify fun k => h.nodes k _⟩

instance (state : Nat) : Kept R (initVmmcacheShootdownState state) :=
  ⟨.bind .get fun _ => .bind .check fun _ => .bind Kept.keeps fun _ =>
    .modify fun k => h.states k _⟩

instance (state : Nat) : Kept R (waitForVmmcacheShootdownCompletition state) :=
  ⟨.bind .get fun _ => .ite (fun _ => .pure _) fun _ => .bind (.modify h.waits) fun _ => Kept.keeps⟩

variable {kmalloc : Nat → KM Nat} [∀ n, Kept R (kmalloc n)] (range : VMMCacheShootdownRange)

instance (i state : Nat) : Kept R (pushToShootdownQ kmalloc i range state) := by
  unfold pushToShootdownQ insertHead createCSQNode; infer_instance

instance (self state i : Nat) : Kept R (enqueueTo kmalloc self range state i) := by
  unfold enqueueTo; infer_instance

instance (state : Nat) : Kept R (enqueueVmmcacheShootdownRange kmalloc range state) := by
  unfold enqueueVmmcacheShootdownRange; infer_instance

instance (state : Nat) : Kept R (vmmcacheShootdown kmalloc range state) :=
  ⟨.bind (.modify fun k => h.handed k _) fun _ => Kept.keeps⟩

instance : Kept R (shootdownRange kmalloc range) := by unfold shootdownRange; infer_instance

end

/-- A lookup in the kernel data depends on nothing else. -/
theorem findLocalData_agree {d : KernelData} {test : LocalKernelDataList → Bool} :
    ∀ {steps itr a b : Nat} {k₁ k₁' k₂ k₂' : Kernel},
      (findLocalData d test steps itr).run k₁ = .ok a k₁' →
      (findLocalData d test steps itr).run k₂ = .ok b k₂' → a = b := by
  intro steps
  induction steps with
  | zero => intro _ _ _ _ _ _ _ h; exact (run_throw_ok.1 h).elim
  | succ steps ih =>
    intro itr a b k₁ k₁' k₂ k₂' h₁ h₂
    unfold findLocalData at h₁ h₂
    split at h₁
    · rw [if_pos ‹_›] at h₂
      cases h₁
      cases h₂
      rfl
    · rw [if_neg ‹_›] at h₂
      exact ih h₁ h₂

theorem getCpuIdFromApicId_ok {apicId a : Nat} (h : (getCpuIdFromApicId apicId).run k = .ok a k') :
    ∃ itr t, (findLocalData k.sh.kernelData (fun n => n.localData.apicId == apicId) (2 ^ 64)
      k.sh.kernelData.localDataList).run (k.locked .kernelData) = .ok itr t ∧
      a = (k.sh.kernelData.nodes itr).cpuId := by
  obtain ⟨_, t, ht, -⟩ := run_withLock_ok.1 h
  unfold getLocalDataNode at ht
  obtain ⟨_, _, hnode, ht⟩ := run_bind_ok.1 ht
  rw [run_get_bind] at hnode
  obtain ⟨itr, t', hfind, hnode⟩ := run_bind_ok.1 hnode
  cases (run_kassert_bind.1 hnode).2
  cases ht
  exact ⟨itr, _, hfind, rfl⟩

theorem queueIndex_agree {a b : Nat} {k₁ k₁' : Kernel}
    (h : getLogicalCoreVmmcacheShootdownQueueIndex.run k = .ok a k')
    (h₁ : getLogicalCoreVmmcacheShootdownQueueIndex.run k₁ = .ok b k₁')
    (hd : k₁.sh.kernelData = k.sh.kernelData) (hc : k₁.cpu.lapicId = k.cpu.lapicId) : a = b := by
  unfold getLogicalCoreVmmcacheShootdownQueueIndex at h h₁
  rw [run_get_bind, run_kassert_bind, run_get_bind] at h h₁
  obtain ⟨i, t, hi, h⟩ := run_bind_ok.1 h.2
  obtain ⟨j, t₁, hj, h₁⟩ := run_bind_ok.1 h₁.2
  rw [run_get_bind, run_kassert_bind] at h h₁
  cases h.2
  cases h₁.2
  obtain ⟨itr, _, hf, rfl⟩ := getCpuIdFromApicId_ok hi
  obtain ⟨itr', _, hf', rfl⟩ := getCpuIdFromApicId_ok hj
  rw [hd, hc] at hf'
  rw [hd, findLocalData_agree hf hf']

/-- A test of a queue, under its lock. -/
theorem run_testQueue_ok {i : Nat} {b : Bool} {f : VMMCacheShootdownQueue → Bool}
    (h : (withLock (.queue i) (do return f ((← get).sh.queues i))).run k = .ok b k') :
    b = f (k.sh.queues i) ∧ k = k' := by
  obtain ⟨_, t, ht, rfl⟩ := run_withLock_ok.1 h
  rw [run_get_bind] at ht
  cases ht
  exact ⟨rfl, k.relocked.symm⟩

/-- `kmalloc` cannot be entered with the heap lock held. -/
def NeedsHeapLock (kmalloc : Nat → KM Nat) : Prop :=
  ∀ n k p k', (kmalloc n).run k = .ok p k' → .kheap ∉ k.cpu.held

theorem kmallocWith_needsHeapLock (expand : VMemHandle → Nat → KM Bool) :
    NeedsHeapLock (kmallocWith expand) := by
  intro n k p k' h
  exact (run_withLock_ok.1 h).1

section

variable {kmalloc : Nat → KM Nat} {range : VMMCacheShootdownRange} {state self i : Nat} {u : Unit}

theorem pushToShootdownQ_needsHeapLock (hm : NeedsHeapLock kmalloc)
    (h : (pushToShootdownQ kmalloc i range state).run k = .ok u k') : .kheap ∉ k.cpu.held := by
  obtain ⟨_, t, ht, -⟩ := run_withLock_ok.1 h
  unfold insertHead createCSQNode at ht
  obtain ⟨_, _, hi, -⟩ := run_bind_ok.1 ht
  rw [run_get_bind] at hi
  obtain ⟨_, _, hc, -⟩ := run_bind_ok.1 hi
  obtain ⟨_, _, hk, -⟩ := run_bind_ok.1 hc
  intro hheld
  exact hm _ _ _ _ hk (List.mem_cons_of_mem _ hheld)

theorem enqueueTo_quiet (hm : NeedsHeapLock kmalloc) (hheld : .kheap ∈ k.cpu.held)
    (h : (enqueueTo kmalloc self range state i).run k = .ok u k') :
    k = k' ∧ (i != self && (k.sh.queues i).active) = false := by
  unfold enqueueTo at h
  obtain ⟨active, t, ha, h⟩ := run_bind_ok.1 h
  obtain ⟨rfl, rfl⟩ := run_testQueue_ok ha
  split at h
  · exact (pushToShootdownQ_needsHeapLock hm h hheld).elim
  · next hn =>
    cases h
    exact ⟨rfl, by rw [Bool.and_comm]; simpa using hn⟩

theorem enqueueLoop_quiet (hm : NeedsHeapLock kmalloc) :
    ∀ {count start : Nat} {k : Kernel}, .kheap ∈ k.cpu.held →
      (forRange (enqueueTo kmalloc self range state) count start).run k = .ok u k' →
      k = k' ∧ ∀ i, start ≤ i → i < start + count →
        (i != self && (k.sh.queues i).active) = false := by
  intro count
  induction count with
  | zero =>
    intro start k _ h
    cases h
    exact ⟨rfl, fun i h1 h2 => by omega⟩
  | succ count ih =>
    intro start k hheld h
    obtain ⟨_, t, h1, h2⟩ := run_bind_ok.1 h
    obtain ⟨rfl, hfirst⟩ := enqueueTo_quiet hm hheld h1
    obtain ⟨heff, hrest⟩ := ih hheld h2
    refine ⟨heff, fun i hi hi' => ?_⟩
    rcases Nat.eq_or_lt_of_le hi with rfl | hlt
    · exact hfirst
    · exact hrest i (by omega) (by omega)

/-- The queue of this CPU has the index `self`. -/
def IsSelf (self : Nat) (k : Kernel) : Prop :=
  ∃ s s', getLogicalCoreVmmcacheShootdownQueueIndex.run s = .ok self s' ∧
    s.sh.kernelData = k.sh.kernelData ∧ s.cpu.lapicId = k.cpu.lapicId

def OthersIdle (k : Kernel) : Prop :=
  ∃ self, IsSelf self k ∧ ∀ i < k.sh.queuesCount, (i != self && (k.sh.queues i).active) = false

theorem IsSelf.eq {self' : Nat} (h : IsSelf self k) (h' : IsSelf self' k) : self = self' := by
  obtain ⟨s, _, hs, hd, hc⟩ := h
  obtain ⟨t, _, ht, hd', hc'⟩ := h'
  exact queueIndex_agree hs ht (hd'.trans hd.symm) (hc'.trans hc.symm)

structure SameQueues (k k' : Kernel) : Prop where
  kernelData : k'.sh.kernelData = k.sh.kernelData
  lapicId : k'.cpu.lapicId = k.cpu.lapicId
  queuesCount : k'.sh.queuesCount = k.sh.queuesCount
  active : ∀ i, (k'.sh.queues i).active = (k.sh.queues i).active

theorem IsSelf.congr (h : IsSelf self k) (hsame : SameQueues k k') : IsSelf self k' := by
  obtain ⟨s, s', hs, hd, hc⟩ := h
  exact ⟨s, s', hs, hd.trans hsame.kernelData.symm, hc.trans hsame.lapicId.symm⟩

theorem OthersIdle.congr (h : OthersIdle k) (hsame : SameQueues k k') : OthersIdle k' := by
  obtain ⟨self, hself, hidle⟩ := h
  refine ⟨self, hself.congr hsame, fun i hi => ?_⟩
  rw [hsame.active]
  exact hidle i (hsame.queuesCount ▸ hi)

/-- A shootdown that returns with the heap lock held had no CPU to wait for. -/
theorem vmmcacheShootdown_quiet (hm : NeedsHeapLock kmalloc) (hheld : .kheap ∈ k.cpu.held)
    (hstate : state ≠ 0) (h : (vmmcacheShootdown kmalloc range state).run k = .ok u k') :
    ShootdownEffect k k' ∧ isShootdownCompleted k'.sh state = true ∧ OthersIdle k := by
  unfold vmmcacheShootdown at h
  rw [run_modifyCpu_bind, onlyIf_pos hstate] at h
  obtain ⟨_, t, hinit, henq⟩ := run_bind_ok.1 h
  unfold initVmmcacheShootdownState at hinit
  rw [run_get_bind, run_kassert_bind] at hinit
  obtain ⟨self, t₁, hself, hinit⟩ := run_bind_ok.1 hinit.2
  obtain rfl := Kept.keeps (R := Eq) hself
  rw [run_modifyShared] at hinit
  cases hinit
  unfold enqueueVmmcacheShootdownRange at henq
  rw [run_get_bind, run_kassert_bind] at henq
  obtain ⟨self', t₂, hself', henq⟩ := run_bind_ok.1 henq.2
  obtain rfl := Kept.keeps (R := Eq) hself'
  obtain rfl := queueIndex_agree hself hself' rfl rfl
  rw [run_get_bind] at henq
  obtain ⟨rfl, hidle⟩ := enqueueLoop_quiet hm (by exact hheld) henq
  have hidle' : ∀ i < k.sh.queuesCount, (i != self && (k.sh.queues i).active) = false :=
    fun i hi => hidle i (Nat.zero_le i) ((Nat.zero_add _).symm ▸ hi)
  -- no other queue is active, so the state waits for none
  have hcount : activeQueuesCount k.sh self = 0 := by
    unfold activeQueuesCount
    rw [List.length_eq_zero_iff, List.filter_eq_nil_iff]
    intro i hi
    simpa using hidle' i (List.mem_range.1 hi)
  refine ⟨⟨rfl⟩, ?_, self, ⟨_, _, hself, rfl, rfl⟩, hidle'⟩
  simp [isShootdownCompleted, hcount]

theorem shootdownRange_quiet (hm : NeedsHeapLock kmalloc) (hheld : .kheap ∈ k.cpu.held)
    (h : (shootdownRange kmalloc range).run k = .ok u k') :
    ShootdownEffect k k' ∧ (k.sh.queueArray ≠ 0 → OthersIdle k) := by
  unfold shootdownRange isVmmcacheShootdownSubsystemInitialized at h
  rw [run_gets_bind] at h
  split at h
  · rw [run_get_bind] at h
    obtain ⟨_, t, hs, hw⟩ := run_bind_ok.1 h
    obtain ⟨heff, hdone, hidle⟩ := vmmcacheShootdown_quiet hm hheld k.cpu.localState.2 hs
    unfold waitForVmmcacheShootdownCompletition at hw
    rw [run_get_bind, if_pos hdone] at hw
    cases hw
    exact ⟨heff, fun _ => hidle⟩
  · next hno =>
    cases h
    exact ⟨⟨rfl⟩, fun hq => (hno (by simpa using hq)).elim⟩

theorem shootdownRange_uninitialized (hq : k.sh.queueArray = 0) :
    (shootdownRange kmalloc range).run k = .ok () k := by
  unfold shootdownRange isVmmcacheShootdownSubsystemInitialized
  rw [run_gets_bind, if_neg (by simp [hq])]
  rfl

end

end

end GarbageOS
