import GarbageOS.Vmm.MapRuns

/-!
# What is handed to the shootdown subsystem

The operations that write page table entries hand a range to the shootdown subsystem
afterwards. Two ghost logs are compared: the ranges that were handed on and the pages whose
entries were written. `memory_map` and the copy operation keep the address of the first page;
the others move it through their loop and hand on the pages behind those they wrote.
-/

namespace GarbageOS

open Lib

/-! ## The two logs -/

/-- The ranges handed on and the pages written between two states, latest first. -/
structure Logs (k k' : Kernel) (ranges : List VMMCacheShootdownRange) (pages : List Nat) :
    Prop where
  handed : k'.cpu.handed = ranges ++ k.cpu.handed
  written : writtenPages k' = pages ++ writtenPages k

section

variable {k k' k₁ k₂ : Kernel} {ranges ranges' : List VMMCacheShootdownRange} {pages pages' : List Nat}

theorem Logs.trans (h₁ : Logs k k₁ ranges pages) (h₂ : Logs k₁ k₂ ranges' pages') :
    Logs k k₂ (ranges' ++ ranges) (pages' ++ pages) :=
  ⟨by rw [h₂.handed, h₁.handed, List.append_assoc], by rw [h₂.written, h₁.written, List.append_assoc]⟩

def SameLogs (k k' : Kernel) : Prop := Logs k k' [] []

theorem SameLogs.trans (h₁ : SameLogs k k₁) (h₂ : SameLogs k₁ k₂) : SameLogs k k₂ :=
  Logs.trans h₁ h₂

instance : IsPreorder Kernel SameLogs where
  refl _ := ⟨rfl, rfl⟩
  trans _ _ _ := SameLogs.trans

theorem Logs.before (h₁ : SameLogs k k₁) (h₂ : Logs k₁ k₂ ranges pages) : Logs k k₂ ranges pages := by
  have h := Logs.trans h₁ h₂
  rwa [List.append_nil, List.append_nil] at h

theorem Logs.after (h₁ : Logs k k₁ ranges pages) (h₂ : SameLogs k₁ k₂) : Logs k k₂ ranges pages :=
  h₁.trans h₂

theorem SameLogs.of_eq (hh : k'.cpu.handed = k.cpu.handed) (hw : k'.cpu.pteWrites = k.cpu.pteWrites) :
    SameLogs k k' :=
  ⟨hh, congrArg (List.map Prod.snd) hw⟩

theorem DescEffect.sameLogs (h : DescEffect k k') : SameLogs k k' :=
  .of_eq (by rw [h.eq]) (by rw [h.eq])

theorem HeapEffect.sameLogs (h : HeapEffect k k') : SameLogs k k' :=
  .of_eq (by rw [h.eq]) (by rw [h.eq])

theorem PagingEffect.logs (h : PagingEffect k k') (hw : writtenPages k' = pages ++ writtenPages k) :
    Logs k k' [] pages :=
  ⟨by rw [h.eq]; rfl, hw⟩

end

/-! ## A shootdown hands on one range -/

structure PushEffect (k k' : Kernel) : Prop where
  queues : SameQueues k k'
  array : k'.sh.queueArray = k.sh.queueArray
  logs : SameLogs k k'

instance : IsPreorder Kernel PushEffect where
  refl _ := ⟨⟨rfl, rfl, rfl, fun _ => rfl⟩, rfl, rfl, rfl⟩
  trans _ _ _ h₁ h₂ :=
    ⟨⟨h₂.queues.kernelData.trans h₁.queues.kernelData, h₂.queues.lapicId.trans h₁.queues.lapicId,
      h₂.queues.queuesCount.trans h₁.queues.queuesCount,
      fun i => (h₂.queues.active i).trans (h₁.queues.active i)⟩,
      h₂.array.trans h₁.array, h₁.logs.trans h₂.logs⟩

section

variable {k k' : Kernel} {range : VMMCacheShootdownRange} {state self i : Nat} {u : Unit}

theorem HeapEffect.push (h : HeapEffect k k') : PushEffect k k' :=
  ⟨h.sameQueues, by rw [h.eq], h.sameLogs⟩

theorem keeps_push_modifyNode (addr : Nat) (f : CSQNode → CSQNode) :
    Keeps PushEffect (modifyNode addr f) :=
  .modify fun _ => ⟨⟨rfl, rfl, rfl, fun _ => rfl⟩, rfl, rfl, rfl⟩

theorem keeps_push_modifyQueue {f : VMMCacheShootdownQueue → VMMCacheShootdownQueue}
    (hf : ∀ q, (f q).active = q.active) (i : Nat) : Keeps PushEffect (modifyQueue i f) := by
  refine .modify fun k => ⟨⟨rfl, rfl, rfl, fun j => ?_⟩, rfl, rfl, rfl⟩
  show (if j = i then f (k.sh.queues j) else k.sh.queues j).active = (k.sh.queues j).active
  split
  · exact hf _
  · rfl

section

variable (hq : k.sh.queueArray ≠ 0)

include hq

/-- A push to an active queue of another CPU: the `kmalloc` in it can not grow the heap. -/
theorem pushToShootdownQ_push (hself : IsSelf self k) (hi : i < k.sh.queuesCount)
    (hactive : (i != self && (k.sh.queues i).active) = true)
    (h : (pushToShootdownQ kmalloc i range state).run k = .ok u k') : PushEffect k k' := by
  obtain ⟨-, t, ht, rfl⟩ := run_withLock_ok.1 h
  have hlocked : PushEffect k (k.locked (.queue i)) :=
    ⟨⟨rfl, rfl, rfl, fun _ => rfl⟩, rfl, rfl, rfl⟩
  have hunlocked : PushEffect t (t.unlocked (.queue i) k.cpu.interrupts) :=
    ⟨⟨rfl, rfl, rfl, fun _ => rfl⟩, rfl, rfl, rfl⟩
  obtain ⟨_, k₁, hinsert, hcount⟩ := run_bind_ok.1 ht
  unfold insertHead createCSQNode at hinsert
  rw [run_get_bind, bind_assoc] at hinsert
  obtain ⟨node, k₂, hmalloc, hinsert⟩ := run_bind_ok.1 hinsert
  have hheap := kmalloc_heapEffect_of_active hmalloc hq (hself.congr hlocked.queues) hi hactive
  have hrest : Keeps PushEffect (do
      modifyNode node fun _ => ⟨range, state, 0⟩
      if unsyncIsShootdownQEmpty ((k.locked (.queue i)).sh.queues i) then
        modifyQueue i fun q => { q with qHead := node, qTail := node }
      else
        modifyQueue i fun q => { q with qHead := node }
        modifyNode node fun n => { n with next := ((k.locked (.queue i)).sh.queues i).qHead }) :=
    .bind (keeps_push_modifyNode _ _) fun _ =>
      .ite (fun _ => keeps_push_modifyQueue (by intro; rfl) _) fun _ =>
        .bind (keeps_push_modifyQueue (by intro; rfl) _) fun _ => keeps_push_modifyNode _ _
  rw [bind_assoc] at hinsert
  have hpushed := trans_of PushEffect hheap.push (hrest hinsert)
  have hcounted := trans_of PushEffect hpushed (keeps_push_modifyQueue (by intro; rfl) _ hcount)
  exact trans_of PushEffect hlocked (trans_of PushEffect hcounted hunlocked)

theorem enqueueTo_push (hself : IsSelf self k) (hi : i < k.sh.queuesCount)
    (h : (enqueueTo kmalloc self range state i).run k = .ok u k') : PushEffect k k' := by
  unfold enqueueTo at h
  obtain ⟨active, t, ha, h⟩ := run_bind_ok.1 h
  obtain ⟨rfl, rfl⟩ := run_testQueue_ok ha
  split at h
  · next hactive =>
    exact pushToShootdownQ_push hq hself hi (by rw [Bool.and_comm]; exact hactive) h
  · cases h
    exact refl_of PushEffect k

theorem enqueueRange_push (h : (enqueueVmmcacheShootdownRange kmalloc range state).run k = .ok u k') :
    PushEffect k k' := by
  unfold enqueueVmmcacheShootdownRange at h
  rw [run_get_bind, run_kassert_bind] at h
  obtain ⟨self, k₁, hindex, h⟩ := run_bind_ok.1 h.2
  obtain rfl := Kept.keeps (R := Eq) hindex
  rw [run_get_bind] at h
  have hself : IsSelf self k := ⟨k, k, hindex, rfl, rfl⟩
  refine run_forRange_inv (P := fun _ => PushEffect k) (fun i t t' _ hi ht hround => ?_)
    (refl_of PushEffect k) h
  have hi' : i < t.sh.queuesCount := by
    rw [ht.queues.queuesCount]
    omega
  exact trans_of PushEffect ht (enqueueTo_push (ht.array ▸ hq) (hself.congr ht.queues) hi' hround)

theorem shootdownRange_logs (h : (shootdownRange kmalloc range).run k = .ok u k') :
    Logs k k' [range] [] := by
  unfold shootdownRange isVmmcacheShootdownSubsystemInitialized at h
  rw [run_gets_bind, if_pos (by simpa using hq), run_get_bind] at h
  obtain ⟨_, k₂, hsend, hwait⟩ := run_bind_ok.1 h
  unfold vmmcacheShootdown at hsend
  rw [run_modifyCpu_bind, onlyIf_pos k.cpu.localState.2] at hsend
  obtain ⟨_, k₁, hinit, hsend⟩ := run_bind_ok.1 hsend
  have hlogged : Logs k { k with cpu := { k.cpu with handed := range :: k.cpu.handed } } [range] [] :=
    ⟨rfl, rfl⟩
  have hstate : Keeps PushEffect (initVmmcacheShootdownState k.cpu.localState.val) := by
    unfold initVmmcacheShootdownState
    exact .bind .get fun _ => .bind .check fun _ =>
      .bind ((Kept.keeps (R := Eq)).mono fun k _ h => h ▸ refl_of PushEffect k) fun _ =>
        .modify fun _ => ⟨⟨rfl, rfl, rfl, fun _ => rfl⟩, rfl, rfl, rfl⟩
  have hinit := hstate hinit
  have hwaited : SameLogs k₂ k' := by
    have hkeeps : Keeps SameLogs (waitForVmmcacheShootdownCompletition k.cpu.localState.val) := by
      unfold waitForVmmcacheShootdownCompletition
      exact .bind .get fun _ => .ite (fun _ => .pure _) fun _ =>
        .bind (.modify fun _ => ⟨rfl, rfl⟩) fun _ => .bind .get fun _ => .check
    exact hkeeps hwait
  have hpushed := enqueueRange_push (by rw [hinit.array]; exact hq) hsend
  exact hlogged.after (hinit.logs.trans (hpushed.logs.trans hwaited))

theorem shootdown_logs {a n : Nat} (h : (shootdown kmalloc a n).run k = .ok u k') :
    n % pageSize = 0 ∧ Logs k k' [⟨a, n / pageSize⟩] [] := by
  unfold shootdown at h
  obtain ⟨hmod, h⟩ := run_kassert_bind.1 h
  exact ⟨by simpa using hmod, shootdownRange_logs hq h⟩

end

end

/-! ## Pages -/

/-- The pages a range covers: those `delete_vmmcache_range` goes through. -/
def VMMCacheShootdownRange.Covers (r : VMMCacheShootdownRange) (q : Nat) : Prop :=
  ∃ i < r.sizeInPages, q = shootdownPage r i / pageSize

/-- The pages a loop of `n` rounds goes through, latest first. -/
def loopPages (vaddr n : Nat) : List Nat :=
  ((List.range n).map fun i => add64 vaddr (i * pageSize) / pageSize).reverse

section

variable {v n q : Nat}

theorem add64_page (v i : Nat) : add64 v (i * pageSize) / pageSize = (v / pageSize + i) % 2 ^ 52 := by
  unfold add64
  simp only [pageSize]
  omega

theorem shootdownPage_page (r : VMMCacheShootdownRange) (i : Nat) :
    shootdownPage r i / pageSize = (r.addrStart / pageSize + i) % 2 ^ 52 := by
  unfold shootdownPage
  rw [add64_page]
  simp only [pageSize]
  omega

theorem covers_iff : (⟨v, n⟩ : VMMCacheShootdownRange).Covers q ↔
    ∃ i < n, q = (v / pageSize + i) % 2 ^ 52 := by
  simp only [VMMCacheShootdownRange.Covers, shootdownPage_page]

theorem mem_loopPages : q ∈ loopPages v n ↔ ∃ i < n, q = (v / pageSize + i) % 2 ^ 52 := by
  simp only [loopPages, List.mem_reverse, List.mem_map, List.mem_range, add64_page, eq_comm]

/-- The range behind the pages of a loop covers its pages only if there are none: the first page
of the range is none of them. -/
theorem covers_behind_iff (hn : n < 2 ^ 52) :
    (∀ q, (⟨add64 v (n * pageSize), n⟩ : VMMCacheShootdownRange).Covers q ↔ q ∈ loopPages v n) ↔
      n = 0 := by
  simp only [covers_iff, mem_loopPages, add64_page]
  constructor
  · intro h
    rcases Nat.eq_zero_or_pos n with h0 | hpos
    · exact h0
    · obtain ⟨i, hi, he⟩ := (h _).1 ⟨0, hpos, rfl⟩
      omega
  · rintro rfl q
    simp

end

/-- The ranges that were handed on cover exactly the pages whose entries were written. Before
the shootdown subsystem is initialised there is nothing to hand a range to. -/
def HandsExactly (k k' : Kernel) : Prop :=
  k.sh.queueArray ≠ 0 → ∃ ranges pages, Logs k k' ranges pages ∧
    ∀ q, (∃ r ∈ ranges, r.Covers q) ↔ q ∈ pages

section

variable {k k' : Kernel} {r : VMMCacheShootdownRange} {pages : List Nat} {v n : Nat}

theorem SameLogs.handsExactly (h : SameLogs k k') : HandsExactly k k' :=
  fun _ => ⟨[], [], h, by simp⟩

theorem Logs.handsExactly_iff (hq : k.sh.queueArray ≠ 0) (h : Logs k k' [r] pages) :
    HandsExactly k k' ↔ ∀ q, r.Covers q ↔ q ∈ pages := by
  constructor
  · intro hex
    obtain ⟨ranges, pages', h', hcov⟩ := hex hq
    obtain rfl := List.append_cancel_right (h.handed.symm.trans h'.handed)
    obtain rfl := List.append_cancel_right (h.written.symm.trans h'.written)
    simpa using hcov
  · intro hcov _
    exact ⟨[r], pages, h, by simpa using hcov⟩

theorem Logs.handsExactly_loop (h : Logs k k' [⟨v, n⟩] (loopPages v n)) : HandsExactly k k' :=
  fun _ => ⟨_, _, h, by simp [covers_iff, mem_loopPages]⟩

/-- The range starts behind the last page. -/
theorem Logs.handsExactly_behind_iff (hq : k.sh.queueArray ≠ 0) (hn : n < 2 ^ 52)
    (h : Logs k k' [⟨add64 v (n * pageSize), n⟩] (loopPages v n)) : HandsExactly k k' ↔ n = 0 :=
  (h.handsExactly_iff hq).trans (covers_behind_iff hn)

end

/-! ## The loops -/

section

variable {k k' k₁ k₂ : Kernel} {v a size : Nat} {u : Unit} {body : Nat → KM Unit}

theorem PagingEffect.queueArray (h : PagingEffect k k') : k'.sh.queueArray = k.sh.queueArray := by
  rw [h.eq]

instance (vaddr : Nat) : Kept (SameLog writtenPages) (deletePageTranslationCache vaddr) :=
  ⟨.modify fun _ => rfl⟩

theorem writes_mapNewFrame (vaddr : Nat) :
    Emits writtenPages (mapNewFrame vaddr) [vaddr / pageSize] := by
  unfold mapNewFrame
  exact .bind .silent fun _ => .bind .silent fun _ => writes_pagingMap _ _ _ _

theorem writes_unmapPage (type : VirtualMemoryType) (vaddr : Nat) :
    Emits writtenPages (unmapPage type vaddr) [vaddr / pageSize] := by
  unfold unmapPage
  exact .bind .silent fun _ => .bind .silent fun _ => writes_invalidatePagingMapping _ _

/-- A loop that writes the entry of one page in each round, and then the shootdown. -/
theorem loop_shootdown_logs (hq : k.sh.queueArray ≠ 0)
    (hw : ∀ i, Emits writtenPages (body i) [add64 v (i * pageSize) / pageSize])
    [∀ i, Kept PagingEffect (body i)] (hloop : (forPages size body).run k = .ok () k₁)
    (hshoot : (shootdown kmalloc a size).run k₁ = .ok u k') :
    size % pageSize = 0 ∧ Logs k k' [⟨a, size / pageSize⟩] (loopPages v (size / pageSize)) := by
  have heff : PagingEffect k k₁ := .of_run hloop
  obtain ⟨hmod, hlogs⟩ := shootdown_logs (heff.queueArray ▸ hq) hshoot
  have hwritten : Logs k k₁ [] (loopPages v (pageCount size)) :=
    heff.logs (writes_forPages hw hloop)
  have h := hwritten.trans hlogs
  rw [List.append_nil, List.nil_append, pageCount_eq hmod] at h
  exact ⟨hmod, h⟩

/-- The same with the range that starts where the loop ended, between steps that write nothing
and hand nothing on. -/
theorem loop_behind_handsExactly_iff {k₀ : Kernel} (hq : k.sh.queueArray ≠ 0)
    (hbefore : SameLogs k k₀) (harray : k₀.sh.queueArray = k.sh.queueArray)
    (hw : ∀ i, Emits writtenPages (body i) [add64 v (i * pageSize) / pageSize])
    [∀ i, Kept PagingEffect (body i)] (hloop : (forPages size body).run k₀ = .ok () k₁)
    (hshoot : (shootdown kmalloc (add64 v (pageCount size * pageSize)) size).run k₁ = .ok u k₂)
    (hafter : SameLogs k₂ k') : HandsExactly k k' ↔ size = 0 := by
  obtain ⟨hmod, hlogs⟩ := loop_shootdown_logs (harray ▸ hq) hw hloop hshoot
  rw [pageCount_eq hmod] at hlogs
  -- the counter of the loop did not wrap
  obtain ⟨_, t, -, hcheck⟩ := run_bind_ok.1 hloop
  have hle := of_decide_eq_true (run_check_ok.1 hcheck).1
  have hn : size / pageSize < 2 ^ 52 := by
    simp only [pageSize] at hle ⊢
    omega
  rw [((Logs.before hbefore hlogs).after hafter).handsExactly_behind_iff hq hn]
  simp only [pageSize] at hmod ⊢
  omega

end

end GarbageOS
