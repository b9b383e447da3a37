import GarbageOS.Shootdown.Queue

/-!
# One queue under any interleaving

CPUs push to a queue and the CPU that owns it runs its handler, which tests the queue and pops
from it. Test, pop and push each hold the lock of the queue, so an interleaving is a sequence of
them, with anything in between that leaves this queue alone. Here the steps are runs of the code
itself, on its own heap. Where the chunk that `kmalloc` finds does not serve the request of a push,
it returns memory that is still free, and the next push gets the same node.
-/

namespace GarbageOS

open Lib Relation

/-- Where the handler of the owner is in its loop. -/
inductive HandlerStage where
  | off
  | testing
  | popping
deriving DecidableEq

structure OneQueue where
  sh : Shared
  handler : HandlerStage
  /-- Ghost: the nodes that were allocated and not freed, the latest first. -/
  live : List Nat
  /-- Ghost: the elements pushed and the elements popped so far. -/
  pushed : List (VMMCacheShootdownRange × Nat)
  popped : List (VMMCacheShootdownRange × Nat)

/-- Code that leaves queue `i` and the given nodes alone. -/
structure LeavesQueue (i : Nat) (live : List Nat) (sh sh' : Shared) : Prop where
  queue : sh'.queues i = sh.queues i
  nodes : ∀ a ∈ live, sh'.queueNodes a = sh.queueNodes a

/-- A step that involves queue `i`, on any CPU. `P` restricts the requests of the pushes. -/
inductive QueueStep (P : HeapState → Nat → Prop) (i : Nat) (s : OneQueue) : OneQueue → Prop
  | push {k k' : Kernel} {range : VMMCacheShootdownRange} {state : Nat} (hk : k.sh = s.sh)
      (hP : P s.sh.heap 32) (hrun : (pushToShootdownQ kmalloc i range state).run k = .ok () k') :
      QueueStep P i s
        { s with sh := k'.sh
                 live := (k'.sh.queues i).qHead :: s.live
                 pushed := (range, state) :: s.pushed }
  | interrupt (hoff : s.handler = .off) : QueueStep P i s { s with handler := .testing }
  | test {k k' : Kernel} {b : Bool} (hk : k.sh = s.sh) (htesting : s.handler = .testing)
      (hrun : (isShootdownQEmpty i).run k = .ok b k') :
      QueueStep P i s
        { s with sh := k'.sh, handler := if b then .off else .popping }
  | pop {k k' : Kernel} {r : VMMCacheShootdownRange × Nat} (hk : k.sh = s.sh)
      (hpopping : s.handler = .popping) (hrun : (popFromShootdownQ i).run k = .ok r k') :
      QueueStep P i s
        { s with sh := k'.sh
                 handler := .testing
                 live := s.live.erase (s.sh.queues i).qHead
                 popped := r :: s.popped }
  | other {sh' : Shared} (hleaves : LeavesQueue i s.live s.sh sh')
      (hheap : HoldsNodes s.sh s.live → HoldsNodes sh' s.live) :
      QueueStep P i s { s with sh := sh' }

/-- The queue as `initialize_vmmcache_shootdown_subsystem` makes it. -/
structure OneQueue.Initial (i : Nat) (s : OneQueue) : Prop where
  heap : HoldsNodes s.sh []
  head : (s.sh.queues i).qHead = 0
  tail : (s.sh.queues i).qTail = 0
  count : (s.sh.queues i).nodeCount = 0
  handler : s.handler = .off
  live : s.live = []
  pushed : s.pushed = []
  popped : s.popped = []

/-- The nodes in use are the nodes of the queue, and hold what was pushed and not popped. -/
structure OneQueue.Inv (i : Nat) (s : OneQueue) : Prop where
  rep : QueueRep s.sh i s.live
  heap : HoldsNodes s.sh s.live
  balance : s.pushed.Perm (s.popped ++ s.live.map fun a => (s.sh.queueNodes a).elem)
  popping : s.handler = .popping → s.live ≠ []

namespace OneQueue

variable {i : Nat} {s s' : OneQueue}

theorem Initial.inv (h : s.Initial i) : s.Inv i := by
  obtain ⟨sh, handler, live, pushed, popped⟩ := s
  obtain ⟨hheap, hhead, htail, hcount, hoff, hlive, hpushed, hpopped⟩ := h
  dsimp only at hoff hlive hpushed hpopped
  subst hoff hlive hpushed hpopped
  exact { rep := ⟨hhead, htail, hcount, List.not_mem_nil, List.nodup_nil, trivial⟩
          heap := hheap
          balance := .nil
          popping := HandlerStage.noConfusion }

theorem Inv.leaves {sh : Shared} (h : s.Inv i) (hl : LeavesQueue i s.live s.sh sh)
    (hheap : HoldsNodes sh s.live) : Inv i { s with sh := sh } where
  rep := h.rep.congr (by rw [hl.queue]) (by rw [hl.queue]) (by rw [hl.queue])
    fun a ha => by rw [hl.nodes a ha]
  heap := hheap
  balance := by
    have hmap : s.live.map (fun a => (sh.queueNodes a).elem) =
        s.live.map fun a => (s.sh.queueNodes a).elem :=
      List.map_congr_left fun a ha => by rw [hl.nodes a ha]
    show s.pushed.Perm (s.popped ++ s.live.map fun a => (sh.queueNodes a).elem)
    rw [hmap]
    exact h.balance
  popping := h.popping

theorem Inv.push {k k' : Kernel} {range : VMMCacheShootdownRange} {state : Nat} (h : s.Inv i)
    (hk : k.sh = s.sh) (hfits : FitsRequest s.sh.heap 32)
    (hrun : (pushToShootdownQ kmalloc i range state).run k = .ok () k') :
    Inv i { s with sh := k'.sh
                   live := (k'.sh.queues i).qHead :: s.live
                   pushed := (range, state) :: s.pushed } := by
  obtain ⟨node, t, t', ht, hnode, hp⟩ := run_pushToShootdownQ_ok hrun
  rw [hk] at ht hp
  rw [← ht] at hfits
  obtain ⟨h0, hnew, k₀, cs, L, hheap, hdescs, hinv⟩ := (ht ▸ h.heap).malloc hfits hnode
  have heff := (kmalloc_effect hnode).eq
  obtain ⟨hrep, helem, hold⟩ :=
    h.rep.push (by rw [heff, ht]) (fun a _ => by rw [heff, ht]) hp h0 hnew
  have hhead : (k'.sh.queues i).qHead = node := by rw [hp.queue]
  rw [hhead]
  refine { rep := hrep, heap := ⟨k₀, cs, L, hheap.trans hp.heap.symm, hdescs.trans hp.descs.symm, hinv⟩
           balance := ?_, popping := fun _ => List.cons_ne_nil _ _ }
  show ((range, state) :: s.pushed).Perm
    (s.popped ++ (node :: s.live).map fun a => (k'.sh.queueNodes a).elem)
  have hmap : s.live.map (fun a => (k'.sh.queueNodes a).elem) =
      s.live.map fun a => (s.sh.queueNodes a).elem :=
    List.map_congr_left fun a ha => by rw [hold a ha]
  rw [List.map_cons, helem, hmap]
  exact (h.balance.cons _).trans List.perm_middle.symm

theorem Inv.pop {k k' : Kernel} {r : VMMCacheShootdownRange × Nat} (h : s.Inv i)
    (hk : k.sh = s.sh) (hrun : (popFromShootdownQ i).run k = .ok r k') :
    Inv i { s with sh := k'.sh
                   handler := .testing
                   live := s.live.erase (s.sh.queues i).qHead
                   popped := r :: s.popped } := by
  obtain ⟨hne, hr, hp⟩ := run_popFromShootdownQ_ok hrun
  rw [hk] at hne hr hp
  obtain ⟨a, rest, hlive, hhead, hrep⟩ := h.rep.pop hne hp
  obtain ⟨t, t', hheap, hdescs, hfree, hheap', hdescs'⟩ := hp.freed
  obtain ⟨k₀, cs, L, hheap₀, hdescs₀, hinv⟩ := h.heap
  rw [hlive] at hinv
  rw [hhead] at hfree
  obtain ⟨cs', L', hinv'⟩ := (ClientStep.free (P := FitsRequest) List.mem_cons_self hfree).inv
    ⟨cs, L, hinv.congr (hheap.trans hheap₀.symm) (hdescs.trans hdescs₀.symm)⟩
  rw [List.erase_cons_head] at hinv'
  have hrest : s.live.erase (s.sh.queues i).qHead = rest := by
    rw [hlive, hhead, List.erase_cons_head]
  rw [hrest]
  refine { rep := hrep, heap := ⟨t', cs', L', hheap', hdescs', hinv'⟩, balance := ?_
           popping := HandlerStage.noConfusion }
  show s.pushed.Perm (r :: s.popped ++ rest.map fun a => (k'.sh.queueNodes a).elem)
  have hbalance := h.balance
  rw [hlive, List.map_cons] at hbalance
  rw [hp.nodes, hr, hhead]
  exact hbalance.trans List.perm_middle

theorem Inv.test {k k' : Kernel} {b : Bool} (h : s.Inv i) (hk : k.sh = s.sh)
    (hrun : (isShootdownQEmpty i).run k = .ok b k') :
    Inv i { s with sh := k'.sh, handler := if b then .off else .popping } := by
  obtain ⟨rfl, rfl⟩ := run_testQueue_ok hrun
  rw [hk]
  refine { rep := h.rep, heap := h.heap, balance := h.balance, popping := fun hpop hnil => ?_ }
  dsimp only at hpop
  rw [if_pos (h.rep.empty_iff.2 hnil)] at hpop
  cases hpop

theorem Inv.step (h : s.Inv i) (hstep : QueueStep FitsRequest i s s') : s'.Inv i := by
  cases hstep with
  | push hk hfits hrun => exact h.push hk hfits hrun
  | interrupt hoff =>
    exact { rep := h.rep, heap := h.heap, balance := h.balance
            popping := HandlerStage.noConfusion }
  | test hk htesting hrun => exact h.test hk hrun
  | pop hk hpopping hrun => exact h.pop hk hrun
  | other hleaves hheap => exact h.leaves hleaves (hheap h.heap)

theorem Inv.length_lt (h : s.Inv i) : s.live.length < 2 ^ 64 := by
  obtain ⟨k, cs, L, -, -, hinv⟩ := h.heap
  exact length_lt_of_nodup h.rep.nodup (fun a ha => hinv.bounds (a, 32) (List.mem_map_of_mem ha))
    (by decide)

end OneQueue

/-- Queue `i` is the list of the given nodes, from `q_head` to `q_tail`; each element pushed was
popped once or is in the list; and the assertion of a pop that the handler comes to holds. -/
structure OneQueue.Intact (i : Nat) (s : OneQueue) (nodes : List Nat) : Prop where
  nonnull : 0 ∉ nodes
  nodup : nodes.Nodup
  linked : Linked (fun a => (s.sh.queueNodes a).next) 0 nodes
  head : (s.sh.queues i).qHead = nodes.headD 0
  tail : (s.sh.queues i).qTail = nodes.getLastD 0
  null_iff : (s.sh.queues i).qHead = 0 ↔ (s.sh.queues i).qTail = 0
  count : (s.sh.queues i).nodeCount = nodes.length
  balance : s.pushed.Perm (s.popped ++ nodes.map fun a => (s.sh.queueNodes a).elem)
  assertion : s.handler = .popping → unsyncIsShootdownQEmpty (s.sh.queues i) = false

theorem OneQueue.Intact.next_ne_head {i : Nat} {s : OneQueue} {nodes : List Nat}
    (h : s.Intact i nodes) (hne : (s.sh.queues i).qHead ≠ 0) :
    (s.sh.queueNodes (s.sh.queues i).qHead).next ≠ (s.sh.queues i).qHead := by
  rw [h.head] at hne ⊢
  intro hself
  match nodes with
  | [] => exact hne rfl
  | [a] => exact hne (hself.symm.trans h.linked.1)
  | a :: b :: rest =>
    obtain rfl : b = a := h.linked.1.symm.trans hself
    exact (List.nodup_cons.1 h.nodup).1 List.mem_cons_self

/-- Every interleaving whose pushes ask for memory that the chunk found serves leaves the queue
intact. -/
theorem queue_integrity {i : Nat} {s₀ s : OneQueue} (h₀ : s₀.Initial i)
    (hrun : ReflTransGen (QueueStep FitsRequest i) s₀ s) : ∃ nodes, s.Intact i nodes := by
  have h : s.Inv i := invariant_of_steps (fun _ _ hstep hi => hi.step hstep) hrun h₀.inv
  refine ⟨s.live, { nonnull := h.rep.nonnull, nodup := h.rep.nodup, linked := h.rep.linked
                    head := h.rep.head, tail := h.rep.tail, null_iff := ?_, count := ?_
                    balance := h.balance, assertion := fun hpop => ?_ }⟩
  · rw [h.rep.head, h.rep.tail]
    cases hlive : s.live with
    | nil => exact Iff.rfl
    | cons a rest =>
      have hnonnull := h.rep.nonnull
      rw [hlive] at hnonnull
      refine iff_of_false (fun he => hnonnull (he ▸ List.mem_cons_self)) fun he => ?_
      rcases getLastD_eq_or_mem (a :: rest) 0 with ⟨hnil, -⟩ | ⟨hmem, -⟩
      · cases hnil
      · exact hnonnull (he ▸ hmem)
  · rw [h.rep.count, Nat.mod_eq_of_lt h.length_lt]
  · by_contra hne
    exact h.popping hpop (h.rep.empty_iff.1 (by simpa using hne))

/-! ## Two pushes on a small heap -/

theorem reaches_twoPushes {P : HeapState → Nat → Prop} {k k₁ k₂ : Kernel} {a b : Nat}
    (hP₁ : P k.sh.heap 32) (hrun₁ : (pushJob firstJob).run k = .ok () k₁)
    (ha : (k₁.sh.queues 0).qHead = a) (hP₂ : P k₁.sh.heap 32)
    (hrun₂ : (pushJob secondJob).run k₁ = .ok () k₂) (hb : (k₂.sh.queues 0).qHead = b) :
    ReflTransGen (QueueStep P 0) ⟨k.sh, .off, [], [], []⟩
      ⟨k₂.sh, .off, [b, a], [(⟨8192, 1⟩, 8), (⟨4096, 1⟩, 0)], []⟩ := by
  subst ha hb
  exact .tail (.single (.push rfl hP₁ hrun₁)) (.push rfl hP₂ hrun₂)

theorem reaches_pop {P : HeapState → Nat → Prop} {k t k' : Kernel} {a : Nat} {live : List Nat}
    {pushed : List (VMMCacheShootdownRange × Nat)} {r : VMMCacheShootdownRange × Nat}
    (htest : (isShootdownQEmpty 0).run k = .ok false t) (hhead : (k.sh.queues 0).qHead = a)
    (hpop : (popFromShootdownQ 0).run k = .ok r k') :
    ReflTransGen (QueueStep P 0) ⟨k.sh, .off, a :: live, pushed, []⟩
      ⟨k'.sh, .testing, live, pushed, [r]⟩ := by
  obtain ⟨-, rfl⟩ := run_testQueue_ok htest
  have h := QueueStep.pop (P := P) (s := ⟨k.sh, .popping, a :: live, pushed, []⟩) rfl rfl hpop
  dsimp only at h
  rw [hhead, List.erase_cons_head] at h
  exact .tail (.tail (.single (.interrupt rfl)) (.test rfl rfl htest)) h

theorem initial_of_holdsNodes {k : Kernel} (h : HoldsNodes k.sh [])
    (hqueue : k.sh.queues 0 = ⟨0, 0, 0, false⟩) : OneQueue.Initial 0 ⟨k.sh, .off, [], [], []⟩ :=
  ⟨h, by rw [hqueue], by rw [hqueue], by rw [hqueue], rfl, rfl, rfl, rfl⟩

theorem queue_integrity_pushedTwice : ∃ nodes, OneQueue.Intact 0
    ⟨poppedOnce.sh, .testing, [kernelVmemStart + 4104], [(⟨8192, 1⟩, 8), (⟨4096, 1⟩, 0)],
      [(⟨8192, 1⟩, 8)]⟩ nodes := by
  have hpushes := reaches_twoPushes (P := FitsRequest) (a := kernelVmemStart + 4104)
    (b := kernelVmemStart + 4152) (by decide +kernel) run_firstPush (by decide +kernel)
    (by decide +kernel) run_secondPush (by decide +kernel)
  exact queue_integrity (initial_of_holdsNodes queueHeap_holdsNodes (by decide +kernel))
    (hpushes.trans (reaches_pop (eq_of_returned (by decide +kernel)) (by decide +kernel)
      run_popSecond))

def overwritten : Kernel := finalState ((pushJob firstJob).run holedHeap)

def selfLinked : Kernel := finalState ((pushJob secondJob).run overwritten)

/-- Both pushes get the block that is still free: the first element is overwritten, the node is
linked to itself. -/
theorem exists_broken_queue : ∃ s₀ s : OneQueue, s₀.Initial 0 ∧
    ReflTransGen (QueueStep (fun _ _ => True) 0) s₀ s ∧ ¬ ∃ nodes, s.Intact 0 nodes := by
  have hheap := ClientRun.holdsNodes (c := ⟨holedHeap, _⟩)
    ⟨_, smallHeap_starts, holedHeap_run (by decide +kernel) (by decide +kernel)⟩
  have hpush₁ : (pushJob firstJob).run holedHeap = .ok () overwritten :=
    eq_of_returned (by decide +kernel)
  have hpush₂ : (pushJob secondJob).run overwritten = .ok () selfLinked :=
    eq_of_returned (by decide +kernel)
  have hrun := reaches_twoPushes (P := fun _ _ => True) trivial hpush₁ rfl trivial hpush₂ rfl
  refine ⟨_, _, initial_of_holdsNodes hheap (by decide +kernel), hrun, ?_⟩
  rintro ⟨nodes, h⟩
  exact h.next_ne_head (by decide +kernel) (by decide +kernel)

end GarbageOS
