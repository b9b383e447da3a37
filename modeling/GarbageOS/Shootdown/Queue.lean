import GarbageOS.Shootdown.Interleave
import GarbageOS.Shootdown.Effects
import GarbageOS.Heap.Runs
import GarbageOS.Vmm.Effects

/-!
# The queues of the code are lists

`Represents` relates the linked queues, the active flags and the shootdown states of
the kernel to the system of `Shootdown.Interleave`; each function that a step of that
system stands for does to the one what the step does to the other. Of `kmalloc` it is
used that a new node is no node of a queue.
-/

namespace GarbageOS

open Lib Function

def CSQNode.elem (n : CSQNode) : VMMCacheShootdownRange × Nat := (n.range, n.state)

/-- Queue `i` is the list of the given nodes. -/
structure QueueRep (sh : Shared) (i : Nat) (nodes : List Nat) : Prop where
  head : (sh.queues i).qHead = nodes.headD 0
  tail : (sh.queues i).qTail = nodes.getLastD 0
  count : (sh.queues i).nodeCount = nodes.length % 2 ^ 64
  nonnull : 0 ∉ nodes
  nodup : nodes.Nodup
  linked : Linked (fun a => (sh.queueNodes a).next) 0 nodes

/-- The kernel is in the given state of the system of queues. -/
structure Represents (sh : Shared) (nodes : Nat → List Nat) (s : ShootdownSys) : Prop where
  count : sh.queuesCount = s.queuesCount
  active : ∀ i, (sh.queues i).active = s.active i
  queue : ∀ i, QueueRep sh i (nodes i)
  elems : ∀ i, (nodes i).map (fun a => (sh.queueNodes a).elem) =
    (s.queue i).map fun e => (e.range, e.state)
  disjoint : ∀ i j, i ≠ j → ∀ a ∈ nodes i, a ∉ nodes j
  states : ∀ p, sh.shootdownStates p = s.states p

structure QueuesSame (k k' : Kernel) : Prop where
  queuesCount : k'.sh.queuesCount = k.sh.queuesCount
  queues : k'.sh.queues = k.sh.queues
  queueNodes : k'.sh.queueNodes = k.sh.queueNodes
  states : k'.sh.shootdownStates = k.sh.shootdownStates

/-- `kmalloc` changes no queue and returns memory that is no node. -/
def FreshNodes (kmalloc : Nat → KM Nat) (sh : Shared) (nodes : Nat → List Nat) : Prop :=
  ∀ k p k', k.sh = sh → (kmalloc 32).run k = .ok p k' →
    QueuesSame k k' ∧ p ≠ 0 ∧ ∀ i, p ∉ nodes i

theorem QueueRep.empty_iff {sh : Shared} {i : Nat} {nodes : List Nat} (h : QueueRep sh i nodes) :
    unsyncIsShootdownQEmpty (sh.queues i) = true ↔ nodes = [] := by
  unfold unsyncIsShootdownQEmpty
  rw [Bool.and_eq_true, beq_iff_eq, beq_iff_eq, h.head, h.tail]
  cases nodes with
  | nil => simp
  | cons a rest =>
    have ha : a ≠ 0 := fun e => h.nonnull (e ▸ List.mem_cons_self)
    simp [ha]

theorem QueueRep.unique {sh : Shared} {i : Nat} {nodes nodes' : List Nat} (h : QueueRep sh i nodes)
    (h' : QueueRep sh i nodes') : nodes = nodes' :=
  h.linked.unique h'.linked h.nonnull h'.nonnull (h.head.symm.trans h'.head)

theorem QueueRep.congr {sh sh' : Shared} {i : Nat} {nodes : List Nat} (h : QueueRep sh i nodes)
    (hhead : (sh'.queues i).qHead = (sh.queues i).qHead)
    (htail : (sh'.queues i).qTail = (sh.queues i).qTail)
    (hcount : (sh'.queues i).nodeCount = (sh.queues i).nodeCount)
    (hnodes : ∀ a ∈ nodes, (sh'.queueNodes a).next = (sh.queueNodes a).next) :
    QueueRep sh' i nodes where
  head := hhead.trans h.head
  tail := htail.trans h.tail
  count := hcount.trans h.count
  nonnull := h.nonnull
  nodup := h.nodup
  linked := h.linked.congr hnodes

section

variable {k k' : Kernel} {nodes : Nat → List Nat} {s : ShootdownSys} {i : Nat}
  {sh sh' : Shared} {u : Unit} {range : VMMCacheShootdownRange} {state : Nat}

theorem Represents.congr (h : Represents sh nodes s) (hc : sh'.queuesCount = sh.queuesCount)
    (hq : sh'.queues = sh.queues) (hn : sh'.queueNodes = sh.queueNodes)
    (hs : sh'.shootdownStates = sh.shootdownStates) : Represents sh' nodes s := by
  refine { count := hc.trans h.count, active := ?_, queue := ?_, elems := ?_,
           disjoint := h.disjoint, states := ?_ }
  · intro i; rw [hq]; exact h.active i
  · intro i
    exact (h.queue i).congr (by rw [hq]) (by rw [hq]) (by rw [hq]) fun a _ => by rw [hn]
  · intro i; rw [hn]; exact h.elems i
  · intro p; rw [hs]; exact h.states p

theorem Represents.of_same (h : Represents k.sh nodes s) (hsame : QueuesSame k k') :
    Represents k'.sh nodes s :=
  h.congr hsame.queuesCount hsame.queues hsame.queueNodes hsame.states

theorem run_kfree_same {ptr : Nat} (h : (kfree ptr).run k = .ok u k') : QueuesSame k k' := by
  obtain ⟨_, t, ht, rfl⟩ := run_withLock_ok.1 h
  obtain ⟨heap, _, rfl⟩ := run_onHeap_ok.1 ht
  exact ⟨rfl, rfl, rfl, rfl⟩

theorem queue_eq_nil_iff (h : Represents k.sh nodes s) : nodes i = [] ↔ s.queue i = [] := by
  have := congrArg List.length (h.elems i)
  simp only [List.length_map] at this
  rw [← List.length_eq_zero_iff, ← List.length_eq_zero_iff, this]

/-! ## Tests -/

theorem run_isShootdownQEmpty_refines {b : Bool} (h : Represents k.sh nodes s)
    (hrun : (isShootdownQEmpty i).run k = .ok b k') : (b = true ↔ s.queue i = []) ∧ k = k' := by
  obtain ⟨rfl, rfl⟩ := run_testQueue_ok hrun
  exact ⟨((h.queue i).empty_iff).trans (queue_eq_nil_iff h), rfl⟩

/-! ## Push -/

/-- What a push does. The queue is read in `before`; `sh` is what `kmalloc` leaves. -/
structure Pushed (i : Nat) (range : VMMCacheShootdownRange) (state node : Nat)
    (before sh sh' : Shared) : Prop where
  heap : sh'.heap = sh.heap
  descs : sh'.descs = sh.descs
  queuesCount : sh'.queuesCount = sh.queuesCount
  states : sh'.shootdownStates = sh.shootdownStates
  queue : sh'.queues i =
    { sh.queues i with
      qHead := node
      qTail := if unsyncIsShootdownQEmpty (before.queues i) then node else (sh.queues i).qTail
      nodeCount := add64 (sh.queues i).nodeCount 1 }
  others : ∀ j, j ≠ i → sh'.queues j = sh.queues j
  newNode : sh'.queueNodes node =
    ⟨range, state, if unsyncIsShootdownQEmpty (before.queues i) then 0 else (before.queues i).qHead⟩
  oldNodes : ∀ a, a ≠ node → sh'.queueNodes a = sh.queueNodes a

theorem run_pushToShootdownQ_ok {kmalloc : Nat → KM Nat}
    (hrun : (pushToShootdownQ kmalloc i range state).run k = .ok u k') :
    ∃ node t t', t.sh = k.sh ∧ (kmalloc 32).run t = .ok node t' ∧
      Pushed i range state node k.sh t'.sh k'.sh := by
  obtain ⟨_, t, ht, rfl⟩ := run_withLock_ok.1 hrun
  obtain ⟨_, t₁, hinsert, ht⟩ := run_bind_ok.1 ht
  unfold modifyQueue at ht
  rw [run_modifyShared] at ht
  cases ht
  unfold insertHead createCSQNode at hinsert
  rw [run_get_bind, bind_assoc] at hinsert
  obtain ⟨node, t₂, hnode, hinsert⟩ := run_bind_ok.1 hinsert
  unfold modifyNode modifyQueue at hinsert
  rw [bind_assoc, run_modifyShared_bind, pure_bind] at hinsert
  refine ⟨node, k.locked (.queue i), t₂, rfl, hnode, ?_⟩
  change (if unsyncIsShootdownQEmpty (k.sh.queues i) = true then _ else _ : KM Unit).run _ = _
    at hinsert
  by_cases he : unsyncIsShootdownQEmpty (k.sh.queues i) = true
  · rw [if_pos he, run_modifyShared] at hinsert
    cases hinsert
    refine { heap := rfl, descs := rfl, queuesCount := rfl, states := rfl, queue := ?_
             others := fun j hj => ?_, newNode := ?_, oldNodes := fun a ha => if_neg ha }
    · rw [if_pos he]
      simp only [Kernel.unlocked, if_pos]
    · simp only [Kernel.unlocked, if_neg hj]
    · rw [if_pos he]
      exact if_pos rfl
  · rw [if_neg he, run_modifyShared_bind, run_modifyShared] at hinsert
    cases hinsert
    refine { heap := rfl, descs := rfl, queuesCount := rfl, states := rfl, queue := ?_
             others := fun j hj => ?_, newNode := ?_, oldNodes := fun a ha => ?_ }
    · rw [if_neg he]
      simp only [Kernel.unlocked, if_pos]
    · simp only [Kernel.unlocked, if_neg hj]
    · rw [if_neg he]
      simp only [Kernel.unlocked, if_pos]
      rfl
    · simp only [Kernel.unlocked, if_neg ha]

theorem QueueRep.push {nodes : List Nat} {node : Nat} {before : Shared}
    (h : QueueRep before i nodes) (hsame : sh.queues i = before.queues i)
    (hkeep : ∀ a ∈ nodes, sh.queueNodes a = before.queueNodes a)
    (hp : Pushed i range state node before sh sh') (h0 : node ≠ 0) (hnew : node ∉ nodes) :
    QueueRep sh' i (node :: nodes) ∧ (sh'.queueNodes node).elem = (range, state) ∧
      ∀ a ∈ nodes, sh'.queueNodes a = before.queueNodes a := by
  have hold : ∀ a ∈ nodes, sh'.queueNodes a = before.queueNodes a := fun a ha =>
    (hp.oldNodes a fun e => hnew (e ▸ ha)).trans (hkeep a ha)
  refine ⟨{ head := ?_, tail := ?_, count := ?_, nonnull := ?_, nodup := ?_, linked := ?_ }, ?_, hold⟩
  · rw [hp.queue]
    rfl
  · rw [hp.queue, hsame]
    show (if unsyncIsShootdownQEmpty (before.queues i) = true then node
      else (before.queues i).qTail) = _
    split
    · rw [h.empty_iff.1 ‹_›]; rfl
    · rename_i hne
      rw [h.tail, getLastD_cons_of_ne_nil fun he => hne (h.empty_iff.2 he)]
  · rw [hp.queue, hsame]
    show add64 (before.queues i).nodeCount 1 = _
    rw [h.count, List.length_cons, add64]
    omega
  · rw [List.mem_cons, not_or]
    exact ⟨h0.symm, h.nonnull⟩
  · exact List.nodup_cons.2 ⟨hnew, h.nodup⟩
  · refine ⟨?_, h.linked.congr fun a ha => by rw [hold a ha]⟩
    show (sh'.queueNodes node).next = _
    rw [hp.newNode]
    show (if unsyncIsShootdownQEmpty (before.queues i) = true then 0
      else (before.queues i).qHead) = _
    split
    · rw [h.empty_iff.1 ‹_›]; rfl
    · exact h.head
  · rw [hp.newNode]
    rfl

theorem run_pushToShootdownQ_refines {kmalloc : Nat → KM Nat} (h : Represents k.sh nodes s)
    (hfresh : FreshNodes kmalloc k.sh nodes)
    (hrun : (pushToShootdownQ kmalloc i range state).run k = .ok u k') :
    ∃ node, Represents k'.sh (update nodes i (node :: nodes i))
      (s.pushElem ⟨range, state⟩ i) := by
  obtain ⟨node, t, t', ht, hnode, hp⟩ := run_pushToShootdownQ_ok hrun
  obtain ⟨hsame, h0, hnew⟩ := hfresh _ _ _ ht hnode
  have hqueues : t'.sh.queues = k.sh.queues := hsame.queues.trans (by rw [ht])
  have hqueueNodes : t'.sh.queueNodes = k.sh.queueNodes := hsame.queueNodes.trans (by rw [ht])
  have hother {a j : Nat} (ha : a ∈ nodes j) : a ≠ node := fun e => hnew j (e ▸ ha)
  have hkeep {a j : Nat} (ha : a ∈ nodes j) : k'.sh.queueNodes a = k.sh.queueNodes a := by
    rw [hp.oldNodes a (hother ha), hqueueNodes]
  obtain ⟨hrep, helem, -⟩ := (h.queue i).push (by rw [hqueues]) (fun a _ => by rw [hqueueNodes]) hp
    h0 (hnew i)
  have hqueue {j : Nat} (hj : j ≠ i) : k'.sh.queues j = k.sh.queues j := by
    rw [hp.others j hj, hqueues]
  refine ⟨node, { count := ?_, active := ?_, queue := ?_, elems := ?_, disjoint := ?_,
                  states := ?_ }⟩
  · rw [hp.queuesCount, hsame.queuesCount, ht]
    exact h.count
  · intro j
    show _ = s.active j
    by_cases hj : j = i
    · rw [hj, hp.queue, hqueues]
      exact h.active i
    · rw [hqueue hj]
      exact h.active j
  · intro j
    by_cases hj : j = i
    · rw [hj, update_self]
      exact hrep
    · rw [update_of_ne hj]
      exact (h.queue j).congr (by rw [hqueue hj]) (by rw [hqueue hj]) (by rw [hqueue hj])
        fun a ha => by rw [hkeep ha]
  · intro j
    show _ = (update s.queue i (_ :: s.queue i) j).map _
    by_cases hj : j = i
    · subst hj
      rw [update_self, update_self, List.map_cons, List.map_cons, helem, ← h.elems j]
      congr 1
      exact List.map_congr_left fun a ha => by rw [hkeep ha]
    · rw [update_of_ne hj, update_of_ne hj, ← h.elems j]
      exact List.map_congr_left fun a ha => by rw [hkeep ha]
  · intro j j' hjj a ha
    by_cases hj : j = i
    · subst hj
      rw [update_self] at ha
      rw [update_of_ne hjj.symm]
      rcases List.mem_cons.1 ha with rfl | ha
      · exact hnew j'
      · exact h.disjoint j j' hjj a ha
    · rw [update_of_ne hj] at ha
      by_cases hj' : j' = i
      · subst hj'
        rw [update_self, List.mem_cons, not_or]
        exact ⟨hother ha, h.disjoint j j' hjj a ha⟩
      · rw [update_of_ne hj']
        exact h.disjoint j j' hjj a ha
  · intro p
    rw [hp.states, hsame.states, ht]
    exact h.states p

/-! ## Pop -/

/-- A call of `kfree`, with other changes that leave the heap alone. -/
def FreesBlock (ptr : Nat) (sh sh' : Shared) : Prop :=
  ∃ t t' : Kernel, t.sh.heap = sh.heap ∧ t.sh.descs = sh.descs ∧ (kfree ptr).run t = .ok () t' ∧
    t'.sh.heap = sh'.heap ∧ t'.sh.descs = sh'.descs

/-- What a pop does. -/
structure Popped (i : Nat) (sh sh' : Shared) : Prop where
  freed : FreesBlock (sh.queues i).qHead sh sh'
  queuesCount : sh'.queuesCount = sh.queuesCount
  states : sh'.shootdownStates = sh.shootdownStates
  nodes : sh'.queueNodes = sh.queueNodes
  queue : sh'.queues i =
    { sh.queues i with
      qHead := if (sh.queues i).qHead = (sh.queues i).qTail then 0
        else (sh.queueNodes (sh.queues i).qHead).next
      qTail := if (sh.queues i).qHead = (sh.queues i).qTail then 0 else (sh.queues i).qTail
      nodeCount := sub64 (sh.queues i).nodeCount 1 }
  others : ∀ j, j ≠ i → sh'.queues j = sh.queues j

theorem run_removeHead_ok {q : VMMCacheShootdownQueue} {next : Nat}
    (hrun : (removeHead i q next).run k = .ok u k') :
    FreesBlock q.qHead k.sh k'.sh ∧ k'.sh.queuesCount = k.sh.queuesCount ∧
      k'.sh.shootdownStates = k.sh.shootdownStates ∧
      k'.sh.queueNodes = k.sh.queueNodes ∧
      (k'.sh.queues = fun j => if j = i then
          { k.sh.queues j with
            qHead := if q.qHead = q.qTail then 0 else next
            qTail := if q.qHead = q.qTail then 0 else (k.sh.queues j).qTail }
        else k.sh.queues j) := by
  unfold removeHead destroyCSQNode modifyQueue at hrun
  by_cases he : q.qHead = q.qTail
  · rw [if_pos he] at hrun
    obtain ⟨_, t, hfree, hrun⟩ := run_bind_ok.1 hrun
    have hsame := run_kfree_same hfree
    rw [run_modifyShared] at hrun
    cases hrun
    refine ⟨⟨k, t, rfl, rfl, hfree, rfl, rfl⟩, hsame.queuesCount, hsame.states, hsame.queueNodes, ?_⟩
    funext j
    simp only [hsame.queues, he, if_pos]
  · rw [if_neg he, run_modifyShared_bind] at hrun
    have hsame := run_kfree_same hrun
    refine ⟨⟨_, k', by rfl, by rfl, hrun, rfl, rfl⟩, hsame.queuesCount, hsame.states, hsame.queueNodes, ?_⟩
    rw [hsame.queues]
    funext j
    simp only [he, if_neg, not_false_eq_true]

theorem run_popFromShootdownQ_ok {r : VMMCacheShootdownRange × Nat}
    (hrun : (popFromShootdownQ i).run k = .ok r k') :
    unsyncIsShootdownQEmpty (k.sh.queues i) = false ∧
      r = (k.sh.queueNodes (k.sh.queues i).qHead).elem ∧ Popped i k.sh k'.sh := by
  obtain ⟨_, t, ht, rfl⟩ := run_withLock_ok.1 hrun
  rw [run_get_bind, run_kassert_bind] at ht
  obtain ⟨hne, ht⟩ := ht
  rw [run_check_bind, run_get_bind] at ht
  obtain ⟨-, ht⟩ := ht
  obtain ⟨_, t₁, hremove, ht⟩ := run_bind_ok.1 ht
  obtain ⟨hfreed, hcount, hstates, hnodes, hqueues⟩ := run_removeHead_ok hremove
  unfold modifyQueue at ht
  rw [run_modifyShared_bind, EStateM.run_pure] at ht
  cases ht
  refine ⟨by simpa [Kernel.locked] using hne, rfl,
    { freed := hfreed, queuesCount := hcount, states := hstates, nodes := hnodes, queue := ?_
      others := ?_ }⟩
  · show (if i = i then { t₁.sh.queues i with nodeCount := sub64 (t₁.sh.queues i).nodeCount 1 }
      else t₁.sh.queues i) = _
    rw [if_pos rfl, hqueues]
    simp only [if_pos]
    rfl
  · intro j hj
    show (if j = i then _ else t₁.sh.queues j) = _
    rw [if_neg hj, hqueues]
    exact if_neg hj

theorem QueueRep.pop {nodes : List Nat} (h : QueueRep sh i nodes)
    (hne : unsyncIsShootdownQEmpty (sh.queues i) = false) (hp : Popped i sh sh') :
    ∃ a rest, nodes = a :: rest ∧ (sh.queues i).qHead = a ∧ QueueRep sh' i rest := by
  obtain ⟨a, rest, rfl⟩ : ∃ a rest, nodes = a :: rest := by
    refine List.exists_cons_of_ne_nil fun he => ?_
    rw [h.empty_iff.2 he] at hne
    cases hne
  have hhead : (sh.queues i).qHead = a := h.head
  have hnodup := List.nodup_cons.1 h.nodup
  -- the head is the tail exactly when it is the only node
  have hsingle : (sh.queues i).qHead = (sh.queues i).qTail ↔ rest = [] := by
    rw [hhead, h.tail]
    cases rest with
    | nil => simp
    | cons b rest =>
      rw [getLastD_cons_of_ne_nil (by simp)]
      simp only [reduceCtorEq, iff_false]
      intro he
      apply hnodup.1
      rw [he]
      rcases getLastD_eq_or_mem (b :: rest) 0 with ⟨hnil, -⟩ | ⟨hmem, -⟩
      · cases hnil
      · exact hmem
  refine ⟨a, rest, rfl, hhead, { head := ?_, tail := ?_, count := ?_, nonnull := ?_,
                                 nodup := hnodup.2, linked := ?_ }⟩
  · rw [hp.queue]
    show (if (sh.queues i).qHead = (sh.queues i).qTail then 0
      else (sh.queueNodes (sh.queues i).qHead).next) = _
    split
    · rw [hsingle.1 ‹_›]; rfl
    · rw [hhead]; exact h.linked.1
  · rw [hp.queue]
    show (if (sh.queues i).qHead = (sh.queues i).qTail then 0 else (sh.queues i).qTail) = _
    split
    · rw [hsingle.1 ‹_›]; rfl
    · rename_i hmore
      rw [h.tail, getLastD_cons_of_ne_nil fun he => hmore (hsingle.2 he)]
  · rw [hp.queue]
    show sub64 (sh.queues i).nodeCount 1 = _
    rw [h.count, List.length_cons, sub64]
    omega
  · exact fun hmem => h.nonnull (List.mem_cons_of_mem _ hmem)
  · rw [hp.nodes]
    exact h.linked.2

theorem run_popFromShootdownQ_refines {r : VMMCacheShootdownRange × Nat}
    (h : Represents k.sh nodes s) (hrun : (popFromShootdownQ i).run k = .ok r k') :
    ∃ e rest, s.queue i = e :: rest ∧ r = (e.range, e.state) ∧
      Represents k'.sh (update nodes i (nodes i).tail) (s.setQueue i rest) := by
  obtain ⟨hne, hr, hp⟩ := run_popFromShootdownQ_ok hrun
  obtain ⟨a, rest, hcons, hhead, hrep⟩ := (h.queue i).pop hne hp
  have helems := h.elems i
  rw [hcons, List.map_cons] at helems
  cases hq : s.queue i with
  | nil => rw [hq] at helems; cases helems
  | cons e qrest =>
    rw [hq, List.map_cons, List.cons.injEq] at helems
    obtain ⟨helem, hrest⟩ := helems
    refine ⟨e, qrest, rfl, by rw [hr, hhead, helem], ?_⟩
    refine { count := hp.queuesCount.trans h.count, active := ?_, queue := ?_, elems := ?_,
             disjoint := ?_, states := fun p => by rw [hp.states]; exact h.states p }
    · intro j
      show _ = s.active j
      by_cases hj : j = i
      · rw [hj, hp.queue]
        exact h.active i
      · rw [hp.others j hj]
        exact h.active j
    · intro j
      by_cases hj : j = i
      · rw [hj, update_self, hcons]
        exact hrep
      · rw [update_of_ne hj]
        have hqj := hp.others j hj
        exact (h.queue j).congr (by rw [hqj]) (by rw [hqj]) (by rw [hqj])
          fun b _ => by rw [hp.nodes]
    · intro j
      show _ = (update s.queue i qrest j).map _
      rw [hp.nodes]
      by_cases hj : j = i
      · subst hj
        rw [update_self, update_self, hcons]
        exact hrest
      · rw [update_of_ne hj, update_of_ne hj]
        exact h.elems j
    · have hsub (j : Nat) {b : Nat} (hb : b ∈ update nodes i (nodes i).tail j) :
          b ∈ nodes j := by
        by_cases hj : j = i
        · subst hj
          rw [update_self] at hb
          exact List.mem_of_mem_tail hb
        · rwa [update_of_ne hj] at hb
      intro j j' hjj b hb hb'
      exact h.disjoint j j' hjj b (hsub j hb) (hsub j' hb')

/-! ## Activation and signals -/

theorem run_activate_refines (h : Represents k.sh nodes s)
    (hrun : (withLock (.queue i) (modifyQueue i fun q => { q with active := true })).run k =
      .ok u k') :
    Represents k'.sh nodes { s with active := update s.active i true } := by
  obtain ⟨_, t, ht, rfl⟩ := run_withLock_ok.1 hrun
  unfold modifyQueue at ht
  rw [run_modifyShared] at ht
  cases ht
  refine { count := h.count, active := ?_, queue := ?_, elems := h.elems, disjoint := h.disjoint,
           states := h.states }
  · intro j
    show (if j = i then { k.sh.queues j with active := true } else k.sh.queues j).active =
      update s.active i true j
    by_cases hj : j = i
    · rw [if_pos hj, hj, update_self]
    · rw [if_neg hj, update_of_ne hj]; exact h.active j
  · intro j
    have hfields : ∀ {β : Type} (f : VMMCacheShootdownQueue → β),
        (∀ q, f { q with active := true } = f q) →
        f (if j = i then { k.sh.queues j with active := true } else k.sh.queues j) =
          f (k.sh.queues j) := by
      intro β f hf
      split
      · exact hf _
      · rfl
    exact (h.queue j).congr (hfields VMMCacheShootdownQueue.qHead fun _ => rfl)
      (hfields VMMCacheShootdownQueue.qTail fun _ => rfl)
      (hfields VMMCacheShootdownQueue.nodeCount fun _ => rfl) fun _ _ => rfl

/-- What the handler does with an element: the null range has no pages to delete, so the
state is signalled and nothing else happens to the system of queues. -/
theorem run_processShootdown_refines (h : Represents k.sh nodes s)
    (hrun : (processShootdown range state).run k = .ok u k') :
    Represents k'.sh nodes (s.signal state) := by
  obtain ⟨_, t, hdelete, hsignal⟩ := run_bind_ok.1 hrun
  have hsh : t.sh = k.sh := by
    by_cases hnull : isVmmcacheShootdownRangeNull range = true
    · have hsize : range.sizeInPages = 0 := by
        simp only [isVmmcacheShootdownRangeNull, Bool.and_eq_true, beq_iff_eq] at hnull
        exact hnull.2
      rw [onlyIf_pos hnull, deleteVmmcacheRange, hsize, forRange, EStateM.run_pure] at hdelete
      cases hdelete
      rfl
    · rw [onlyIf_neg hnull, EStateM.run_pure] at hdelete
      cases hdelete
      rfl
  unfold ShootdownSys.signal
  by_cases h0 : state = 0
  · rw [onlyIf_neg (by simpa using h0), EStateM.run_pure] at hsignal
    cases hsignal
    rw [if_pos h0, hsh]
    exact h
  · rw [onlyIf_pos h0, vmmcacheShootdownStateSignalQueueEmpty, run_modifyShared] at hsignal
    cases hsignal
    rw [if_neg h0, hsh]
    refine { count := h.count, active := h.active, queue := fun j => ?_, elems := h.elems,
             disjoint := h.disjoint, states := ?_ }
    · exact (h.queue j).congr rfl rfl rfl fun _ _ => rfl
    · intro p
      show (if p = state then _ else k.sh.shootdownStates p) = update s.states state _ p
      by_cases hp : p = state
      · subst hp
        rw [if_pos rfl, update_self, h.states p]
      · rw [if_neg hp, update_of_ne hp, h.states p]

/-! ## Nodes on the heap -/

/-- The heap is well formed, and the nodes are blocks of it that are in use. -/
def HoldsNodes (sh : Shared) (live : List Nat) : Prop :=
  ∃ k cs L, k.sh.heap = sh.heap ∧ k.sh.descs = sh.descs ∧
    ClientInv ⟨k, live.map fun a => (a, 32)⟩ cs L

/-- If the chunk found serves the request, the new node is no node in use. -/
theorem HoldsNodes.malloc {live : List Nat} {node : Nat} (h : HoldsNodes k.sh live)
    (hfits : FitsRequest k.sh.heap 32) (hrun : (kmalloc 32).run k = .ok node k') :
    node ≠ 0 ∧ node ∉ live ∧ HoldsNodes k'.sh (node :: live) := by
  obtain ⟨k₀, cs, L, hheap, hdescs, hinv⟩ := h
  obtain ⟨cs', L', hinv'⟩ := (ClientStep.malloc (by decide) hfits hrun).inv
    ⟨cs, L, hinv.congr hheap.symm hdescs.symm⟩
  refine ⟨(hinv'.bounds (node, 32) List.mem_cons_self).1.ne', fun hmem => ?_,
    k', cs', L', rfl, rfl, hinv'⟩
  exact (List.nodup_cons.1 hinv'.distinct).1
    (List.mem_map.2 ⟨(node, 32), List.mem_map_of_mem hmem, rfl⟩)

theorem ClientRun.holdsNodes {c : HeapClient} (h : ClientRun FitsRequest c) :
    HoldsNodes c.kernel.sh [] := by
  obtain ⟨cs, L, hinv⟩ := h.inv
  exact ⟨c.kernel, cs, L, rfl, rfl, hinv.heap, hinv.backed, nofun, .nil⟩

/-! ## Runs -/

/-- A section of the code that works on the queues. -/
inductive QueueSection where
  | push (i : Nat) (job : EnqueueJob)
  | pop (i : Nat) (job : EnqueueJob)
  | process (job : EnqueueJob)
  | activate (i : Nat)

/-- What a section does to the lists; a pop takes the head. -/
def ShootdownSys.after (s : ShootdownSys) : QueueSection → Option ShootdownSys
  | .push i job => some (s.pushElem job i)
  | .pop i job => (s.queue i).head?.bind fun e =>
    if job = ⟨e.range, e.state⟩ then some (s.setQueue i (s.queue i).tail) else none
  | .process job => some (s.signal job.state)
  | .activate i => some { s with active := update s.active i true }

inductive SectionStep (k k' : Kernel) : QueueSection → Prop where
  | push {kmalloc : Nat → KM Nat} {i : Nat} {job : EnqueueJob}
      (hfresh : ∀ nodes s, Represents k.sh nodes s → FreshNodes kmalloc k.sh nodes)
      (hrun : (pushToShootdownQ kmalloc i job.range job.state).run k = .ok () k') :
      SectionStep k k' (.push i job)
  | pop {i : Nat} {job : EnqueueJob}
      (hrun : (popFromShootdownQ i).run k = .ok (job.range, job.state) k') :
      SectionStep k k' (.pop i job)
  | process {job : EnqueueJob} (hrun : (processShootdown job.range job.state).run k = .ok () k') :
      SectionStep k k' (.process job)
  | activate {i : Nat} (hrun : (withLock (.queue i)
      (modifyQueue i fun q => { q with active := true })).run k = .ok () k') :
      SectionStep k k' (.activate i)

/-- Sections in any order; between them the CPUs do what leaves the queues alone. -/
inductive SectionRun : Kernel → List QueueSection → Kernel → Prop where
  | same {k k' : Kernel} (hsame : QueuesSame k k') : SectionRun k [] k'
  | cons {k k₁ k₂ k' : Kernel} {e : QueueSection} {es : List QueueSection} (hsame : QueuesSame k k₁)
      (hstep : SectionStep k₁ k₂ e) (hrest : SectionRun k₂ es k') : SectionRun k (e :: es) k'

theorem SectionStep.refines {e : QueueSection} (hstep : SectionStep k k' e)
    (h : Represents k.sh nodes s) :
    ∃ nodes' s', s.after e = some s' ∧ Represents k'.sh nodes' s' := by
  cases hstep with
  | push hfresh hrun =>
    obtain ⟨node, h'⟩ := run_pushToShootdownQ_refines h (hfresh nodes s h) hrun
    exact ⟨_, _, rfl, h'⟩
  | @pop i job hrun =>
    obtain ⟨e, rest, hq, hjob, h'⟩ := run_popFromShootdownQ_refines h hrun
    obtain ⟨hrange, hstate⟩ := Prod.mk.inj hjob
    refine ⟨_, s.setQueue i rest, ?_, h'⟩
    simp [ShootdownSys.after, hq, ← hrange, ← hstate]
  | process hrun => exact ⟨_, _, rfl, run_processShootdown_refines h hrun⟩
  | activate hrun => exact ⟨_, _, rfl, run_activate_refines h hrun⟩

/-- In any interleaving of the sections, the queues of the code go through what the sections
do to the lists. -/
theorem sections_refine {es : List QueueSection} (hrun : SectionRun k es k')
    (h : Represents k.sh nodes s) :
    ∃ nodes' s', es.foldlM ShootdownSys.after s = some s' ∧ Represents k'.sh nodes' s' := by
  induction hrun generalizing nodes s with
  | same hsame => exact ⟨nodes, s, rfl, h.of_same hsame⟩
  | cons hsame hstep _ ih =>
    obtain ⟨_, s₁, hs₁, h₁⟩ := hstep.refines (h.of_same hsame)
    rw [List.foldlM_cons, hs₁]
    exact ih h₁

/-- The queues are in the given state, and the heap holds their nodes. -/
def OnHeap (sh : Shared) (s : ShootdownSys) : Prop :=
  ∃ nodes live, Represents sh nodes s ∧ HoldsNodes sh live ∧ ∀ i, nodes i ⊆ live

/-- On a heap that may not grow, `kmalloc` changes nothing else. -/
theorem OnHeap.push {job : EnqueueJob} (h : OnHeap k.sh s)
    (hoff : k.sh.heap.heap.enableGrowth = false) (hfits : FitsRequest k.sh.heap 32)
    (hrun : (pushToShootdownQ kmalloc i job.range job.state).run k = .ok () k') :
    SectionStep k k' (.push i job) ∧ OnHeap k'.sh (s.pushElem job i) := by
  obtain ⟨nodes, live, hrep, hholds, hlive⟩ := h
  have hfresh (nodes' s') (h' : Represents k.sh nodes' s') : FreshNodes kmalloc k.sh nodes' := by
    intro t p t' ht hmalloc
    rw [← ht] at hholds hoff hfits
    obtain ⟨h0, hnew, -⟩ := hholds.malloc hfits hmalloc
    obtain ⟨k₀, cs, L, hheap, hdescs, hinv⟩ := hholds
    have hinv := hinv.congr hheap.symm hdescs.symm
    have heff := (kmalloc_heapEffect_of_off hmalloc hinv.heap hinv.backed (by decide) hoff).eq
    refine ⟨⟨by rw [heff], by rw [heff], by rw [heff], by rw [heff]⟩, h0, fun i hi => hnew ?_⟩
    rw [(h'.queue i).unique (hrep.queue i)] at hi
    exact hlive i hi
  refine ⟨.push hfresh hrun, ?_⟩
  obtain ⟨node, hrep'⟩ := run_pushToShootdownQ_refines hrep (hfresh nodes s hrep) hrun
  obtain ⟨node', t, t', ht, hnode, hp⟩ := run_pushToShootdownQ_ok hrun
  have hhead := (hrep'.queue i).head
  rw [hp.queue, update_self] at hhead
  obtain rfl : node' = node := hhead
  rw [← ht] at hholds hfits
  obtain ⟨-, -, k₀, cs, L, hheap, hdescs, hinv⟩ := hholds.malloc hfits hnode
  refine ⟨_, node' :: live, hrep', ⟨k₀, cs, L, hheap.trans hp.heap.symm,
    hdescs.trans hp.descs.symm, hinv⟩, fun j => ?_⟩
  by_cases hj : j = i
  · rw [hj, update_self]
    exact List.cons_subset_cons _ (hlive i)
  · rw [update_of_ne hj]
    exact List.subset_cons_of_subset _ (hlive j)

/-! ### Two pushes and a pop -/

/-- One CPU with an empty queue, and a small heap. -/
def queueHeap : Kernel :=
  { smallHeap with
    sh := { smallHeap.sh with
      queueArray := 8, queuesCount := 1, kernelData := ⟨8, 1, fun _ => ⟨0, ⟨.null, 0⟩, 0⟩⟩ } }

theorem queueHeap_holdsNodes : HoldsNodes queueHeap.sh [] :=
  ClientRun.holdsNodes ⟨_, smallHeap_starts, .refl⟩

theorem queueHeap_represents : Represents queueHeap.sh (fun _ => []) (.init 1 id) :=
  ⟨rfl, fun _ => rfl, fun _ => ⟨rfl, rfl, rfl, nofun, .nil, trivial⟩, fun _ => rfl, nofun,
    fun _ => rfl⟩

def firstJob : EnqueueJob := ⟨⟨4096, 1⟩, 0⟩

def secondJob : EnqueueJob := ⟨⟨8192, 1⟩, 8⟩

def pushJob (job : EnqueueJob) : KM Unit := pushToShootdownQ kmalloc 0 job.range job.state

def pushedOnce : Kernel := finalState ((pushJob firstJob).run queueHeap)

def pushedTwice : Kernel := finalState ((pushJob secondJob).run pushedOnce)

def poppedOnce : Kernel := finalState ((popFromShootdownQ 0).run pushedTwice)

theorem run_firstPush : (pushJob firstJob).run queueHeap = .ok () pushedOnce :=
  eq_of_returned (by decide +kernel)

theorem run_secondPush : (pushJob secondJob).run pushedOnce = .ok () pushedTwice :=
  eq_of_returned (by decide +kernel)

theorem run_popSecond :
    (popFromShootdownQ 0).run pushedTwice = .ok (secondJob.range, secondJob.state) poppedOnce :=
  eq_of_returned (by decide +kernel)

theorem pushedTwice_onHeap : SectionStep queueHeap pushedOnce (.push 0 firstJob) ∧
    SectionStep pushedOnce pushedTwice (.push 0 secondJob) ∧
    OnHeap pushedTwice.sh (((ShootdownSys.init 1 id).pushElem firstJob 0).pushElem secondJob 0) := by
  have h₀ : OnHeap queueHeap.sh (.init 1 id) :=
    ⟨_, [], queueHeap_represents, queueHeap_holdsNodes, fun _ => List.nil_subset _⟩
  obtain ⟨hstep₁, h₁⟩ := h₀.push (by decide +kernel) (by decide +kernel) run_firstPush
  obtain ⟨hstep₂, h₂⟩ := h₁.push (by decide +kernel) (by decide +kernel) run_secondPush
  exact ⟨hstep₁, hstep₂, h₂⟩

/-- The pop gives what was pushed last. -/
theorem sections_refine_push_pop : ∃ nodes s, Represents poppedOnce.sh nodes s ∧
    [QueueSection.push 0 firstJob, .push 0 secondJob, .pop 0 secondJob].foldlM
      ShootdownSys.after (.init 1 id) = some s := by
  have hsame (k : Kernel) : QueuesSame k k := ⟨rfl, rfl, rfl, rfl⟩
  obtain ⟨h₁, h₂, -⟩ := pushedTwice_onHeap
  obtain ⟨nodes', s', hs, h'⟩ := sections_refine (.cons (hsame _) h₁ (.cons (hsame _) h₂
    (.cons (hsame _) (.pop run_popSecond) (.same (hsame _))))) queueHeap_represents
  exact ⟨nodes', s', h', hs⟩

/-! ## The interrupt handler -/

/-- The queue of CPU `c` is emptied, and its elements are signalled from the head on. -/
def ShootdownSys.drain (s : ShootdownSys) (c : Nat) : ShootdownSys :=
  (s.queue c).foldl (fun s e => s.signal e.state) (s.setQueue c [])

theorem run_emptyShootdownQ_refines {steps : Nat} (h : Represents k.sh nodes s)
    (hrun : (emptyShootdownQ i steps).run k = .ok u k') :
    ∃ nodes', Represents k'.sh nodes' (s.drain i) := by
  induction steps generalizing k nodes s with
  | zero => exact (run_throw_ok.1 hrun).elim
  | succ steps ih =>
    obtain ⟨b, k₁, hempty, hrun⟩ := run_bind_ok.1 hrun
    obtain ⟨hb, rfl⟩ := run_isShootdownQEmpty_refines h hempty
    cases b with
    | true =>
      cases hrun
      have hnil := hb.1 rfl
      have hsame : s.setQueue i [] = s := by rw [ShootdownSys.setQueue, ← hnil, update_eq_self]
      refine ⟨nodes, ?_⟩
      rw [ShootdownSys.drain, hnil, hsame]
      exact h
    | false =>
      obtain ⟨r, k₂, hpop, hrun⟩ := run_bind_ok.1 hrun
      obtain ⟨e, rest, hq, rfl, h⟩ := run_popFromShootdownQ_refines h hpop
      obtain ⟨_, k₃, hprocess, hrun⟩ := run_bind_ok.1 hrun
      have hdrain : ((s.setQueue i rest).signal e.state).drain i = s.drain i := by
        rw [ShootdownSys.drain, ShootdownSys.drain, hq, List.foldl_cons]
        unfold ShootdownSys.signal
        split <;> simp [ShootdownSys.setQueue, ShootdownSys.setState]
      rw [← hdrain]
      exact ih (run_processShootdown_refines h hprocess) hrun

/-- A run of `cache_shootdown_interrupt_handler` empties the queue of its CPU: every element is
taken once and its state signalled, and the other queues stay as they are. -/
theorem interruptHandler_refines (h : Represents k.sh nodes s)
    (hrun : cacheShootdownInterruptHandler.run k = .ok () k') : ∃ c nodes',
      returned (getLogicalCoreVmmcacheShootdownQueueIndex.run k) = some c ∧
      Represents k'.sh nodes' (s.drain c) := by
  obtain ⟨c, k₁, hc, hrun⟩ := run_bind_ok.1 hrun
  obtain rfl := Kept.keeps (R := Eq) hc
  obtain ⟨nodes', h⟩ := run_emptyShootdownQ_refines h hrun
  exact ⟨c, nodes', by rw [hc]; rfl, h⟩

theorem interruptHandler_refines_pushedTwice : ∃ k' nodes',
    cacheShootdownInterruptHandler.run pushedTwice = .ok () k' ∧
      Represents k'.sh nodes'
        ((((ShootdownSys.init 1 id).pushElem firstJob 0).pushElem secondJob 0).drain 0) := by
  obtain ⟨-, -, nodes, -, hrep, -⟩ := pushedTwice_onHeap
  have hrun : cacheShootdownInterruptHandler.run pushedTwice = .ok () _ :=
    eq_of_returned (by decide +kernel)
  obtain ⟨c, nodes', hc, h'⟩ := interruptHandler_refines hrep hrun
  have h0 : returned (getLogicalCoreVmmcacheShootdownQueueIndex.run pushedTwice) = some 0 := by
    decide +kernel
  obtain rfl := Option.some.inj (hc.symm.trans h0)
  exact ⟨_, nodes', hrun, h'⟩

end

end GarbageOS
