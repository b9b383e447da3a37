import GarbageOS.Shootdown.Interleave
import Mathlib.Algebra.BigOperators.Group.Finset.Basic
import Mathlib.Algebra.Order.BigOperators.Group.Finset

/-!
# Signals of a shootdown state

While a state is in use, its signals received, the elements that carry it and the
pushes still to come add up to the number of queues it waits for, as long as no CPU
activates its queue after the queues were counted and before its own was tested.
A wait then returns only when no element carries the state any more.
-/

namespace GarbageOS

namespace Lib

theorem sum_range_add_one {f g : Nat → Nat} {n c : Nat} (hc : c < n) (hd : g c + 1 = f c)
    (h : ∀ j, j ≠ c → g j = f j) : ∑ j ∈ Finset.range n, g j + 1 = ∑ j ∈ Finset.range n, f j := by
  have hmem : c ∈ Finset.range n := Finset.mem_range.2 hc
  have hf := Finset.add_sum_erase _ f hmem
  have hg := Finset.add_sum_erase _ g hmem
  have he : ∑ j ∈ (Finset.range n).erase c, g j = ∑ j ∈ (Finset.range n).erase c, f j :=
    Finset.sum_congr rfl fun j hj => h j (Finset.ne_of_mem_erase hj)
  omega

end Lib

open Lib Function

def CallPc.countsFor (p : Nat) : CallPc → Bool
  | counting job _ _ => job.state == p
  | _ => false

/-- The queue from which on a call still pushes elements with a state. -/
def CallPc.dueFrom (p : Nat) : CallPc → Option Nat
  | testing job i | pushing job i => if job.state = p then some i else none
  | _ => none

/-- A call would miss the activation of queue `j`: it has looked at the queue while
counting and not yet tested it. -/
def CallPc.missesActivation (j : Nat) : CallPc → Prop
  | .counting _ i _ => j < i
  | .testing job i | .pushing job i => job.state ≠ 0 ∧ i ≤ j
  | _ => False

namespace ShootdownSys

/-- 1 if queue `j` is active and not the one of CPU `c`. -/
def others (s : ShootdownSys) (c j : Nat) : Nat := if j ≠ c ∧ s.active j then 1 else 0

/-- 1 if a call of CPU `c` at `pc` still pushes an element with state `p` to queue `j`. -/
def dueAt (s : ShootdownSys) (c : Nat) (pc : CallPc) (p j : Nat) : Nat :=
  match pc.dueFrom p with
  | some i => if i ≤ j then s.others c j else 0
  | none => 0

/-- How many elements with state `p` are in a queue or in the hands of its handler. -/
def heldBy (q : List QueueElem) (pc : HandlerPc) (p : Nat) : Nat :=
  q.countP (fun e => e.state == p) + if pc.elem.any (fun e => e.state == p) then 1 else 0

def heldIn (s : ShootdownSys) (p j : Nat) : Nat := heldBy (s.queue j) (s.handler j) p

/-- What holds of a call of CPU `c` at a place. -/
def CallOk (s : ShootdownSys) (c : Nat) : CallPc → Prop
  | .counting job i count => job.state ≠ 0 ∧ s.owner job.state = c ∧ s.pending job.state = true ∧
      i ≤ s.queuesCount ∧ count = ∑ j ∈ Finset.range i, s.others c j ∧
      (s.states job.state).emptiedQueuesCount = 0 ∧ ∀ j < s.queuesCount, s.heldIn job.state j = 0
  | .testing job _ => job.state ≠ 0 → s.owner job.state = c ∧ s.pending job.state = true
  | .pushing job i => (job.state ≠ 0 → s.owner job.state = c ∧ s.pending job.state = true) ∧
      i < s.queuesCount ∧ i ≠ c ∧ s.active i = true
  | .waiting p => s.owner p = c ∧ s.pending p = true
  | _ => True

/-- The books of a state whose owner is at a place in its calls. -/
structure StateOk (s : ShootdownSys) (pc : CallPc) (p : Nat) : Prop where
  bound : (s.states p).queuesToWaitCount ≤ s.queuesCount
  unused : s.pending p = false → ∀ j < s.queuesCount, s.heldIn p j = 0
  sum : s.pending p = true → pc.countsFor p = false →
    (s.states p).emptiedQueuesCount +
      ∑ j ∈ Finset.range s.queuesCount, (s.heldIn p j + s.dueAt (s.owner p) pc p j) =
        (s.states p).queuesToWaitCount

structure Accounted (s : ShootdownSys) : Prop where
  null : s.pending 0 = false
  handler : ∀ j, s.handler j ≠ .off → j < s.queuesCount
  calls : ∀ c, s.CallOk c (s.call c)
  books : ∀ p, p ≠ 0 → s.StateOk (s.call (s.owner p)) p

variable {s t : ShootdownSys} {c p j : Nat} {pc : CallPc} {job : EnqueueJob}

theorem accounted_init (n : Nat) (owner : Nat → Nat) : (init n owner).Accounted where
  null := rfl
  handler := by intro j h; exact absurd rfl h
  calls _ := trivial
  books p _ :=
    { bound := Nat.zero_le _
      unused := fun _ _ _ => rfl
      sum := by intro h; cases h }

/-! ## What the books depend on -/

structure SameQueues (s t : ShootdownSys) : Prop where
  count : t.queuesCount = s.queuesCount
  owner : t.owner = s.owner
  active : t.active = s.active

structure SameState (s t : ShootdownSys) (p : Nat) : Prop where
  pending : t.pending p = s.pending p
  states : t.states p = s.states p
  held : ∀ j < s.queuesCount, t.heldIn p j = s.heldIn p j

theorem SameQueues.others (h : SameQueues s t) (c j : Nat) : t.others c j = s.others c j := by
  simp only [ShootdownSys.others, h.active]

theorem SameQueues.dueAt (h : SameQueues s t) (c : Nat) (pc : CallPc) (p j : Nat) :
    t.dueAt c pc p j = s.dueAt c pc p j := by
  simp only [ShootdownSys.dueAt, h.others]

/-- Only while the queues are counted for a state, more than its flag matters. -/
theorem CallOk.congr (h : s.CallOk c pc) (hq : SameQueues s t)
    (hpend : ∀ p, s.owner p = c → t.pending p = s.pending p)
    (hs : ∀ p, p ≠ 0 → s.owner p = c → pc.countsFor p = true → SameState s t p) : t.CallOk c pc := by
  cases pc with
  | counting job i count =>
    obtain ⟨h0, ho, hp, hi, hc, he, hh⟩ := h
    have hsame := hs _ h0 ho (beq_self_eq_true _)
    refine ⟨h0, by rw [hq.owner, ho], by rw [hsame.pending, hp], by rw [hq.count]; exact hi, ?_,
      by rw [hsame.states, he], fun j hj => ?_⟩
    · rw [hc]
      exact Finset.sum_congr rfl fun j _ => (hq.others c j).symm
    · rw [hq.count] at hj
      rw [hsame.held j hj, hh j hj]
  | testing job i =>
    intro h0
    obtain ⟨ho, hp⟩ := h h0
    exact ⟨by rw [hq.owner, ho], by rw [hpend _ ho, hp]⟩
  | pushing job i =>
    obtain ⟨hj, hi, hne, ha⟩ := h
    refine ⟨fun h0 => ?_, by rw [hq.count]; exact hi, hne, by rw [hq.active]; exact ha⟩
    obtain ⟨ho, hp⟩ := hj h0
    exact ⟨by rw [hq.owner, ho], by rw [hpend _ ho, hp]⟩
  | waiting p =>
    obtain ⟨ho, hp⟩ := h
    exact ⟨by rw [hq.owner, ho], by rw [hpend _ ho, hp]⟩
  | _ => trivial

/-- The books of a state stay right when its owner moves to a place from which the
same pushes are to come. -/
theorem StateOk.congr {pc' : CallPc} (h : s.StateOk pc p) (hq : SameQueues s t)
    (hs : SameState s t p)
    (hdue : s.pending p = true → pc'.countsFor p = false → pc.countsFor p = false ∧
      ∀ j < s.queuesCount, s.dueAt (s.owner p) pc' p j = s.dueAt (s.owner p) pc p j) :
    t.StateOk pc' p := by
  refine { bound := ?_, unused := ?_, sum := ?_ }
  · rw [hs.states, hq.count]
    exact h.bound
  · intro hp j hj
    rw [hs.pending] at hp
    rw [hq.count] at hj
    rw [hs.held j hj, h.unused hp j hj]
  · intro hp hcf
    rw [hs.pending] at hp
    obtain ⟨hold, hsame⟩ := hdue hp hcf
    rw [hs.states, hq.count, ← h.sum hp hold]
    congr 1
    apply Finset.sum_congr rfl
    intro j hj
    have hlt := Finset.mem_range.1 hj
    rw [hs.held j hlt, hq.dueAt, hq.owner, hsame j hlt]

theorem Accounted.pending_ne (h : s.Accounted) (hp : s.pending p = true) : p ≠ 0 := by
  rintro rfl
  rw [h.null] at hp
  cases hp

section

variable (h : s.Accounted) (hq : SameQueues s t) (hhandler : t.handler = s.handler)
  (hcall : t.call = update s.call c pc) (hnull : t.pending 0 = s.pending 0)

include h hq hhandler hcall hnull

/-- A step of a call of CPU `c`: what belongs to the other CPUs stays as it is. -/
theorem Accounted.callStep (hs : ∀ p, p ≠ 0 → s.owner p ≠ c → SameState s t p)
    (hpc : t.CallOk c pc) (hmine : ∀ p, p ≠ 0 → s.owner p = c → t.StateOk pc p) : t.Accounted := by
  refine { null := hnull.trans h.null, handler := ?_, calls := ?_, books := ?_ }
  · rw [hhandler, hq.count]
    exact h.handler
  · intro c'
    by_cases hc : c' = c
    · subst hc
      rw [hcall, update_self]
      exact hpc
    · rw [hcall, update_of_ne hc]
      refine (h.calls c').congr hq (fun p ho => ?_) fun p h0 ho _ => hs p h0 (ho ▸ hc)
      by_cases h0 : p = 0
      · rw [h0, hnull]
      · exact (hs p h0 (ho ▸ hc)).pending
  · intro p h0
    by_cases hc : s.owner p = c
    · rw [hq.owner, hcall, hc, update_self]
      exact hmine p h0 hc
    · rw [hq.owner, hcall, update_of_ne hc]
      exact (h.books p h0).congr hq (hs p h0 hc) fun _ hcf => ⟨hcf, fun _ _ => rfl⟩

theorem Accounted.stateStep {q : Nat} (hown : q ≠ 0 → s.owner q = c)
    (hs : ∀ p, p ≠ q → SameState s t p) (hpc : t.CallOk c pc)
    (hdue : ∀ p, p ≠ q → (s.call c).countsFor p = false ∧
      ∀ j, s.dueAt c pc p j = s.dueAt c (s.call c) p j)
    (hmine : q ≠ 0 → t.StateOk pc q) : t.Accounted := by
  refine h.callStep hq hhandler hcall hnull (fun p h0 hne => hs p ?_) hpc fun p h0 hc => ?_
  · rintro rfl
    exact hne (hown h0)
  · by_cases hpq : p = q
    · subst hpq
      exact hmine h0
    · subst hc
      refine (h.books p h0).congr hq (hs p hpq) fun _ _ => ?_
      exact ⟨(hdue p hpq).1, fun j _ => (hdue p hpq).2 j⟩

end

theorem Accounted.setCall (h : s.Accounted) (hpc : s.CallOk c pc)
    (hdue : ∀ p, s.pending p = true → s.owner p = c → pc.countsFor p = false →
      (s.call c).countsFor p = false ∧
        ∀ j < s.queuesCount, s.dueAt c pc p j = s.dueAt c (s.call c) p j) :
    (s.setCall c pc).Accounted := by
  have hq : SameQueues s (s.setCall c pc) := ⟨rfl, rfl, rfl⟩
  have hs (p : Nat) : SameState s (s.setCall c pc) p := ⟨rfl, rfl, fun _ _ => rfl⟩
  refine h.callStep hq rfl rfl rfl (fun p _ _ => hs p) (hpc.congr hq (fun _ _ => rfl) fun p _ _ _ => hs p) ?_
  rintro p h0 rfl
  exact (h.books p h0).congr hq (hs p) fun hp hcf => hdue p hp rfl hcf

/-! ## Pushes to come -/

theorem dueAt_testing (c : Nat) (job : EnqueueJob) (i j : Nat) :
    s.dueAt c (.testing job i) job.state j = if i ≤ j then s.others c j else 0 := by
  simp [dueAt, CallPc.dueFrom]

theorem dueAt_pushing (c : Nat) (job : EnqueueJob) (i p j : Nat) :
    s.dueAt c (.pushing job i) p j = s.dueAt c (.testing job i) p j := rfl

theorem dueAt_testing_ne (h : job.state ≠ p) (c i j : Nat) :
    s.dueAt c (.testing job i) p j = 0 := by
  simp [dueAt, CallPc.dueFrom, h]

theorem dueAt_skip {i : Nat} (hskip : ¬ (s.active i = true ∧ i ≠ c)) (p j : Nat) :
    s.dueAt c (.testing job (i + 1)) p j = s.dueAt c (.testing job i) p j := by
  have hzero : s.others c i = 0 := if_neg fun hh => hskip ⟨hh.2, hh.1⟩
  by_cases hp : job.state = p
  · subst hp
    rw [dueAt_testing, dueAt_testing]
    by_cases hij : j = i
    · rw [hij, if_neg (by omega), if_pos (Nat.le_refl _), hzero]
    · by_cases hle : i ≤ j
      · rw [if_pos (by omega), if_pos hle]
      · rw [if_neg (by omega), if_neg hle]
  · rw [dueAt_testing_ne hp, dueAt_testing_ne hp]

theorem dueAt_end {i : Nat} (job : EnqueueJob) (p : Nat) (h : ¬ i ≤ j) :
    s.dueAt c (.testing job i) p j = 0 := by
  by_cases hp : job.state = p
  · subst hp
    rw [dueAt_testing, if_neg h]
  · rw [dueAt_testing_ne hp]

theorem others_le_one (c j : Nat) : s.others c j ≤ 1 := by
  unfold others; split <;> omega

theorem sum_others_le (c i : Nat) : ∑ j ∈ Finset.range i, s.others c j ≤ i := by
  calc ∑ j ∈ Finset.range i, s.others c j ≤ ∑ _j ∈ Finset.range i, 1 :=
        Finset.sum_le_sum fun j _ => others_le_one c j
    _ = i := by simp

/-! ## Steps that move a call on -/

section

variable {c i count : Nat} {job : EnqueueJob}

section

variable (h : s.Accounted)

include h

theorem Accounted.moveQuiet {pc : CallPc} (hpc : s.CallOk c pc)
    (hold : ∀ p, (s.call c).countsFor p = false ∧ (s.call c).dueFrom p = none)
    (hnew : ∀ p, p ≠ 0 → pc.dueFrom p = none) : (s.setCall c pc).Accounted := by
  apply h.setCall hpc
  intro p hp _ _
  refine ⟨(hold p).1, fun j _ => ?_⟩
  simp only [dueAt, hnew p (h.pending_ne hp), (hold p).2]

theorem Accounted.countNext (hn : s.queuesCount < 2 ^ 32) (hc : s.call c = .counting job i count)
    (hi : i < s.queuesCount) :
    (s.setCall c (.counting job (i + 1)
      (if i ≠ c ∧ s.active i then (count + 1) % 2 ^ 32 else count))).Accounted := by
  have hok := h.calls c
  rw [hc] at hok
  obtain ⟨h0, ho, hp, -, hcount, he, hheld⟩ := hok
  apply h.setCall
  · refine ⟨h0, ho, hp, hi, ?_, he, hheld⟩
    have hle := sum_others_le (s := s) c i
    rw [Finset.sum_range_succ, ← hcount, others]
    split
    · rw [Nat.mod_eq_of_lt (by omega)]
    · rw [Nat.add_zero]
  · intro p _ _ hcf
    rw [hc]
    exact ⟨hcf, fun j _ => rfl⟩

theorem Accounted.testSkip (hc : s.call c = .testing job i) (hskip : ¬ (s.active i = true ∧ i ≠ c)) :
    (s.setCall c (.testing job (i + 1))).Accounted := by
  have hok := h.calls c
  rw [hc] at hok
  have hok' : s.CallOk c (.testing job (i + 1)) := hok
  refine h.setCall hok' fun p _ _ _ => ?_
  rw [hc]
  exact ⟨rfl, fun j _ => dueAt_skip hskip p j⟩

theorem Accounted.testActive (hc : s.call c = .testing job i) (hi : i < s.queuesCount)
    (ha : s.active i = true) (hne : i ≠ c) : (s.setCall c (.pushing job i)).Accounted := by
  have hok := h.calls c
  rw [hc] at hok
  have hok' : s.CallOk c (.pushing job i) := ⟨hok, hi, hne, ha⟩
  refine h.setCall hok' fun p _ _ _ => ?_
  rw [hc]
  exact ⟨rfl, fun j _ => rfl⟩

theorem Accounted.testEnd (hc : s.call c = .testing job i) (hi : ¬ i < s.queuesCount) :
    (s.setCall c .idle).Accounted := by
  have hok : s.CallOk c .idle := trivial
  refine h.setCall hok fun p _ _ _ => ?_
  rw [hc]
  refine ⟨rfl, fun j hj => ?_⟩
  rw [dueAt_end job p (by omega)]
  rfl

/-! ## Steps that change the books -/

theorem Accounted.startState (hc : s.call c = .idle) (h0 : job.state ≠ 0)
    (ho : s.owner job.state = c) (hp : s.pending job.state = false) :
    ((s.beginCall job).setCall c (.counting job 0 0)).Accounted := by
  have hq : SameQueues s ((s.beginCall job).setCall c (.counting job 0 0)) := ⟨rfl, rfl, rfl⟩
  have hs {p : Nat} (hne : p ≠ job.state) :
      SameState s ((s.beginCall job).setCall c (.counting job 0 0)) p :=
    ⟨update_of_ne hne .., update_of_ne hne .., fun _ _ => rfl⟩
  have hpend : ((s.beginCall job).setCall c (.counting job 0 0)).pending job.state = true :=
    update_self ..
  have hstate : ((s.beginCall job).setCall c (.counting job 0 0)).states job.state =
      { s.states job.state with emptiedQueuesCount := 0 } := update_self ..
  have hbook := h.books job.state h0
  refine h.stateStep hq rfl rfl (update_of_ne h0.symm ..) (fun _ => ho) (fun p => hs) ?_
    (fun p _ => by rw [hc]; exact ⟨rfl, fun j => rfl⟩) fun _ => ?_
  · refine ⟨h0, ho, hpend, Nat.zero_le _, rfl, ?_, hbook.unused hp⟩
    rw [hstate]
  · refine { bound := ?_, unused := ?_, sum := ?_ }
    · rw [hstate]; exact hbook.bound
    · intro hf; rw [hpend] at hf; cases hf
    · intro _ hcf
      simp [CallPc.countsFor] at hcf

theorem Accounted.countEnd (hc : s.call c = .counting job i count) (hi : ¬ i < s.queuesCount) :
    ((s.setState job.state { s.states job.state with queuesToWaitCount := count }).setCall c
      (.testing job 0)).Accounted := by
  have hok := h.calls c
  rw [hc] at hok
  obtain ⟨h0, ho, hp, hle, hcount, he, hheld⟩ := hok
  obtain rfl : i = s.queuesCount := by omega
  generalize ht : (s.setState job.state { s.states job.state with queuesToWaitCount := count }).setCall
    c (.testing job 0) = t
  have hq : SameQueues s t := by subst ht; exact ⟨rfl, rfl, rfl⟩
  have hs {p : Nat} (hne : p ≠ job.state) : SameState s t p := by
    subst ht; exact ⟨rfl, update_of_ne hne .., fun _ _ => rfl⟩
  have hstate : t.states job.state = ⟨count, 0⟩ := by
    subst ht
    show update s.states job.state _ job.state = _
    rw [update_self, he]
  have hpend : t.pending = s.pending := by subst ht; rfl
  have hin (p j : Nat) : t.heldIn p j = s.heldIn p j := by subst ht; rfl
  have hcall : t.call = update s.call c (.testing job 0) := by subst ht; rfl
  refine h.stateStep hq (by subst ht; rfl) hcall (by rw [hpend]) (fun _ => ho) (fun p => hs) ?_
    (fun p hpj => ?_) fun _ => ?_
  · intro _
    rw [hq.owner, hpend]
    exact ⟨ho, hp⟩
  · rw [hc]
    refine ⟨by simpa [CallPc.countsFor] using fun he => hpj he.symm, fun j => ?_⟩
    rw [dueAt_testing_ne (Ne.symm hpj)]
    rfl
  · refine { bound := ?_, unused := ?_, sum := ?_ }
    · rw [hstate, hq.count, hcount]
      exact sum_others_le c _
    · intro hf; rw [hpend, hp] at hf; cases hf
    · intro _ _
      rw [hstate, hcount, hq.count]
      show 0 + _ = _
      rw [Nat.zero_add]
      apply Finset.sum_congr rfl
      intro j hj
      rw [hin, hheld j (Finset.mem_range.1 hj), hq.dueAt, hq.owner, ho, dueAt_testing,
        if_pos (Nat.zero_le _), Nat.zero_add]

end

theorem heldBy_cons (e : QueueElem) (q : List QueueElem) (pc : HandlerPc) (p : Nat) :
    heldBy (e :: q) pc p = heldBy q pc p + if e.state = p then 1 else 0 := by
  simp only [heldBy, List.countP_cons, beq_iff_eq]
  omega

theorem heldIn_pushElem (job : EnqueueJob) (i p j : Nat) :
    (s.pushElem job i).heldIn p j = s.heldIn p j + if j = i ∧ job.state = p then 1 else 0 := by
  show heldBy (update s.queue i (_ :: s.queue i) j) (s.handler j) p = _
  by_cases hj : j = i
  · subst hj
    rw [update_self, heldBy_cons, heldIn]
    simp
  · rw [update_of_ne hj, if_neg (fun hh => hj hh.1), heldIn, Nat.add_zero]

theorem Accounted.push (h : s.Accounted) (hc : s.call c = .pushing job i) :
    ((s.pushElem job i).setCall c (.testing job (i + 1))).Accounted := by
  have hok := h.calls c
  rw [hc] at hok
  obtain ⟨hjob, hi, hne, ha⟩ := hok
  have hq : SameQueues s ((s.pushElem job i).setCall c (.testing job (i + 1))) := ⟨rfl, rfl, rfl⟩
  have hin (p j : Nat) : ((s.pushElem job i).setCall c (.testing job (i + 1))).heldIn p j =
      s.heldIn p j + if j = i ∧ job.state = p then 1 else 0 := heldIn_pushElem job i p j
  have hs {p : Nat} (hpj : p ≠ job.state) :
      SameState s ((s.pushElem job i).setCall c (.testing job (i + 1))) p := by
    refine ⟨rfl, rfl, fun j _ => ?_⟩
    rw [hin, if_neg (fun hh => hpj hh.2.symm), Nat.add_zero]
  refine h.stateStep hq rfl rfl rfl (fun h0 => (hjob h0).1) (fun p => hs) hjob (fun p hpj => ?_)
    fun h0 => ?_
  · rw [hc]
    refine ⟨rfl, fun j => ?_⟩
    rw [dueAt_pushing, dueAt_testing_ne (Ne.symm hpj), dueAt_testing_ne (Ne.symm hpj)]
  · obtain ⟨ho, hp⟩ := hjob h0
    have hbook := h.books job.state h0
    refine { bound := hbook.bound, unused := ?_, sum := ?_ }
    · intro hf
      have : s.pending job.state = false := hf
      rw [hp] at this
      cases this
    · intro _ _
      refine Eq.trans ?_ (hbook.sum hp (by rw [ho, hc]; rfl))
      refine congrArg (_ + ·) (Finset.sum_congr rfl fun j _ => ?_)
      -- queue `i` now holds the element that was due to it
      have hone : s.others c i = 1 := if_pos ⟨hne, ha⟩
      rw [hin, hq.dueAt, hq.owner, ho, hc, dueAt_pushing, dueAt_testing, dueAt_testing]
      by_cases hj : j = i
      · subst hj
        rw [if_pos ⟨rfl, rfl⟩, if_neg (by omega), if_pos (Nat.le_refl _), hone]
      · rw [if_neg (fun hh => hj hh.1)]
        by_cases hle : i ≤ j
        · rw [if_pos (by omega), if_pos hle, Nat.add_zero]
        · rw [if_neg (by omega), if_neg hle, Nat.add_zero]

/-- A wait that returns finds its state in no queue and no handler. -/
theorem Accounted.heldIn_of_completed {p : Nat} (h : s.Accounted) (hc : s.call c = .waiting p)
    (hdone : s.completed p = true) : ∀ j < s.queuesCount, s.heldIn p j = 0 := by
  have hok := h.calls c
  rw [hc] at hok
  obtain ⟨ho, hp⟩ := hok
  have hsum := (h.books p (h.pending_ne hp)).sum hp (by rw [ho, hc]; rfl)
  have hge : (s.states p).queuesToWaitCount ≤ (s.states p).emptiedQueuesCount :=
    of_decide_eq_true hdone
  have hzero := Finset.sum_eq_zero_iff.1 (Nat.eq_zero_of_le_zero (by omega) :
    ∑ j ∈ Finset.range s.queuesCount, (s.heldIn p j + s.dueAt (s.owner p) (s.call (s.owner p)) p j) = 0)
  intro j hj
  have := hzero j (Finset.mem_range.2 hj)
  omega

theorem Accounted.waitReturn {p : Nat} (h : s.Accounted) (hc : s.call c = .waiting p)
    (hdone : s.completed p = true) :
    ({ s with pending := update s.pending p false }.setCall c .idle).Accounted := by
  have hheld := h.heldIn_of_completed hc hdone
  have hok := h.calls c
  rw [hc] at hok
  obtain ⟨ho, hp⟩ := hok
  have hp0 := h.pending_ne hp
  have hq : SameQueues s ({ s with pending := update s.pending p false }.setCall c .idle) :=
    ⟨rfl, rfl, rfl⟩
  have hs {p' : Nat} (hne : p' ≠ p) :
      SameState s ({ s with pending := update s.pending p false }.setCall c .idle) p' :=
    ⟨update_of_ne hne .., rfl, fun _ _ => rfl⟩
  refine h.stateStep hq rfl rfl (update_of_ne hp0.symm ..) (fun _ => ho) (fun p => hs) trivial
    (fun p _ => by rw [hc]; exact ⟨rfl, fun j => rfl⟩) fun h0 => ?_
  refine { bound := (h.books p h0).bound, unused := fun _ => hheld, sum := ?_ }
  intro hf
  have : update s.pending p false p = true := hf
  rw [update_self] at this
  cases this

end

/-! ## Activation -/

theorem others_activate {c' : Nat} (hne : j ≠ c) :
    others { s with active := update s.active c true } c' j = s.others c' j := by
  show (if j ≠ c' ∧ update s.active c true j then 1 else 0) = _
  rw [update_of_ne hne, others]

/-- A call that does not miss an activation has the same pushes to come. -/
theorem dueAt_activate {d : Nat} (hp : p ≠ 0) (hmiss : s.active c = false → ¬ pc.missesActivation
    c) :
    dueAt { s with active := update s.active c true } d pc p j = s.dueAt d pc p j := by
  by_cases ha : s.active c = true
  · have hsame : update s.active c true = s.active := by
      rw [← ha, update_eq_self]
    rw [hsame]
  have hm := hmiss (by simpa using ha)
  simp only [dueAt]
  cases hd : pc.dueFrom p with
  | none => rfl
  | some i =>
    show (if i ≤ j then _ else 0) = if i ≤ j then _ else 0
    by_cases hle : i ≤ j
    · rw [if_pos hle, if_pos hle]
      apply others_activate
      rintro rfl
      -- the call would push to the queue just activated
      cases pc with
      | testing job i' =>
        obtain ⟨hjp, hi⟩ := Option.ite_none_right_eq_some.1 hd
        cases hi
        exact hm ⟨hjp ▸ hp, hle⟩
      | pushing job i' =>
        obtain ⟨hjp, hi⟩ := Option.ite_none_right_eq_some.1 hd
        cases hi
        exact hm ⟨hjp ▸ hp, hle⟩
      | _ => cases hd
    · rw [if_neg hle, if_neg hle]

theorem Accounted.activate (h : s.Accounted)
    (hstable : s.active c = false → ∀ c', ¬ (s.call c').missesActivation c) :
    Accounted { s with active := update s.active c true } := by
  by_cases ha : s.active c = true
  · have hsame : update s.active c true = s.active := by
      rw [← ha, update_eq_self]
    rw [hsame]
    exact h
  have hmiss := hstable (by simpa using ha)
  refine { null := h.null, handler := h.handler, calls := ?_, books := ?_ }
  · intro c'
    have hok := h.calls c'
    have hm := hmiss c'
    show CallOk _ c' (s.call c')
    cases hcall : s.call c' with
    | counting job i count =>
      rw [hcall] at hok hm
      obtain ⟨h0, ho, hp, hi, hcount, hrest⟩ := hok
      refine ⟨h0, ho, hp, hi, ?_, hrest⟩
      rw [hcount]
      apply Finset.sum_congr rfl
      intro j hj
      exact (others_activate (by rintro rfl; exact hm (Finset.mem_range.1 hj))).symm
    | pushing job i =>
      rw [hcall] at hok
      obtain ⟨hjob, hi, hne, hai⟩ := hok
      refine ⟨hjob, hi, hne, ?_⟩
      by_cases hic : i = c
      · rw [hic]; exact update_self ..
      · exact (update_of_ne hic ..).trans hai
    | testing job i => rw [hcall] at hok; exact hok
    | waiting p => rw [hcall] at hok; exact hok
    | idle => trivial
    | activated => trivial
  · intro p h0
    refine { bound := (h.books p h0).bound, unused := (h.books p h0).unused, sum := ?_ }
    intro hp hcf
    refine Eq.trans ?_ ((h.books p h0).sum hp hcf)
    exact congrArg (_ + ·) (Finset.sum_congr rfl fun j _ =>
      congrArg (s.heldIn p j + ·) (dueAt_activate h0 fun _ => hmiss _))

/-! ## Steps of a handler -/

section

variable {c : Nat}

theorem Accounted.handlerMove {pc : HandlerPc} {q : Nat} (h : s.Accounted) (hlt : c < s.queuesCount)
    (hq : SameQueues s t) (hcall : t.call = s.call) (hpend : t.pending = s.pending)
    (hhandler : t.handler = update s.handler c pc) (hs : ∀ p, p ≠ 0 → p ≠ q → SameState s t p)
    (hused : q ≠ 0 → (s.call (s.owner q)).countsFor q = false)
    (hbook : q ≠ 0 → t.StateOk (s.call (s.owner q)) q) : t.Accounted := by
  refine { null := by rw [hpend]; exact h.null, handler := ?_, calls := ?_, books := ?_ }
  · intro j hj
    rw [hq.count]
    by_cases hjc : j = c
    · exact hjc ▸ hlt
    · rw [hhandler, update_of_ne hjc] at hj
      exact h.handler j hj
  · intro c'
    rw [hcall]
    refine (h.calls c').congr hq (fun p _ => by rw [hpend]) fun p h0 ho hcounts => hs p h0 ?_
    rintro rfl
    rw [← ho, hused h0] at hcounts
    cases hcounts
  · intro p h0
    rw [hq.owner, hcall]
    by_cases hpq : p = q
    · subst hpq
      exact hbook h0
    · exact (h.books p h0).congr hq (hs p h0 hpq) fun _ hcf => ⟨hcf, fun _ _ => rfl⟩

theorem Accounted.handlerStep {pc : HandlerPc} {q : List QueueElem}
    {flushed : Nat → List (Nat × Nat)} (h : s.Accounted) (hlt : c < s.queuesCount)
    (hheld : ∀ p, p ≠ 0 → heldBy q pc p = s.heldIn p c) :
    Accounted { s with
      handler := update s.handler c pc
      queue := update s.queue c q
      flushed := flushed } := by
  refine h.handlerMove (q := 0) hlt ⟨rfl, rfl, rfl⟩ rfl rfl rfl (fun p h0 _ => ⟨rfl, rfl, fun j _ => ?_⟩)
    (fun h0 => absurd rfl h0) fun h0 => absurd rfl h0
  show heldBy (update s.queue c q j) (update s.handler c pc j) p = _
  by_cases hj : j = c
  · subst hj
    rw [update_self, update_self, hheld p h0]
  · rw [update_of_ne hj, update_of_ne hj, heldIn]

theorem Accounted.setHandler {pc : HandlerPc} (h : s.Accounted) (hlt : c < s.queuesCount)
    (hold : (s.handler c).elem = none) (hnew : pc.elem = none) : (s.setHandler c pc).Accounted := by
  have hheld (p : Nat) : heldBy (s.queue c) pc p = s.heldIn p c := by
    rw [heldIn, heldBy, heldBy, hold, hnew]
  have hstep := @handlerStep s c pc (s.queue c) s.flushed h hlt fun p _ => hheld p
  rwa [update_eq_self] at hstep

theorem Accounted.handlerPop {e : QueueElem} {rest : List QueueElem} (h : s.Accounted)
    (hc : s.handler c = .popping) (hq : s.queue c = e :: rest) :
    ((s.setQueue c rest).setHandler c (.processing e)).Accounted := by
  apply h.handlerStep (h.handler c (by rw [hc]; simp))
  intro p _
  rw [heldIn, hq, hc]
  simp [heldBy, HandlerPc.elem, List.countP_cons]

theorem Accounted.handlerDelete {e : QueueElem} (h : s.Accounted)
    (hc : s.handler c = .processing e) :
    ((s.deleteRange c e.range).setHandler c (.signalling e)).Accounted := by
  have hheld (p : Nat) : heldBy (s.queue c) (.signalling e) p = s.heldIn p c := by
    rw [heldIn, hc]; rfl
  have hstep := fun flushed => @handlerStep s c (.signalling e) (s.queue c) flushed h
    (h.handler c (by rw [hc]; simp)) fun p _ => hheld p
  simp only [update_eq_self] at hstep
  unfold deleteRange
  split
  · exact hstep _
  · exact hstep _

theorem Accounted.handlerSignal {e : QueueElem} (h : s.Accounted) (hn : s.queuesCount < 2 ^ 32)
    (hc : s.handler c = .signalling e) : ((s.signal e.state).setHandler c .testing).Accounted := by
  have hlt := h.handler c (by rw [hc]; simp)
  have hheld (p : Nat) : heldBy (s.queue c) .testing p + (if e.state = p then 1 else 0) =
      s.heldIn p c := by
    rw [heldIn, hc]
    simp [heldBy, HandlerPc.elem]
  by_cases h0 : e.state = 0
  · have hsame (p : Nat) (hp : p ≠ 0) : heldBy (s.queue c) .testing p = s.heldIn p c := by
      rw [← hheld p, h0, if_neg hp.symm, Nat.add_zero]
    have hstep := @handlerStep s c .testing (s.queue c) s.flushed h hlt hsame
    rwa [update_eq_self, show s = s.signal e.state from (if_pos h0).symm] at hstep
  generalize ht : (s.signal e.state).setHandler c .testing = t
  rw [signal, if_neg h0] at ht
  have hq : SameQueues s t := by subst ht; exact ⟨rfl, rfl, rfl⟩
  have hpend : t.pending = s.pending := by subst ht; rfl
  have hcall : t.call = s.call := by subst ht; rfl
  have hhandler : t.handler = update s.handler c .testing := by subst ht; rfl
  have hin (p j : Nat) (hj : j ≠ c) : t.heldIn p j = s.heldIn p j := by
    rw [heldIn, hhandler, update_of_ne hj]
    subst ht
    rfl
  have hself (p : Nat) : t.heldIn p c + (if e.state = p then 1 else 0) = s.heldIn p c := by
    rw [← hheld, heldIn, hhandler, update_self]
    subst ht
    rfl
  have hs {p : Nat} (hp : p ≠ e.state) : SameState s t p := by
    refine ⟨by rw [hpend], by subst ht; exact update_of_ne hp .., fun j _ => ?_⟩
    by_cases hj : j = c
    · subst hj
      have := hself p
      rwa [if_neg (Ne.symm hp), Nat.add_zero] at this
    · exact hin p j hj
  -- the signalled state is in use and not being counted for
  have hused : s.pending e.state = true ∧
      (s.call (s.owner e.state)).countsFor e.state = false := by
    have hpos : s.heldIn e.state c ≠ 0 := by
      have := hself e.state
      rw [if_pos rfl] at this
      omega
    constructor
    · by_contra hf
      exact hpos ((h.books e.state h0).unused (by simpa using hf) c hlt)
    · have hok := h.calls (s.owner e.state)
      cases hcall : s.call (s.owner e.state) with
      | counting job i count =>
        rw [hcall] at hok
        by_contra hf
        have hje : job.state = e.state := by simpa [CallPc.countsFor] using hf
        exact hpos (hje ▸ hok.2.2.2.2.2.2 c hlt)
      | _ => rfl
  refine h.handlerMove hlt hq hcall hpend hhandler (fun p _ => hs) (fun _ => hused.2) fun _ => ?_
  obtain ⟨hp, hcf⟩ := hused
  have hbook := h.books e.state h0
  have hsum := hbook.sum hp hcf
  have hdrop : ∑ j ∈ Finset.range s.queuesCount,
        (t.heldIn e.state j + s.dueAt (s.owner e.state) (s.call (s.owner e.state)) e.state j) + 1 =
      ∑ j ∈ Finset.range s.queuesCount,
        (s.heldIn e.state j + s.dueAt (s.owner e.state) (s.call (s.owner e.state)) e.state j) := by
    apply sum_range_add_one hlt
    · have := hself e.state
      rw [if_pos rfl] at this
      omega
    · intro j hj
      rw [hin _ j hj]
  have hwait := hbook.bound
  have hstate : t.states e.state = { s.states e.state with
      emptiedQueuesCount := (s.states e.state).emptiedQueuesCount + 1 } := by
    subst ht
    show update s.states e.state _ e.state = _
    rw [update_self, Nat.mod_eq_of_lt (by omega)]
  refine { bound := ?_, unused := ?_, sum := ?_ }
  · rw [hstate, hq.count]; exact hwait
  · intro hf; rw [hpend, hp] at hf; cases hf
  · intro _ _
    rw [hstate, hq.count, ← hsum, ← hdrop]
    simp only [hq.dueAt, hq.owner]
    omega

end

/-! ## Runs -/

/-- No call misses the activation of a queue. -/
def NoMissedActivation (s : ShootdownSys) : Act → Prop
  | .activate c => s.active c = false → ∀ c', ¬ (s.call c').missesActivation c
  | _ => True

theorem Accounted.step {a : Act} (h : s.Accounted) (hn : s.queuesCount < 2 ^ 32)
    (ha : s.NoMissedActivation a) (hstep : s.step a = some t) : t.Accounted := by
  cases StepTo.of_step hstep with
  | @activate c _ hc =>
    refine (h.activate ha).moveQuiet trivial (fun p => ?_) fun _ _ => rfl
    show (s.call c).countsFor p = false ∧ (s.call c).dueFrom p = none
    rw [hc]
    exact ⟨rfl, rfl⟩
  | deleteAll _ hc => exact h.moveQuiet trivial (fun p => by rw [hc]; exact ⟨rfl, rfl⟩) fun _ _ => rfl
  | startNull _ hc h0 =>
    refine h.moveQuiet (fun hne => absurd h0 hne) (fun p => by rw [hc]; exact ⟨rfl, rfl⟩) ?_
    exact fun p hp => if_neg (by rw [h0]; exact hp.symm)
  | startState _ hc h0 ho hp => exact h.startState hc h0 ho hp
  | countNext _ hc hi => exact h.countNext hn hc hi
  | countEnd _ hc hi => exact h.countEnd hc hi
  | testActive _ hc hi hact hne => exact h.testActive hc hi hact hne
  | testSkip _ hc _ hskip => exact h.testSkip hc hskip
  | testEnd _ hc hi => exact h.testEnd hc hi
  | push _ hc => exact h.push hc
  | wait _ hc ho hp =>
    exact h.moveQuiet ⟨ho, hp⟩ (fun p => by rw [hc]; exact ⟨rfl, rfl⟩) fun _ _ => rfl
  | waitReturn _ hc hdone => exact h.waitReturn hc hdone
  | interrupt hlt ho => exact h.setHandler hlt (by rw [ho]; rfl) rfl
  | handlerEmpty ht hq => exact h.setHandler (h.handler _ (by rw [ht]; simp)) (by rw [ht]; rfl) rfl
  | handlerNonempty ht hq =>
    exact h.setHandler (h.handler _ (by rw [ht]; simp)) (by rw [ht]; rfl) rfl
  | handlerPop ht hq => exact h.handlerPop ht hq
  | handlerDelete ht => exact h.handlerDelete ht
  | handlerSignal ht => exact h.handlerSignal hn ht

theorem accounted_of_reaches {n : Nat} {owner : Nat → Nat} {Allowed : ShootdownSys → Act → Prop}
    (hallowed : ∀ s a, Allowed s a → s.NoMissedActivation a) (hn : n < 2 ^ 32)
    (hrun : Reaches Allowed (init n owner) s) : s.Accounted ∧ s.queuesCount = n := by
  refine @invariant_of_steps _ _ (fun s => s.Accounted ∧ s.queuesCount = n) ?_ _ _ hrun
    ⟨accounted_init n owner, rfl⟩
  rintro s t ⟨a, ha, hstep⟩ ⟨hacc, hcount⟩
  exact ⟨hacc.step (hcount ▸ hn) (hallowed s a ha) hstep,
    (StepTo.of_step hstep).queuesCount_eq.trans hcount⟩

/-- An element carries a state: it is in some queue, or was popped and not yet signalled. -/
def Referenced (s : ShootdownSys) (p : Nat) : Prop :=
  ∃ j < s.queuesCount, (∃ e ∈ s.queue j, e.state = p) ∨ ∃ e, (s.handler j).elem = some e ∧ e.state = p

theorem not_referenced (h : ∀ j < s.queuesCount, s.heldIn p j = 0) : ¬ s.Referenced p := by
  rintro ⟨j, hj, hmem⟩
  have hzero := h j hj
  rw [heldIn, heldBy] at hzero
  rcases hmem with ⟨e, he, hep⟩ | ⟨e, he, hep⟩
  · have : 0 < (s.queue j).countP (fun e => e.state == p) :=
      List.countP_pos_iff.2 ⟨e, he, by simpa using hep⟩
    omega
  · rw [he, if_pos (by simpa using hep)] at hzero
    omega

/-- In every run in which no call misses an activation, a wait that returns leaves no
reference to its state behind. -/
theorem unreferenced_of_waitReturn {n : Nat} {owner : Nat → Nat} {s t : ShootdownSys} {c p : Nat}
    (hn : n < 2 ^ 32) (hrun : Reaches NoMissedActivation (init n owner) s)
    (hc : s.call c = .waiting p) (hret : s.step (.waitReturn c) = some t) : ¬ s.Referenced p := by
  obtain ⟨hacc, -⟩ := accounted_of_reaches (fun _ _ h => h) hn hrun
  cases StepTo.of_step hret with
  | waitReturn _ hc' hdone =>
    rw [hc] at hc'
    cases hc'
    exact not_referenced (hacc.heldIn_of_completed hc hdone)

/-- CPU 0 shoots a page down on CPU 1, whose queue is active. -/
def oneShootdown : List Act :=
  [.deleteAll 1, .start 0 ⟨⟨4096, 1⟩, 8⟩, .count 0, .count 0, .count 0, .test 0, .test 0, .push 0,
    .test 0, .wait 0 8, .interrupt 1, .handlerTest 1, .handlerPop 1, .handlerDelete 1,
    .handlerSignal 1]

theorem unreferenced_after_oneShootdown : ∃ s t : ShootdownSys, s.call 0 = .waiting 8 ∧
    s.step (.waitReturn 0) = some t ∧ ¬ s.Referenced 8 := by
  have hact : ((init 2 fun _ => 0).step (.activate 1)).isSome = true := by decide
  obtain ⟨s₁, hs₁⟩ := Option.isSome_iff_exists.1 hact
  have hcheck : (((init 2 fun _ => 0).steps (.activate 1 :: oneShootdown)).any waitEnds) = true := by
    decide
  obtain ⟨s, hs, htest⟩ := steps_check hcheck
  obtain ⟨_, hs₁', hrest⟩ := Option.bind_eq_some_iff.1 hs
  rw [hs₁] at hs₁'
  cases hs₁'
  obtain ⟨hwait, t, ht⟩ := of_waitEnds htest
  have hrun : Reaches NoMissedActivation (init 2 fun _ => 0) s :=
    .head ⟨.activate 1, fun _ _ h => h, hs₁⟩
      (Reaches.of_steps (by simp [oneShootdown, NoMissedActivation]) hrest)
  exact ⟨s, t, hwait, ht, unreferenced_of_waitReturn (by decide) hrun hwait ht⟩

/-- CPU 1 activates its queue after CPU 0 counted the queues: CPU 0 then pushes to it
and returns at once from the wait. -/
def lateActivation : List Act :=
  [.start 0 ⟨⟨4096, 1⟩, 8⟩, .count 0, .count 0, .count 0, .activate 1, .test 0, .test 0, .push 0,
    .test 0, .wait 0 8]

theorem exists_early_return : ∃ s t c p, Reaches (fun _ _ => True) (init 2 fun _ => 0) s ∧
    s.call c = .waiting p ∧ s.step (.waitReturn c) = some t ∧ s.Referenced p := by
  have hcheck : (((init 2 fun _ => 0).steps lateActivation).any fun s =>
      s.waitEnds && s.queuesCount == 2 && (s.queue 1).any fun e => e.state == 8) = true := by
    decide
  obtain ⟨s, hs, htest⟩ := steps_check hcheck
  simp only [Bool.and_eq_true, beq_iff_eq, List.any_eq_true] at htest
  obtain ⟨⟨hends, hcount⟩, e, he, hstate⟩ := htest
  obtain ⟨hwait, t, ht⟩ := of_waitEnds hends
  exact ⟨s, t, 0, 8, .of_steps (fun _ _ _ => trivial) hs, hwait, ht, 1, by omega, .inl ⟨e, he, hstate⟩⟩

end ShootdownSys

end GarbageOS
