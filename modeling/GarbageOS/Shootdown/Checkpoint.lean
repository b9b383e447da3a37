import GarbageOS.Shootdown.Accounting

/-!
# The order of the shootdown queues

`empty_all_vmmcache_shootdown_queues` pushes a null range with a state and relies on
the queues being first in, first out: when that element is popped, everything pushed
before it should be gone. The queues are last in, first out, so this holds only when
an element with a state is pushed to an empty queue.
-/

namespace GarbageOS

open Lib Function

namespace ShootdownSys

variable {s t : ShootdownSys}

def Has (s : ShootdownSys) (j : Nat) (e : QueueElem) : Prop :=
  e ∈ s.queue j ∨ (s.handler j).elem = some e

/-- When the element at the head of a queue carries a state, nothing that was pushed
before it is left behind it. -/
def PopsInOrder (s : ShootdownSys) : Prop :=
  ∀ c e rest, s.queue c = e :: rest → e.state ≠ 0 → ∀ e' ∈ rest, ¬ e'.stamp < e.stamp

/-- Every range that was pushed before the call that uses a state began has been
processed by the CPU it was pushed for, the caller itself apart. -/
def EarlierProcessed (s : ShootdownSys) (p : Nat) : Prop :=
  ∀ j e, j ≠ s.owner p → s.Has j e → ¬ e.stamp < (s.record p).since

/-- An element with a state is pushed to an empty queue only. -/
def CheckpointsOnEmpty (s : ShootdownSys) : Act → Prop
  | .push c => ∀ job i, s.call c = .pushing job i → job.state ≠ 0 → s.queue i = []
  | _ => True

def OnlyLast : List QueueElem → Prop
  | [] => True
  | e :: rest => (e.state ≠ 0 → rest = []) ∧ OnlyLast rest

structure Ordered (s : ShootdownSys) : Prop where
  active_lt : ∀ j, s.active j = true → j < s.queuesCount
  active : ∀ j e, s.Has j e → s.active j = true
  stamp_lt : ∀ j e, s.Has j e → e.stamp < s.clock
  since_le : ∀ p, (s.record p).since ≤ s.clock
  since : ∀ j e, s.Has j e → e.state ≠ 0 → (s.record e.state).since ≤ e.stamp
  last : ∀ j, OnlyLast (s.queue j)
  old : ∀ p, s.pending p = true → ∀ j e, j ≠ s.owner p → s.Has j e →
    e.stamp < (s.record p).since → (s.call (s.owner p)).countsFor p = true ∨
      s.dueAt (s.owner p) (s.call (s.owner p)) p j ≠ 0 ∨ ∃ e' ∈ s.queue j, e'.state = p

theorem ordered_init (n : Nat) (owner : Nat → Nat) : (init n owner).Ordered := by
  have hnone (j : Nat) (e : QueueElem) : ¬ (init n owner).Has j e := by
    rintro (h | h) <;> cases h
  refine { active_lt := ?_, active := ?_, stamp_lt := ?_, since_le := ?_, since := ?_, last := ?_,
           old := ?_ }
  · intro j h; cases h
  · intro j e h; exact (hnone j e h).elim
  · intro j e h; exact (hnone j e h).elim
  · intro p; exact Nat.zero_le _
  · intro j e h; exact (hnone j e h).elim
  · intro j; trivial
  · intro p h; cases h

/-! ## Steps of a call -/

theorem Ordered.setCall {c : Nat} {pc : CallPc} (h : s.Ordered)
    (hdue : ∀ p j, s.pending p = true → j ≠ c → s.active j = true →
      (s.call c).countsFor p = true ∨ s.dueAt c (s.call c) p j ≠ 0 →
      pc.countsFor p = true ∨ s.dueAt c pc p j ≠ 0) : (s.setCall c pc).Ordered := by
  refine { h with old := fun p hp j e hj he hold => ?_ }
  have hcases := h.old p hp j e hj he hold
  show (update s.call c pc (s.owner p)).countsFor p = true ∨
    s.dueAt (s.owner p) (update s.call c pc (s.owner p)) p j ≠ 0 ∨ _
  by_cases hc : s.owner p = c
  · replace hj : j ≠ c := hc ▸ hj
    rw [hc, update_self]
    rw [hc] at hcases
    rcases hcases with hcf | hd | hq
    · exact or_assoc.1 (.inl (hdue p j hp hj (h.active j e he) (.inl hcf)))
    · exact or_assoc.1 (.inl (hdue p j hp hj (h.active j e he) (.inr hd)))
    · exact .inr (.inr hq)
  · rw [update_of_ne hc]
    exact hcases

/-- A call that had nothing to push or count moves on. -/
theorem Ordered.moveQuiet {c : Nat} {pc : CallPc} (h : s.Ordered)
    (hold : ∀ p, (s.call c).countsFor p = false ∧ (s.call c).dueFrom p = none) :
    (s.setCall c pc).Ordered := by
  apply h.setCall
  rintro p j - - - (hcf | hd)
  · rw [(hold p).1] at hcf
    cases hcf
  · simp only [dueAt, (hold p).2] at hd
    exact absurd rfl hd

section

variable {c i count : Nat} {job : EnqueueJob}

theorem Ordered.startState (h : s.Ordered) (hacc : s.Accounted) (hc : s.call c = .idle)
    (h0 : job.state ≠ 0) (ho : s.owner job.state = c) (hp : s.pending job.state = false) :
    ((s.beginCall job).setCall c (.counting job 0 0)).Ordered := by
  have hunref : ¬ s.Referenced job.state := not_referenced ((hacc.books _ h0).unused hp)
  have hself : update s.record job.state ⟨job.range, s.clock, s.active⟩ job.state =
    ⟨job.range, s.clock, s.active⟩ := update_self ..
  refine { h with since_le := ?_, since := ?_, old := ?_ }
  · intro p
    show (update s.record job.state _ p).since ≤ s.clock
    by_cases hpj : p = job.state
    · rw [hpj, hself]
    · rw [update_of_ne hpj]; exact h.since_le p
  · intro j e he hne
    show (update s.record job.state _ e.state).since ≤ e.stamp
    have hej : e.state ≠ job.state := by
      intro heq
      refine hunref ⟨j, h.active_lt j (h.active j e he), ?_⟩
      rcases he with he | he
      · exact .inl ⟨e, he, heq⟩
      · exact .inr ⟨e, he, heq⟩
    rw [update_of_ne hej]
    exact h.since j e he hne
  · intro p hpt j e hj he hold
    show (update s.call c (.counting job 0 0) (s.owner p)).countsFor p = true ∨
      s.dueAt (s.owner p) (update s.call c (.counting job 0 0) (s.owner p)) p j ≠ 0 ∨ _
    by_cases hpj : p = job.state
    · left
      rw [hpj, ho, update_self]
      simp [CallPc.countsFor]
    · have hpt' : s.pending p = true := (update_of_ne hpj ..).symm.trans hpt
      have hold' : e.stamp < (s.record p).since := by
        have : e.stamp < (update s.record job.state ⟨job.range, s.clock, s.active⟩ p).since :=
          hold
        rwa [update_of_ne hpj] at this
      have hcases := h.old p hpt' j e hj he hold'
      by_cases hcc : s.owner p = c
      · rw [hcc, hc] at hcases
        rcases hcases with hcf | hd | hq
        · cases hcf
        · exact absurd rfl hd
        · exact .inr (.inr hq)
      · rw [update_of_ne hcc]
        exact hcases

theorem Ordered.countEnd (h : s.Ordered) (hc : s.call c = .counting job i count) :
    ((s.setState job.state { s.states job.state with queuesToWaitCount := count }).setCall c
      (.testing job 0)).Ordered := by
  have hstates : (s.setState job.state
      { s.states job.state with queuesToWaitCount := count }).Ordered := { h with }
  apply hstates.setCall
  intro p j hp hj ha hor
  have hor' : (s.call c).countsFor p = true ∨ s.dueAt c (s.call c) p j ≠ 0 := hor
  rw [hc] at hor'
  right
  rcases hor' with hcf | hd
  · obtain rfl : job.state = p := by simpa [CallPc.countsFor] using hcf
    show s.dueAt c (.testing job 0) job.state j ≠ 0
    rw [dueAt_testing, if_pos (Nat.zero_le _), others, if_pos ⟨hj, ha⟩]
    exact Nat.one_ne_zero
  · exact absurd rfl hd

theorem has_pushElem {j : Nat} {e : QueueElem} (h : ((s.pushElem job i).Has j e)) :
    s.Has j e ∨ j = i ∧ e = ⟨job.range, job.state, s.clock⟩ := by
  rcases h with h | h
  · replace h : e ∈ update s.queue i (⟨job.range, job.state, s.clock⟩ :: s.queue i) j := h
    by_cases hj : j = i
    · subst hj
      rw [update_self] at h
      rcases List.mem_cons.1 h with rfl | h
      · exact .inr ⟨rfl, rfl⟩
      · exact .inl (.inl h)
    · rw [update_of_ne hj] at h
      exact .inl (.inl h)
  · exact .inl (.inr h)

theorem Ordered.push (h : s.Ordered) (hacc : s.Accounted) (hc : s.call c = .pushing job i)
    (hempty : job.state ≠ 0 → s.queue i = []) :
    ((s.pushElem job i).setCall c (.testing job (i + 1))).Ordered := by
  have hok := hacc.calls c
  rw [hc] at hok
  obtain ⟨hjob, hi, hne, ha⟩ := hok
  refine { h with active := ?_, stamp_lt := ?_, since_le := ?_, since := ?_, last := ?_, old := ?_ }
  · intro j e he
    rcases has_pushElem he with he | ⟨rfl, -⟩
    · exact h.active j e he
    · exact ha
  · intro j e he
    show e.stamp < s.clock + 1
    rcases has_pushElem he with he | ⟨-, rfl⟩
    · exact Nat.lt_succ_of_lt (h.stamp_lt j e he)
    · exact Nat.lt_succ_self _
  · intro p
    exact Nat.le_succ_of_le (h.since_le p)
  · intro j e he h0
    rcases has_pushElem he with he | ⟨-, rfl⟩
    · exact h.since j e he h0
    · exact h.since_le _
  · intro j
    show OnlyLast (update s.queue i (_ :: s.queue i) j)
    by_cases hj : j = i
    · subst hj
      rw [update_self]
      exact ⟨hempty, h.last j⟩
    · rw [update_of_ne hj]; exact h.last j
  · intro p hp j e hj he hold
    have hp' : s.pending p = true := hp
    -- the new element is not older than the call
    have he' : s.Has j e := by
      rcases has_pushElem he with he | ⟨-, rfl⟩
      · exact he
      · exact absurd hold (Nat.not_lt.2 (h.since_le p))
    have hmem {e' : QueueElem} (hq : e' ∈ s.queue j) : e' ∈ (s.pushElem job i).queue j := by
      show e' ∈ update s.queue i (_ :: s.queue i) j
      by_cases hji : j = i
      · subst hji
        rw [update_self]
        exact List.mem_cons_of_mem _ hq
      · rwa [update_of_ne hji]
    show (update s.call c (.testing job (i + 1)) (s.owner p)).countsFor p = true ∨
      s.dueAt (s.owner p) (update s.call c (.testing job (i + 1)) (s.owner p)) p j ≠ 0 ∨
      ∃ e' ∈ (s.pushElem job i).queue j, e'.state = p
    rcases h.old p hp' j e hj he' hold with hcf | hd | ⟨e', hq, hs⟩
    · left
      by_cases hcc : s.owner p = c
      · rw [hcc, hc] at hcf; cases hcf
      · rwa [update_of_ne hcc]
    · right
      by_cases hcc : s.owner p = c
      · rw [hcc, hc] at hd
        rw [hcc, update_self]
        by_cases hpj : job.state = p
        · subst hpj
          rw [dueAt_pushing, dueAt_testing] at hd
          by_cases hji : j = i
          · -- it was due to the queue it is pushed to
            right
            subst hji
            refine ⟨⟨job.range, job.state, s.clock⟩, ?_, rfl⟩
            show _ ∈ update s.queue j (_ :: s.queue j) j
            rw [update_self]
            exact List.mem_cons_self
          · left
            rw [dueAt_testing]
            by_cases hle : i ≤ j
            · rw [if_pos (by omega)]
              rwa [if_pos hle] at hd
            · rw [if_neg hle] at hd
              exact absurd rfl hd
        · rw [dueAt_pushing, dueAt_testing_ne hpj] at hd
          exact absurd rfl hd
      · rw [update_of_ne hcc]
        exact .inl hd
    · exact .inr (.inr ⟨e', hmem hq, hs⟩)

theorem Ordered.waitReturn {p : Nat} (h : s.Ordered) (hc : s.call c = .waiting p) :
    ({ s with pending := update s.pending p false }.setCall c .idle).Ordered := by
  have hpend : Ordered { s with pending := update s.pending p false } := by
    refine { h with old := fun p' hp' => ?_ }
    have hne : p' ≠ p := by
      rintro rfl
      have : update s.pending p' false p' = true := hp'
      rw [update_self] at this
      cases this
    exact h.old p' ((update_of_ne hne ..).symm.trans hp')
  apply hpend.moveQuiet
  intro p'
  show (s.call c).countsFor p' = false ∧ (s.call c).dueFrom p' = none
  rw [hc]
  exact ⟨rfl, rfl⟩

theorem Ordered.activate (h : s.Ordered) (hacc : s.Accounted) (hlt : c < s.queuesCount)
    (hstable : s.active c = false → ∀ c', ¬ (s.call c').missesActivation c) :
    Ordered { s with active := update s.active c true } := by
  refine { h with active_lt := ?_, active := ?_, old := ?_ }
  · intro j hj
    by_cases hjc : j = c
    · exact hjc ▸ hlt
    · exact h.active_lt j ((update_of_ne hjc ..).symm.trans hj)
  · intro j e he
    by_cases hjc : j = c
    · rw [hjc]; exact update_self ..
    · exact (update_of_ne hjc ..).trans (h.active j e he)
  · intro p hp j e hj he hold
    have hdue := dueAt_activate (s := s) (d := s.owner p) (j := j) (hacc.pending_ne hp)
      fun ha => hstable ha (s.owner p)
    rcases h.old p hp j e hj he hold with hcf | hd | hq
    · exact .inl hcf
    · exact .inr (.inl (hdue.trans_ne hd))
    · exact .inr (.inr hq)

/-! ## Steps of a handler -/

/-- A step of a handler after which it has nothing new and the queue is what it was. -/
theorem Ordered.setHandler {pc : HandlerPc} (h : s.Ordered)
    (helem : ∀ e, pc.elem = some e → (s.handler c).elem = some e) : (s.setHandler c pc).Ordered := by
  have hhas {j : Nat} {e : QueueElem} (he : (s.setHandler c pc).Has j e) : s.Has j e := by
    rcases he with he | he
    · exact .inl he
    · replace he : (update s.handler c pc j).elem = some e := he
      by_cases hj : j = c
      · subst hj
        rw [update_self] at he
        exact .inr (helem e he)
      · rw [update_of_ne hj] at he
        exact .inr he
  exact
    { h with
      active := fun j e he => h.active j e (hhas he)
      stamp_lt := fun j e he => h.stamp_lt j e (hhas he)
      since := fun j e he => h.since j e (hhas he)
      old := fun p hp j e hj he => h.old p hp j e hj (hhas he) }

theorem Ordered.handlerPop {e : QueueElem} {rest : List QueueElem} (h : s.Ordered)
    (hacc : s.Accounted) (hq : s.queue c = e :: rest) :
    ((s.setQueue c rest).setHandler c (.processing e)).Ordered := by
  have hhas {j : Nat} {x : QueueElem}
      (hx : ((s.setQueue c rest).setHandler c (.processing e)).Has j x) :
      s.Has j x ∧ (j = c → x ∈ rest ∨ x = e) := by
    rcases hx with hx | hx
    · replace hx : x ∈ update s.queue c rest j := hx
      by_cases hj : j = c
      · subst hj
        rw [update_self] at hx
        exact ⟨.inl (hq ▸ List.mem_cons_of_mem _ hx), fun _ => .inl hx⟩
      · rw [update_of_ne hj] at hx
        exact ⟨.inl hx, fun he => absurd he hj⟩
    · replace hx : (update s.handler c (.processing e) j).elem = some x := hx
      by_cases hj : j = c
      · subst hj
        rw [update_self] at hx
        cases hx
        exact ⟨.inl (hq ▸ List.mem_cons_self), fun _ => .inr rfl⟩
      · rw [update_of_ne hj] at hx
        exact ⟨.inr hx, fun he => absurd he hj⟩
  have hlast : OnlyLast (e :: rest) := hq ▸ h.last c
  refine { h with
    active := fun j x hx => h.active j x (hhas hx).1
    stamp_lt := fun j x hx => h.stamp_lt j x (hhas hx).1
    since := fun j x hx => h.since j x (hhas hx).1
    last := ?_, old := ?_ }
  · intro j
    show OnlyLast (update s.queue c rest j)
    by_cases hj : j = c
    · subst hj; rw [update_self]; exact hlast.2
    · rw [update_of_ne hj]; exact h.last j
  · intro p hp j x hj hx hold
    rcases h.old p hp j x hj (hhas hx).1 hold with hcf | hd | ⟨e', he', hs⟩
    · exact .inl hcf
    · exact .inr (.inl hd)
    · refine .inr (.inr ?_)
      show ∃ e' ∈ update s.queue c rest j, e'.state = p
      by_cases hjc : j = c
      · subst hjc
        rw [update_self]
        rw [hq] at he'
        rcases List.mem_cons.1 he' with rfl | he'
        · -- the popped element carries the state: it was the only one, and is not old
          have h0 : e'.state ≠ 0 := hs ▸ hacc.pending_ne hp
          have hrest := hlast.1 h0
          have hxe : x = e' := by
            rcases (hhas hx).2 rfl with hx | hx
            · rw [hrest] at hx; cases hx
            · exact hx
          have hge := h.since j e' (.inl (hq ▸ List.mem_cons_self)) h0
          rw [hs] at hge
          rw [hxe] at hold
          exact absurd hold (Nat.not_lt.2 hge)
        · exact ⟨e', he', hs⟩
      · rw [update_of_ne hjc]
        exact ⟨e', he', hs⟩

end

/-! ## Runs -/

theorem Ordered.step {a : Act} (h : s.Ordered) (hacc : s.Accounted) (ha : s.NoMissedActivation a)
    (hempty : s.CheckpointsOnEmpty a) (hstep : s.step a = some t) : t.Ordered := by
  cases StepTo.of_step hstep with
  | @activate c hr hc =>
    have hlt : c < s.queuesCount := of_decide_eq_true (Bool.and_eq_true_iff.1 hr).1
    refine (h.activate hacc hlt ha).moveQuiet fun p => ?_
    show (s.call c).countsFor p = false ∧ (s.call c).dueFrom p = none
    rw [hc]
    exact ⟨rfl, rfl⟩
  | deleteAll _ hc => exact h.moveQuiet fun p => by rw [hc]; exact ⟨rfl, rfl⟩
  | startNull _ hc _ => exact h.moveQuiet fun p => by rw [hc]; exact ⟨rfl, rfl⟩
  | startState _ hc h0 ho hp => exact h.startState hacc hc h0 ho hp
  | countNext _ hc hi =>
    refine h.setCall fun p j _ _ _ hor => ?_
    rw [hc] at hor
    exact hor
  | countEnd _ hc hi => exact h.countEnd hc
  | testActive _ hc hi hact hne =>
    refine h.setCall fun p j _ _ _ hor => ?_
    rw [hc] at hor
    exact hor
  | testSkip _ hc _ hskip =>
    refine h.setCall fun p j _ _ _ hor => ?_
    rw [hc, ← dueAt_skip hskip] at hor
    exact hor
  | testEnd _ hc hi =>
    refine h.setCall fun p j _ _ hact hor => ?_
    have hj := h.active_lt j hact
    rw [hc, dueAt_end _ _ (by omega)] at hor
    rcases hor with hcf | hd
    · cases hcf
    · exact absurd rfl hd
  | push _ hc => exact h.push hacc hc (hempty _ _ hc)
  | wait _ hc ho hp => exact h.moveQuiet fun p => by rw [hc]; exact ⟨rfl, rfl⟩
  | waitReturn _ hc hdone => exact h.waitReturn hc
  | interrupt hlt ho => exact h.setHandler (by intro e he; cases he)
  | handlerEmpty ht hq => exact h.setHandler (by intro e he; cases he)
  | handlerNonempty ht hq => exact h.setHandler (by intro e he; cases he)
  | handlerPop ht hq => exact h.handlerPop hacc hq
  | @handlerDelete c e ht =>
    have hdel : (s.deleteRange c e.range).Ordered := by
      unfold deleteRange
      split
      · exact { h with }
      · exact h
    have hhandler : (s.deleteRange c e.range).handler = s.handler := by
      unfold deleteRange; split <;> rfl
    refine hdel.setHandler fun e' he => ?_
    rw [hhandler, ht]
    exact he
  | @handlerSignal c e ht =>
    have hsig : (s.signal e.state).Ordered := by
      unfold signal
      split
      · exact h
      · exact { h with }
    exact hsig.setHandler (by intro e he; cases he)

/-- The conditions under which the checkpoints work. -/
def CheckpointStep (s : ShootdownSys) (a : Act) : Prop :=
  s.NoMissedActivation a ∧ s.CheckpointsOnEmpty a

theorem ordered_of_reaches {n : Nat} {owner : Nat → Nat} (hn : n < 2 ^ 32)
    (hrun : Reaches CheckpointStep (init n owner) s) : s.Ordered ∧ s.Accounted := by
  have hinv : (s.Ordered ∧ s.Accounted) ∧ s.queuesCount = n := by
    refine @invariant_of_steps _ _ (fun s => (s.Ordered ∧ s.Accounted) ∧ s.queuesCount = n) ?_ _ _
      hrun ⟨⟨ordered_init n owner, accounted_init n owner⟩, rfl⟩
    rintro s t ⟨a, ha, hstep⟩ ⟨⟨hord, hacc⟩, hcount⟩
    exact ⟨⟨hord.step hacc ha.1 ha.2 hstep, hacc.step (hcount ▸ hn) ha.1 hstep⟩,
      (StepTo.of_step hstep).queuesCount_eq.trans hcount⟩
  exact hinv.1

theorem Ordered.popsInOrder (h : s.Ordered) : s.PopsInOrder := by
  intro c e rest hq h0 e' he'
  have hlast : OnlyLast (e :: rest) := hq ▸ h.last c
  rw [hlast.1 h0] at he'
  cases he'

/-- In every run in which elements with a state are pushed to empty queues only and no
call misses an activation, such an element is popped after everything pushed before it,
and a wait returns only after every range enqueued before its call was processed. -/
theorem checkpoints_of_run {n : Nat} {owner : Nat → Nat} {s : ShootdownSys} (hn : n < 2 ^ 32)
    (hrun : Reaches CheckpointStep (init n owner) s) :
    s.PopsInOrder ∧ ∀ c p t, s.call c = .waiting p → s.step (.waitReturn c) = some t →
      s.EarlierProcessed p := by
  obtain ⟨hord, hacc⟩ := ordered_of_reaches hn hrun
  refine ⟨hord.popsInOrder, fun c p t hc hret j e hj he hold => ?_⟩
  cases StepTo.of_step hret with
  | waitReturn _ hc' hdone =>
    rw [hc] at hc'
    cases hc'
    have hok := hacc.calls c
    rw [hc] at hok
    obtain ⟨ho, hp⟩ := hok
    rcases hord.old p hp j e hj he hold with hcf | hd | ⟨e', he', hs⟩
    · rw [ho, hc] at hcf; cases hcf
    · rw [ho, hc] at hd; exact absurd rfl hd
    · exact not_referenced (hacc.heldIn_of_completed hc hdone)
        ⟨j, hord.active_lt j (hord.active j e he), .inl ⟨e', he', hs⟩⟩

/-- CPU 0 calls for a range up to the push to CPU 1. -/
def rangeCall : List Act :=
  [.deleteAll 1, .start 0 ⟨⟨4096, 1⟩, 0⟩, .test 0, .test 0]

/-- CPU 0 ends that call and calls for a checkpoint, up to its push. -/
def checkpointCall : List Act :=
  [.test 0, .start 0 ⟨⟨0, 0⟩, 8⟩, .count 0, .count 0, .count 0, .test 0, .test 0]

def handleOne : List Act :=
  [.interrupt 1, .handlerTest 1, .handlerPop 1, .handlerDelete 1, .handlerSignal 1]

theorem Reaches.push_steps {s₀ : ShootdownSys} {job : EnqueueJob} {c i : Nat} {acts : List Act}
    (h : Reaches CheckpointStep s₀ s) (hcall : s.call c = .pushing job i)
    (hempty : job.state = 0 ∨ s.queue i = []) (hall : ∀ a ∈ acts, ∀ s, CheckpointStep s a)
    (hsteps : s.steps (.push c :: acts) = some t) : Reaches CheckpointStep s₀ t := by
  obtain ⟨u, hpush, hrest⟩ := Option.bind_eq_some_iff.1 hsteps
  refine (h.tail ⟨.push c, ⟨trivial, fun job' i' hcall' hstate => ?_⟩, hpush⟩).trans
    (Reaches.of_steps hall hrest)
  rw [hcall] at hcall'
  cases hcall'
  exact hempty.resolve_left hstate

/-- CPU 1 handles the range before the checkpoint is pushed. -/
theorem checkpoints_after_range : ∃ s t : ShootdownSys, s.call 0 = .waiting 8 ∧
    s.step (.waitReturn 0) = some t ∧ s.PopsInOrder ∧ s.EarlierProcessed 8 := by
  have hcheck : ((init 2 fun _ => 0).steps (.activate 1 :: rangeCall)).any (fun s =>
      s.call 0 == .pushing ⟨⟨4096, 1⟩, 0⟩ 1 &&
        (s.steps (.push 0 :: handleOne ++ .handlerTest 1 :: checkpointCall)).any fun s =>
          s.call 0 == .pushing ⟨⟨0, 0⟩, 8⟩ 1 && s.queue 1 == [] &&
            (s.steps (.push 0 :: .test 0 :: .wait 0 8 :: handleOne)).any waitEnds) = true := by
    decide
  obtain ⟨s₁, hs₁, hcheck⟩ := steps_check hcheck
  obtain ⟨s₀, hactivate, hs₁⟩ := Option.bind_eq_some_iff.1 hs₁
  obtain ⟨hcall₁, hcheck⟩ := Bool.and_eq_true_iff.1 hcheck
  obtain ⟨s₂, hs₂, hcheck⟩ := steps_check hcheck
  simp only [Bool.and_eq_true, beq_iff_eq] at hcheck
  obtain ⟨⟨hcall₂, hempty⟩, hcheck⟩ := hcheck
  obtain ⟨s, hs, hends⟩ := steps_check hcheck
  obtain ⟨hwait, t, ht⟩ := of_waitEnds hends
  have hrun₁ : Reaches CheckpointStep (init 2 fun _ => 0) s₁ :=
    .head ⟨.activate 1, ⟨fun _ _ h => h, trivial⟩, hactivate⟩
      (Reaches.of_steps
        (by simp [rangeCall, CheckpointStep, NoMissedActivation, CheckpointsOnEmpty]) hs₁)
  have hrun₂ := hrun₁.push_steps (eq_of_beq hcall₁) (.inl rfl) (by
    simp [handleOne, checkpointCall, CheckpointStep, NoMissedActivation, CheckpointsOnEmpty]) hs₂
  have hrun := hrun₂.push_steps hcall₂ (.inr hempty)
    (by simp [handleOne, CheckpointStep, NoMissedActivation, CheckpointsOnEmpty]) hs
  obtain ⟨hord, hdone⟩ := checkpoints_of_run (by decide) hrun
  exact ⟨s, t, hwait, ht, hord, hdone 0 8 t hwait ht⟩

/-- CPU 0 enqueues a range for CPU 1 and then a checkpoint; the handler of CPU 1 pops the
checkpoint first, and CPU 0 returns from its wait while the range is still queued. -/
def checkpointFirst : List Act :=
  .activate 1 :: rangeCall ++ .push 0 :: checkpointCall ++ [.push 0, .test 0, .wait 0 8]

theorem exists_checkpoint_first : ∃ s, Reaches (fun _ _ => True) (init 2 fun _ => 0) s ∧
    ¬ s.PopsInOrder ∧ ∃ s' t, Reaches (fun _ _ => True) s s' ∧ s'.call 0 = .waiting 8 ∧
      s'.step (.waitReturn 0) = some t ∧ ¬ s'.EarlierProcessed 8 := by
  have hcheck : (((init 2 fun _ => 0).steps checkpointFirst).any fun s =>
      s.queue 1 == [⟨⟨0, 0⟩, 8, 1⟩, ⟨⟨4096, 1⟩, 0, 0⟩] && (s.steps handleOne).any fun s' =>
        s'.waitEnds && s'.owner 8 == 0 && s'.queue 1 == [⟨⟨4096, 1⟩, 0, 0⟩] &&
          (s'.record 8).since == 1) = true := by decide
  obtain ⟨s, hs, htest⟩ := steps_check hcheck
  obtain ⟨hqueue, hlater⟩ := Bool.and_eq_true_iff.1 htest
  obtain ⟨s', hs', htest'⟩ := steps_check hlater
  simp only [Bool.and_eq_true, beq_iff_eq] at htest' hqueue
  obtain ⟨⟨⟨hends, howner⟩, hq⟩, hsince⟩ := htest'
  obtain ⟨hwait, t, ht⟩ := of_waitEnds hends
  refine ⟨s, .of_steps (fun _ _ _ => trivial) hs, fun hord => ?_, s', t,
    .of_steps (fun _ _ _ => trivial) hs', hwait, ht, fun hdone => ?_⟩
  · exact hord 1 _ _ hqueue (by decide) _ List.mem_cons_self (by decide)
  · refine hdone 1 ⟨⟨4096, 1⟩, 0, 0⟩ (by omega) (.inl ?_) (by rw [hsince]; decide)
    rw [hq]
    exact List.mem_cons_self

end ShootdownSys

end GarbageOS
