import GarbageOS.Shootdown.Code
import GarbageOS.Lib.Runs
import Mathlib.Logic.Function.Basic

/-!
# Shootdowns on several CPUs

The functions of `vaddr_cache_shootdown.c` run concurrently: each CPU goes through
its calls, and on any CPU the interrupt handler can run between two steps. A step
is what happens under one lock or with one atomic access, so every interleaving of
the code is a sequence of steps here. A queue is the list of its elements, the head
first; `Shootdown.Queue` shows that the linked queues of the code are these lists.

The state that a shootdown waits for lies on the stack of the CPU that waits: it
belongs to one CPU (`owner`) and is initialised again only after the wait for it
returned (`pending`).
-/

namespace GarbageOS

open Function

/-- An element of a queue. The stamp tells when it was pushed. -/
structure QueueElem where
  range : VMMCacheShootdownRange
  /-- The state to signal, 0 for NULL. -/
  state : Nat
  stamp : Nat
  deriving DecidableEq

structure EnqueueJob where
  range : VMMCacheShootdownRange
  state : Nat
  deriving DecidableEq

inductive CallPc where
  | idle
  /-- In `activate_this_cpu_vmmcache_shootdown`, after the queue was marked. -/
  | activated
  /-- In `init_vmmcache_shootdown_state`, before it looks at queue `i`. -/
  | counting (job : EnqueueJob) (i count : Nat)
  /-- In `_enqueue_vmmcache_shootdown_range`, before it tests queue `i`. -/
  | testing (job : EnqueueJob) (i : Nat)
  /-- The same, when queue `i` was found active. -/
  | pushing (job : EnqueueJob) (i : Nat)
  /-- In `wait_for_vmmcache_shootdown_completition`. -/
  | waiting (state : Nat)
  deriving DecidableEq

/-- Where a CPU is in `cache_shootdown_interrupt_handler`. -/
inductive HandlerPc where
  | off
  | testing
  | popping
  | processing (elem : QueueElem)
  | signalling (elem : QueueElem)
  deriving DecidableEq

def HandlerPc.elem : HandlerPc → Option QueueElem
  | processing e | signalling e => some e
  | _ => none

/-- What was the case when the last call with a state started. -/
structure CallRecord where
  range : VMMCacheShootdownRange
  since : Nat
  active : Nat → Bool

structure ShootdownSys where
  queuesCount : Nat
  /-- The CPU on whose stack a state lies. -/
  owner : Nat → Nat
  active : Nat → Bool
  queue : Nat → List QueueElem
  states : Nat → VMMCacheShootdownState
  pending : Nat → Bool
  call : Nat → CallPc
  handler : Nat → HandlerPc
  clock : Nat
  /-- Ghost: the last call with each state. -/
  record : Nat → CallRecord
  /-- Ghost: the queue and the element of each push, latest first. -/
  pushed : List (Nat × QueueElem)
  /-- Ghost: the pages each CPU deleted from its translation cache, with the time. -/
  flushed : Nat → List (Nat × Nat)

namespace ShootdownSys

/-- After `initialize_vmmcache_shootdown_subsystem`. -/
def init (queuesCount : Nat) (owner : Nat → Nat) : ShootdownSys where
  queuesCount := queuesCount
  owner := owner
  active _ := false
  queue _ := []
  states _ := ⟨0, 0⟩
  pending _ := false
  call _ := .idle
  handler _ := .off
  clock := 0
  record _ := ⟨⟨0, 0⟩, 0, fun _ => false⟩
  pushed := []
  flushed _ := []

inductive Act where
  | activate (c : Nat)
  | deleteAll (c : Nat)
  | start (c : Nat) (job : EnqueueJob)
  | count (c : Nat)
  | test (c : Nat)
  | push (c : Nat)
  | wait (c : Nat) (state : Nat)
  | waitReturn (c : Nat)
  | interrupt (c : Nat)
  | handlerTest (c : Nat)
  | handlerPop (c : Nat)
  | handlerDelete (c : Nat)
  | handlerSignal (c : Nat)
  deriving DecidableEq

variable (s : ShootdownSys)

def setCall (c : Nat) (pc : CallPc) : ShootdownSys :=
  { s with call := update s.call c pc }

def setHandler (c : Nat) (pc : HandlerPc) : ShootdownSys :=
  { s with handler := update s.handler c pc }

def setQueue (i : Nat) (q : List QueueElem) : ShootdownSys :=
  { s with queue := update s.queue i q }

def setState (p : Nat) (state : VMMCacheShootdownState) : ShootdownSys :=
  { s with states := update s.states p state }

/-- `atomic_store(&state->emptied_queues_count, 0)`, and the note of the call. -/
def beginCall (job : EnqueueJob) : ShootdownSys :=
  { s.setState job.state { s.states job.state with emptiedQueuesCount := 0 } with
    pending := update s.pending job.state true
    record := update s.record job.state ⟨job.range, s.clock, s.active⟩ }

/-- Push to the head of queue `i`. -/
def pushElem (job : EnqueueJob) (i : Nat) : ShootdownSys :=
  let e := ⟨job.range, job.state, s.clock⟩
  { s.setQueue i (e :: s.queue i) with clock := s.clock + 1, pushed := (i, e) :: s.pushed }

def pagesOf (range : VMMCacheShootdownRange) : List Nat :=
  (List.range range.sizeInPages).map (shootdownPage range)

/-- `if(is_vmmcache_shootdown_range_null(range.range)) delete_vmmcache_range(range.range)`. -/
def deleteRange (c : Nat) (range : VMMCacheShootdownRange) : ShootdownSys :=
  if isVmmcacheShootdownRangeNull range then
    let deleted := (pagesOf range).map fun page => (page, s.clock)
    { s with flushed := update s.flushed c (deleted ++ s.flushed c) }
  else s

/-- `vmmcache_shootdown_state_signal_queue_empty`, if there is a state. -/
def signal (p : Nat) : ShootdownSys :=
  if p = 0 then s
  else s.setState p
    { s.states p with emptiedQueuesCount := ((s.states p).emptiedQueuesCount + 1) % 2 ^ 32 }

/-- The test at the head of the loop of `wait_for_vmmcache_shootdown_completition`. -/
def completed (p : Nat) : Bool :=
  (s.states p).emptiedQueuesCount ≥ (s.states p).queuesToWaitCount

/-- A CPU makes a step of its calls when no interrupt handler runs on it. -/
def runsCall (c : Nat) : Bool := c < s.queuesCount && s.handler c == .off

def step : Act → Option ShootdownSys
  | .activate c =>
    if s.runsCall c ∧ s.call c = .idle then
      some ({ s with active := update s.active c true }.setCall c .activated)
    else none
  | .deleteAll c =>
    if s.runsCall c ∧ s.call c = .activated then some (s.setCall c .idle) else none
  | .start c job =>
    if s.runsCall c ∧ s.call c = .idle then
      if job.state = 0 then some (s.setCall c (.testing job 0))
      else if s.owner job.state = c ∧ s.pending job.state = false then
        some ((s.beginCall job).setCall c (.counting job 0 0))
      else none
    else none
  | .count c =>
    if s.runsCall c then
      match s.call c with
      | .counting job i count =>
        if i < s.queuesCount then
          some (s.setCall c (.counting job (i + 1)
            (if i ≠ c ∧ s.active i then (count + 1) % 2 ^ 32 else count)))
        else
          some ((s.setState job.state { s.states job.state with queuesToWaitCount := count }).setCall c
            (.testing job 0))
      | _ => none
    else none
  | .test c =>
    if s.runsCall c then
      match s.call c with
      | .testing job i =>
        if i < s.queuesCount then
          some (s.setCall c (if s.active i ∧ i ≠ c then .pushing job i else .testing job (i + 1)))
        else some (s.setCall c .idle)
      | _ => none
    else none
  | .push c =>
    if s.runsCall c then
      match s.call c with
      | .pushing job i => some ((s.pushElem job i).setCall c (.testing job (i + 1)))
      | _ => none
    else none
  | .wait c p =>
    if s.runsCall c ∧ s.call c = .idle ∧ s.owner p = c ∧ s.pending p then
      some (s.setCall c (.waiting p))
    else none
  | .waitReturn c =>
    if s.runsCall c then
      match s.call c with
      | .waiting p =>
        if s.completed p then
          some ({ s with pending := update s.pending p false }.setCall c .idle)
        else none
      | _ => none
    else none
  | .interrupt c =>
    if c < s.queuesCount ∧ s.handler c = .off then some (s.setHandler c .testing) else none
  | .handlerTest c =>
    if s.handler c = .testing then
      some (s.setHandler c (if s.queue c = [] then .off else .popping))
    else none
  | .handlerPop c =>
    if s.handler c = .popping then
      match s.queue c with
      | e :: rest => some ((s.setQueue c rest).setHandler c (.processing e))
      | [] => none
    else none
  | .handlerDelete c =>
    match s.handler c with
    | .processing e => some ((s.deleteRange c e.range).setHandler c (.signalling e))
    | _ => none
  | .handlerSignal c =>
    match s.handler c with
    | .signalling e => some ((s.signal e.state).setHandler c .testing)
    | _ => none

def steps (s : ShootdownSys) : List Act → Option ShootdownSys
  | [] => some s
  | a :: as => (s.step a).bind fun s => s.steps as

/-! ## What a step does -/

variable {s} {s' : ShootdownSys}

/-- The steps once more, with the branches of each told apart. -/
inductive StepTo (s : ShootdownSys) : Act → ShootdownSys → Prop
  | activate {c} : s.runsCall c = true → s.call c = .idle →
      StepTo s (.activate c)
        ({ s with active := update s.active c true }.setCall c .activated)
  | deleteAll {c} : s.runsCall c = true → s.call c = .activated →
      StepTo s (.deleteAll c) (s.setCall c .idle)
  | startNull {c job} : s.runsCall c = true → s.call c = .idle → job.state = 0 →
      StepTo s (.start c job) (s.setCall c (.testing job 0))
  | startState {c job} : s.runsCall c = true → s.call c = .idle → job.state ≠ 0 →
      s.owner job.state = c → s.pending job.state = false →
      StepTo s (.start c job) ((s.beginCall job).setCall c (.counting job 0 0))
  | countNext {c job i count} : s.runsCall c = true → s.call c = .counting job i count →
      i < s.queuesCount →
      StepTo s (.count c) (s.setCall c (.counting job (i + 1)
        (if i ≠ c ∧ s.active i then (count + 1) % 2 ^ 32 else count)))
  | countEnd {c job i count} : s.runsCall c = true → s.call c = .counting job i count →
      ¬ i < s.queuesCount →
      StepTo s (.count c)
        ((s.setState job.state { s.states job.state with queuesToWaitCount := count }).setCall c
          (.testing job 0))
  | testActive {c job i} : s.runsCall c = true → s.call c = .testing job i → i < s.queuesCount →
      s.active i = true → i ≠ c → StepTo s (.test c) (s.setCall c (.pushing job i))
  | testSkip {c job i} : s.runsCall c = true → s.call c = .testing job i → i < s.queuesCount →
      ¬ (s.active i = true ∧ i ≠ c) → StepTo s (.test c) (s.setCall c (.testing job (i + 1)))
  | testEnd {c job i} : s.runsCall c = true → s.call c = .testing job i → ¬ i < s.queuesCount →
      StepTo s (.test c) (s.setCall c .idle)
  | push {c job i} : s.runsCall c = true → s.call c = .pushing job i →
      StepTo s (.push c) ((s.pushElem job i).setCall c (.testing job (i + 1)))
  | wait {c p} : s.runsCall c = true → s.call c = .idle → s.owner p = c → s.pending p = true →
      StepTo s (.wait c p) (s.setCall c (.waiting p))
  | waitReturn {c p} : s.runsCall c = true → s.call c = .waiting p → s.completed p = true →
      StepTo s (.waitReturn c)
        ({ s with pending := update s.pending p false }.setCall c .idle)
  | interrupt {c} : c < s.queuesCount → s.handler c = .off →
      StepTo s (.interrupt c) (s.setHandler c .testing)
  | handlerEmpty {c} : s.handler c = .testing → s.queue c = [] →
      StepTo s (.handlerTest c) (s.setHandler c .off)
  | handlerNonempty {c} : s.handler c = .testing → s.queue c ≠ [] →
      StepTo s (.handlerTest c) (s.setHandler c .popping)
  | handlerPop {c e rest} : s.handler c = .popping → s.queue c = e :: rest →
      StepTo s (.handlerPop c) ((s.setQueue c rest).setHandler c (.processing e))
  | handlerDelete {c e} : s.handler c = .processing e →
      StepTo s (.handlerDelete c) ((s.deleteRange c e.range).setHandler c (.signalling e))
  | handlerSignal {c e} : s.handler c = .signalling e →
      StepTo s (.handlerSignal c) ((s.signal e.state).setHandler c .testing)

theorem StepTo.of_step {a : Act} (h : s.step a = some s') : StepTo s a s' := by
  cases a with
  | activate c =>
    obtain ⟨⟨hr, hc⟩, h⟩ := Option.ite_none_right_eq_some.1 h
    cases h; exact .activate hr hc
  | deleteAll c =>
    obtain ⟨⟨hr, hc⟩, h⟩ := Option.ite_none_right_eq_some.1 h
    cases h; exact .deleteAll hr hc
  | start c job =>
    obtain ⟨⟨hr, hc⟩, h⟩ := Option.ite_none_right_eq_some.1 h
    by_cases h0 : job.state = 0
    · rw [if_pos h0] at h
      cases h; exact .startNull hr hc h0
    · rw [if_neg h0] at h
      obtain ⟨⟨ho, hp⟩, h⟩ := Option.ite_none_right_eq_some.1 h
      cases h; exact .startState hr hc h0 ho hp
  | count c =>
    obtain ⟨hr, h⟩ := Option.ite_none_right_eq_some.1 h
    split at h
    · rename_i job i count hc
      split at h
      · cases h; exact .countNext hr hc ‹_›
      · cases h; exact .countEnd hr hc ‹_›
    · cases h
  | test c =>
    obtain ⟨hr, h⟩ := Option.ite_none_right_eq_some.1 h
    split at h
    · rename_i job i hc
      by_cases hi : i < s.queuesCount
      · rw [if_pos hi] at h
        by_cases ha : s.active i = true ∧ i ≠ c
        · rw [if_pos ha] at h
          cases h; exact .testActive hr hc hi ha.1 ha.2
        · rw [if_neg ha] at h
          cases h; exact .testSkip hr hc hi ha
      · rw [if_neg hi] at h
        cases h; exact .testEnd hr hc hi
    · cases h
  | push c =>
    obtain ⟨hr, h⟩ := Option.ite_none_right_eq_some.1 h
    split at h
    · cases h; exact .push hr ‹_›
    · cases h
  | wait c p =>
    obtain ⟨⟨hr, hc, ho, hp⟩, h⟩ := Option.ite_none_right_eq_some.1 h
    cases h; exact .wait hr hc ho hp
  | waitReturn c =>
    obtain ⟨hr, h⟩ := Option.ite_none_right_eq_some.1 h
    split at h
    · obtain ⟨hd, h⟩ := Option.ite_none_right_eq_some.1 h
      cases h; exact .waitReturn hr ‹_› hd
    · cases h
  | interrupt c =>
    obtain ⟨⟨hlt, ho⟩, h⟩ := Option.ite_none_right_eq_some.1 h
    cases h; exact .interrupt hlt ho
  | handlerTest c =>
    obtain ⟨ht, h⟩ := Option.ite_none_right_eq_some.1 h
    by_cases hq : s.queue c = []
    · rw [if_pos hq] at h
      cases h; exact .handlerEmpty ht hq
    · rw [if_neg hq] at h
      cases h; exact .handlerNonempty ht hq
  | handlerPop c =>
    obtain ⟨ht, h⟩ := Option.ite_none_right_eq_some.1 h
    split at h
    · cases h; exact .handlerPop ht ‹_›
    · cases h
  | handlerDelete c =>
    simp only [step] at h
    split at h
    · cases h; exact .handlerDelete ‹_›
    · cases h
  | handlerSignal c =>
    simp only [step] at h
    split at h
    · cases h; exact .handlerSignal ‹_›
    · cases h

/-- Runs whose steps all meet a condition on the state before the step. -/
def Reaches (Allowed : ShootdownSys → Act → Prop) : ShootdownSys → ShootdownSys → Prop :=
  Relation.ReflTransGen fun s s' => ∃ a, Allowed s a ∧ s.step a = some s'

theorem Reaches.of_steps {Allowed : ShootdownSys → Act → Prop} {acts : List Act}
    (hall : ∀ a ∈ acts, ∀ s, Allowed s a) (h : s.steps acts = some s') : Reaches Allowed s s' := by
  induction acts generalizing s with
  | nil => cases h; exact .refl
  | cons a acts ih =>
    obtain ⟨t, hstep, hrest⟩ := Option.bind_eq_some_iff.1 h
    exact .head ⟨a, hall a List.mem_cons_self s, hstep⟩
      (ih (fun b hb => hall b (List.mem_cons_of_mem _ hb)) hrest)

theorem steps_check {acts : List Act} {test : ShootdownSys → Bool}
    (h : (s.steps acts).any test = true) : ∃ t, s.steps acts = some t ∧ test t = true := by
  cases hs : s.steps acts with
  | none => rw [hs] at h; cases h
  | some t => rw [hs] at h; exact ⟨t, rfl, h⟩

/-- CPU 0 waits for the state at 8, and the wait can return. -/
def waitEnds (s : ShootdownSys) : Bool :=
  s.call 0 == .waiting 8 && (s.step (.waitReturn 0)).isSome

theorem of_waitEnds (h : s.waitEnds = true) :
    s.call 0 = .waiting 8 ∧ ∃ t, s.step (.waitReturn 0) = some t := by
  obtain ⟨hwait, hret⟩ := Bool.and_eq_true_iff.1 h
  exact ⟨eq_of_beq hwait, Option.isSome_iff_exists.1 hret⟩

theorem StepTo.queuesCount_eq {a : Act} (h : StepTo s a s') : s'.queuesCount = s.queuesCount := by
  cases h with
  | handlerDelete h => unfold deleteRange; split <;> rfl
  | handlerSignal h => unfold signal; split <;> rfl
  | _ => rfl

end ShootdownSys

end GarbageOS
