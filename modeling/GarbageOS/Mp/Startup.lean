import GarbageOS.Kernel.Defs
import GarbageOS.Lib.Trace
import Mathlib.Data.Nat.Find

/-!
# `mp_initialization.c`: starting the other processors

The boot processor wakes the others with interrupts and then waits until all have counted
themselves. The loop that waits is meant to end after 30 attempts, but the attempts are not counted.
What `initialized_APs` is at each load is given by a sequence, as the other processors change it;
the allocation of their stacks is left out.
-/

namespace GarbageOS

open Lib

inductive MPInitError where
  | ok
  | partialStartup
  | startupFailed
  deriving DecidableEq

inductive MpEvent where
  | sendInitToAllExcludingSelf
  | sendStartup (lapicId vector : Nat)
  | waitMs (ms : Nat)
  | waitUs (us : Nat)
  | load (initializedAPs : Nat)
  deriving DecidableEq

abbrev MpM := Traced Stop MpEvent

/-- What `init_APs` gets from the rest of the kernel. -/
structure MpSetup where
  numberOfLogicalCores : Nat
  lapicIds : List Nat
  bspLapicId : Nat
  startupFrame : Nat

def maxAttempts : Nat := 30

def attemptMsWait : Nat := 1

def startAP (vector lapicId : Nat) : MpM Unit := do
  Traced.event (.sendStartup lapicId vector) ()
  Traced.event (.waitUs 200) ()
  Traced.event (.sendStartup lapicId vector) ()
  Traced.event (.waitUs 200) ()

def startAPs (bspLapicId vector : Nat) : List Nat → MpM Unit
  | [] => pure ()
  | lapicId :: lapicIds =>
    if lapicId = bspLapicId then startAPs bspLapicId vector lapicIds
    else do
      startAP vector lapicId
      startAPs bspLapicId vector lapicIds

section

variable (observed : Nat → Nat) (numberOfAPs : Nat)

/-- `atomic_load(&mp_gdata.initialized_APs)`. -/
def loadInitializedAPs (loads : Nat) : MpM Nat := .event (.load (observed loads)) (observed loads)

def lastCheck (loads : Nat) : MpM MPInitError := do
  let initializedAPs ← loadInitializedAPs observed loads
  if initializedAPs = numberOfAPs then return .ok
  else if initializedAPs > numberOfAPs then .stop (.panic .genericError)
  else if initializedAPs > 0 then return .partialStartup
  else return .startupFailed

def waitForAPs (attemptsCount : Nat) : (rounds loads : Nat) → MpM MPInitError
  | 0, loads => if attemptsCount < maxAttempts then .stop .loops else lastCheck observed numberOfAPs loads
  | rounds + 1, loads =>
    if attemptsCount < maxAttempts then do
      let initializedAPs ← loadInitializedAPs observed loads
      if initializedAPs < numberOfAPs then do
        Traced.event (.waitMs attemptMsWait) ()
        -- `attempts_count` stays
        waitForAPs attemptsCount rounds (loads + 1)
      else if initializedAPs > numberOfAPs then .stop (.panic .genericError)
      else return .ok
    else lastCheck observed numberOfAPs loads

end

def wakeAPs (setup : MpSetup) : MpM Unit := do
  Traced.event .sendInitToAllExcludingSelf ()
  Traced.event (.waitMs 10) ()
  startAPs setup.bspLapicId ((setup.startupFrame >>> 12) % 2 ^ 8) setup.lapicIds

def initAPs (setup : MpSetup) (observed : Nat → Nat) (rounds : Nat) : MpM MPInitError :=
  if setup.numberOfLogicalCores = 1 then pure .ok
  else if setup.lapicIds.length ≠ setup.numberOfLogicalCores then .stop (.panic .genericError)
  else do
    wakeAPs setup
    waitForAPs observed (setup.numberOfLogicalCores - 1) 0 rounds 0

/-! ## What it should do -/

def MpEvent.loaded : MpEvent → Option Nat
  | load initializedAPs => some initializedAPs
  | _ => none

def lastLoad (trace : List MpEvent) : Option Nat := (trace.filterMap MpEvent.loaded).getLast?

def startupOutcome (numberOfAPs seen : Nat) : MPInitError :=
  if seen = numberOfAPs then .ok else if seen = 0 then .startupFailed else .partialStartup

/-- `init_APs` returns, after at most 30 waits, with what it has seen. -/
def ReturnsInTime (setup : MpSetup) (observed : Nat → Nat) : Prop :=
  ∃ rounds r seen, (initAPs setup observed rounds).result = .ok r ∧
    (initAPs setup observed rounds).trace.count (.waitMs attemptMsWait) ≤ maxAttempts ∧
    lastLoad (initAPs setup observed rounds).trace = some seen ∧
    r = startupOutcome (setup.numberOfLogicalCores - 1) seen

/-! ## The interrupts -/

theorem startAPs_result (bspLapicId vector : Nat) (lapicIds : List Nat) :
    (startAPs bspLapicId vector lapicIds).result = .ok () := by
  induction lapicIds with
  | nil => rfl
  | cons lapicId lapicIds ih =>
    rw [startAPs]
    split
    · exact ih
    · exact Traced.bind_result.trans ih

/-- No wait of a millisecond, and no load. -/
def MpEvent.isWake (e : MpEvent) : Prop := e ≠ .waitMs attemptMsWait ∧ e.loaded = none

theorem startAPs_isWake (bspLapicId vector : Nat) (lapicIds : List Nat) :
    ∀ e ∈ (startAPs bspLapicId vector lapicIds).trace, e.isWake := by
  induction lapicIds with
  | nil => exact fun _ h => absurd h List.not_mem_nil
  | cons lapicId lapicIds ih =>
    rw [startAPs]
    split
    · exact ih
    · refine Traced.forall_mem_bind_trace.2 ⟨fun e he => ?_, fun _ _ => ih⟩
      have htrace : (startAP vector lapicId).trace =
        [.sendStartup lapicId vector, .waitUs 200, .sendStartup lapicId vector, .waitUs 200] := rfl
      rw [htrace] at he
      simp only [List.mem_cons, List.not_mem_nil, or_false] at he
      rcases he with rfl | rfl | rfl | rfl <;> exact ⟨by simp, rfl⟩

theorem wakeAPs_result (setup : MpSetup) : (wakeAPs setup).result = .ok () :=
  startAPs_result _ _ _

theorem wakeAPs_isWake (setup : MpSetup) : ∀ e ∈ (wakeAPs setup).trace, e.isWake := by
  have htrace : (wakeAPs setup).trace = .sendInitToAllExcludingSelf :: .waitMs 10 ::
    (startAPs setup.bspLapicId ((setup.startupFrame >>> 12) % 2 ^ 8) setup.lapicIds).trace := rfl
  rw [htrace, List.forall_mem_cons, List.forall_mem_cons]
  exact ⟨⟨by simp, rfl⟩, ⟨by simp [attemptMsWait], rfl⟩, startAPs_isWake _ _ _⟩

/-! ## The loop -/

section

variable {observed : Nat → Nat} {n rounds loads : Nat}

theorem waitForAPs_waits (h : observed loads < n) :
    waitForAPs observed n 0 (rounds + 1) loads =
      ⟨.load (observed loads) :: .waitMs attemptMsWait :: (waitForAPs observed n 0 rounds (loads + 1)).trace,
        (waitForAPs observed n 0 rounds (loads + 1)).result⟩ := by
  rw [waitForAPs, if_pos (by decide), loadInitializedAPs, Traced.event_bind, if_pos h, Traced.event_bind]

theorem waitForAPs_done (h : observed loads = n) :
    waitForAPs observed n 0 (rounds + 1) loads = ⟨[.load n], .ok .ok⟩ := by
  rw [waitForAPs, if_pos (by decide), loadInitializedAPs, Traced.event_bind, if_neg (by omega),
    if_neg (by omega), h]
  rfl

theorem waitForAPs_returns {j : Nat} (hbefore : ∀ k < j, observed (loads + k) < n)
    (hj : observed (loads + j) = n) (hrounds : j < rounds) :
    (waitForAPs observed n 0 rounds loads).result = .ok .ok ∧
      (waitForAPs observed n 0 rounds loads).trace.count (.waitMs attemptMsWait) = j ∧
      lastLoad (waitForAPs observed n 0 rounds loads).trace = some n := by
  induction j generalizing rounds loads with
  | zero =>
    obtain ⟨rounds, rfl⟩ := Nat.exists_eq_add_one.2 hrounds
    rw [waitForAPs_done (show observed loads = n from hj)]
    exact ⟨rfl, rfl, rfl⟩
  | succ j ih =>
    obtain ⟨rounds, rfl⟩ : ∃ m, rounds = m + 1 := ⟨rounds - 1, by omega⟩
    have hshift : ∀ k, loads + 1 + k = loads + (k + 1) := fun k => by omega
    have hnext : ∀ k < j, observed (loads + 1 + k) < n := fun k hk => by
      rw [hshift]
      exact hbefore (k + 1) (by omega)
    obtain ⟨hresult, hcount, hlast⟩ := @ih rounds (loads + 1) hnext (by rw [hshift]; exact hj) (by omega)
    rw [waitForAPs_waits (show observed loads < n from hbefore 0 (by omega))]
    refine ⟨hresult, ?_, ?_⟩
    · rw [List.count_cons_of_ne (by simp), List.count_cons_self, hcount]
    · unfold lastLoad at hlast ⊢
      have hmap : List.filterMap MpEvent.loaded (.load (observed loads) :: .waitMs attemptMsWait ::
          (waitForAPs observed n 0 rounds (loads + 1)).trace) = observed loads ::
            (waitForAPs observed n 0 rounds (loads + 1)).trace.filterMap MpEvent.loaded := rfl
      rw [hmap, List.getLast?_cons, hlast]
      rfl

theorem exists_of_waitForAPs_ok {r : MPInitError} (hle : ∀ k, observed k ≤ n)
    (h : (waitForAPs observed n 0 rounds loads).result = .ok r) :
    ∃ j < rounds, observed (loads + j) = n ∧ ∀ k < j, observed (loads + k) < n := by
  induction rounds generalizing loads with
  | zero => cases h
  | succ rounds ih =>
    rcases Nat.lt_or_ge (observed loads) n with hlt | hge
    · rw [waitForAPs_waits hlt] at h
      obtain ⟨j, hj, hall, hbefore⟩ := ih h
      have hshift : ∀ k, loads + (k + 1) = loads + 1 + k := fun k => by omega
      refine ⟨j + 1, by omega, by rw [hshift]; exact hall, fun k hk => ?_⟩
      cases k with
      | zero => exact hlt
      | succ k =>
        rw [hshift]
        exact hbefore k (by omega)
    · exact ⟨0, by omega, Nat.le_antisymm (hle _) hge, fun k hk => by omega⟩

end

/-! ## The whole function -/

theorem initAPs_eq {setup : MpSetup} (hcores : 1 < setup.numberOfLogicalCores)
    (hids : setup.lapicIds.length = setup.numberOfLogicalCores) (observed : Nat → Nat) (rounds : Nat) :
    initAPs setup observed rounds =
      ⟨(wakeAPs setup).trace ++ (waitForAPs observed (setup.numberOfLogicalCores - 1) 0 rounds 0).trace,
        (waitForAPs observed (setup.numberOfLogicalCores - 1) 0 rounds 0).result⟩ := by
  rw [initAPs, if_neg (by omega), if_neg (not_not.2 hids)]
  show Traced.bind _ _ = _
  unfold Traced.bind
  rw [wakeAPs_result]

/-- `init_APs` returns in time exactly if one of the first 31 loads sees all processors. -/
theorem returnsInTime_iff {setup : MpSetup} {observed : Nat → Nat}
    (hcores : 1 < setup.numberOfLogicalCores)
    (hids : setup.lapicIds.length = setup.numberOfLogicalCores)
    (hle : ∀ k, observed k ≤ setup.numberOfLogicalCores - 1) :
    ReturnsInTime setup observed ↔ ∃ i ≤ 30, observed i = setup.numberOfLogicalCores - 1 := by
  unfold ReturnsInTime
  simp only [initAPs_eq hcores hids]
  generalize setup.numberOfLogicalCores - 1 = n at hle ⊢
  have hwaits : (wakeAPs setup).trace.count (.waitMs attemptMsWait) = 0 :=
    List.count_eq_zero.2 fun hmem => (wakeAPs_isWake setup _ hmem).1 rfl
  have hloads : (wakeAPs setup).trace.filterMap MpEvent.loaded = [] :=
    List.filterMap_eq_nil_iff.2 fun e he => (wakeAPs_isWake setup e he).2
  simp only [lastLoad, List.count_append, List.filterMap_append, hwaits, hloads, Nat.zero_add,
    List.nil_append]
  constructor
  · rintro ⟨rounds, r, seen, hresult, hcount, -⟩
    obtain ⟨j, hj, hall, hbefore⟩ := exists_of_waitForAPs_ok hle hresult
    rw [(waitForAPs_returns hbefore hall hj).2.1] at hcount
    exact ⟨j, hcount, Nat.zero_add j ▸ hall⟩
  · rintro ⟨i, hi, hall⟩
    -- the first such load ends the loop
    obtain ⟨j, hji, hall, hbefore⟩ : ∃ j ≤ i, observed j = n ∧ ∀ k < j, observed k < n := by
      have hex : ∃ j, observed j = n := ⟨i, hall⟩
      refine ⟨Nat.find hex, Nat.find_min' hex hall, Nat.find_spec hex, fun k hk => ?_⟩
      exact Nat.lt_of_le_of_ne (hle k) (Nat.find_min hex hk)
    obtain ⟨hresult, hcount, hlast⟩ := @waitForAPs_returns observed n (j + 1) 0 j
      (fun k hk => by rw [Nat.zero_add]; exact hbefore k hk) (by rw [Nat.zero_add]; exact hall)
      (Nat.lt_succ_self j)
    refine ⟨j + 1, .ok, n, hresult, ?_, hlast, ?_⟩
    · rw [hcount]
      exact Nat.le_trans hji hi
    · rw [startupOutcome, if_pos rfl]

def twoProcessors : MpSetup := ⟨2, [0, 1], 0, 0x8000⟩

/-- The other processor is up at the third load. -/
theorem returnsInTime_third : ReturnsInTime twoProcessors fun i => if i < 2 then 0 else 1 :=
  (returnsInTime_iff (by decide) rfl fun i => by split <;> decide).2 ⟨2, by decide, rfl⟩

/-- If the other processor never starts, the wait never ends. -/
theorem exists_endless_wait : ∃ (setup : MpSetup) (observed : Nat → Nat),
    setup.numberOfLogicalCores = 2 ∧ (∀ k, observed k = 0) ∧
    ∀ rounds, (initAPs setup observed rounds).result = .error .loops := by
  refine ⟨twoProcessors, fun _ => 0, rfl, fun _ => rfl, fun rounds => ?_⟩
  rw [initAPs_eq (by decide) rfl]
  have hloops : ∀ loads, (waitForAPs (fun _ => 0) 1 0 rounds loads).result = .error .loops := by
    induction rounds with
    | zero => exact fun _ => rfl
    | succ rounds ih =>
      intro loads
      rw [waitForAPs_waits (show 0 < 1 by decide)]
      exact ih (loads + 1)
  exact hloops 0

end GarbageOS
