import GarbageOS.Kernel.State
import GarbageOS.Lib.Runs
import Mathlib.Logic.Function.Basic

/-!
# `sync_types.c`: hard spinlocks of one CPU

`acquire_spinlock_hard` saves the interrupt state, disables interrupts and tries the
flag; after a failed attempt it restores the state, pauses and saves it again. The
saved states of the locks a CPU holds form a stack, and a release pops it.
-/

namespace GarbageOS

open Function

/-- Where a CPU is in `acquire_spinlock_hard`, with the state in `*istate`. -/
inductive Acquiring (L : Type)
  | idle
  | testing (l : L) (istate : Bool)
  | pausing (l : L)

/-- A CPU with the flags of all locks; `held` are the locks it holds, the last taken first,
each with the state its acquisition saved. -/
structure SpinCpu (L : Type) where
  interrupts : Bool
  flag : L → Bool
  held : List (L × Bool)
  acq : Acquiring L

namespace SpinCpu

variable {L : Type} {c c' : SpinCpu L} {i : Bool}

/-- `*istate = disable_and_save_interrupts()`, before the flag of `l` is tested. -/
def save (c : SpinCpu L) (l : L) : SpinCpu L :=
  { c with interrupts := false, acq := .testing l c.interrupts }

/-- What the stack of saved states gives back: the initial state under the first lock, and
interrupts off under every later one. -/
def Saved (i : Bool) : List (L × Bool) → Prop
  | [] => True
  | (_, istate) :: rest => istate = (if rest = [] then i else false) ∧ Saved i rest

/-- The interrupt state outside `acquire_spinlock_hard`, given the locks held. -/
def Outside (i : Bool) (c : SpinCpu L) : Bool := if c.held = [] then i else false

structure Inv (i : Bool) (c : SpinCpu L) : Prop where
  saved : Saved i c.held
  state : match c.acq with
    | .testing _ istate => c.interrupts = false ∧ istate = c.Outside i
    | _ => c.interrupts = c.Outside i

theorem Inv.save {l : L} (h : Inv i c) (hout : c.interrupts = c.Outside i) : Inv i (c.save l) :=
  ⟨h.saved, rfl, hout⟩

/-- A CPU outside the lock functions that holds nothing. -/
def start (i : Bool) (flag : L → Bool) : SpinCpu L := ⟨i, flag, [], .idle⟩

theorem Inv.start (i : Bool) (flag : L → Bool) : Inv i (start i flag) := ⟨trivial, rfl⟩

variable [DecidableEq L]

/-- The steps of one CPU that releases its locks in the opposite order, and of the others. -/
inductive Step : SpinCpu L → SpinCpu L → Prop
  | begin {c : SpinCpu L} (l : L) (hidle : c.acq = .idle) (hnew : l ∉ c.held.map Prod.fst) :
      Step c (c.save l)
  | fail {c : SpinCpu L} {l : L} {istate : Bool} (ht : c.acq = .testing l istate)
      (hset : c.flag l = true) :
      Step c { c with interrupts := restoreInterruptState istate c.interrupts, acq := .pausing l }
  | retry {c : SpinCpu L} {l : L} (hp : c.acq = .pausing l) : Step c (c.save l)
  | take {c : SpinCpu L} {l : L} {istate : Bool} (ht : c.acq = .testing l istate)
      (hclear : c.flag l = false) :
      Step c { c with
        flag := update c.flag l true, held := (l, istate) :: c.held, acq := .idle }
  | release {c : SpinCpu L} {l : L} {istate : Bool} {rest : List (L × Bool)}
      (hidle : c.acq = .idle) (hheld : c.held = (l, istate) :: rest) :
      Step c { c with
        flag := update c.flag l false
        interrupts := restoreInterruptState istate c.interrupts
        held := rest }
  | others {c : SpinCpu L} (flag : L → Bool)
      (hkept : ∀ l ∈ c.held.map Prod.fst, flag l = c.flag l) : Step c { c with flag := flag }

theorem Inv.step (hstep : Step c c') (h : Inv i c) : Inv i c' := by
  have hs := h.state
  cases hstep with
  | begin l hidle hnew =>
    rw [hidle] at hs
    exact h.save hs
  | fail ht hset =>
    rw [ht] at hs
    refine ⟨h.saved, ?_⟩
    show restoreInterruptState _ c.interrupts = c.Outside i
    rw [hs.1, restoreInterruptState_off, hs.2]
  | retry hp =>
    rw [hp] at hs
    exact h.save hs
  | take ht hclear =>
    rw [ht] at hs
    exact ⟨⟨hs.2, h.saved⟩, hs.1⟩
  | release hidle hheld =>
    have hsaved := h.saved
    rw [hidle] at hs
    rw [hheld] at hsaved
    have hoff : c.interrupts = false := by
      rw [hs, Outside, hheld]
      rfl
    refine ⟨hsaved.2, ?_⟩
    show (match c.acq with
      | .testing _ _ => _
      | _ => _)
    rw [hidle]
    show restoreInterruptState _ c.interrupts = if _ = [] then i else false
    rw [hoff, restoreInterruptState_off, hsaved.1]
  | others flag hkept => exact ⟨h.saved, hs⟩

/-- Interrupts are off at every point of a run where a lock is held, and whenever the last
lock has been released they are as at the start. -/
theorem interrupts_nest (i : Bool) (flag : L → Bool) (c : SpinCpu L)
    (hrun : Relation.ReflTransGen Step (start i flag) c) :
    (c.held ≠ [] → c.interrupts = false) ∧
    (c.held = [] → c.acq = .idle → c.interrupts = i) := by
  obtain ⟨-, hs⟩ := Lib.invariant_of_steps (fun _ _ h => Inv.step h) hrun (Inv.start i flag)
  constructor
  · intro hne
    have hout : c.Outside i = false := if_neg hne
    rw [hout] at hs
    split at hs
    · exact hs.1
    · exact hs
  · intro hnil hidle
    rw [hidle] at hs
    exact hs.trans (if_pos hnil)

/-- Two locks nested, the first after a failed attempt. -/
theorem interrupts_nest_two_locks :
    ∃ c : SpinCpu Bool, Relation.ReflTransGen Step (start true fun _ => true) c ∧
      c.held = [(false, false), (true, true)] ∧ c.interrupts = false := by
  have hrun : Relation.ReflTransGen Step (start true fun _ : Bool => true) _ :=
    .tail (.tail (.tail (.tail (.tail (.tail (.tail .refl
      (.begin true rfl List.not_mem_nil)) (.fail rfl rfl)) (.others (fun _ => false) nofun))
      (.retry rfl)) (.take rfl rfl)) (.begin false rfl (by decide))) (.take rfl rfl)
  exact ⟨_, hrun, rfl, (interrupts_nest true _ _ hrun).1 (List.cons_ne_nil _ _)⟩

end SpinCpu

end GarbageOS
