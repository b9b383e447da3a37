import GarbageOS.Vmm.DescKeeps
import GarbageOS.Frames.Partition

/-!
# Page faults on several CPUs

`page_fault` takes three critical sections: it sets `servicing_page_fault` (and panics
if it is set), resolves the fault with the lock of the virtual memory manager held, and
clears the flag. There is one flag for all CPUs, so it does not tell a fault of another
CPU from a fault inside the handler. A system of CPUs interleaves the critical
sections; what happens after a panic does not matter here.
-/

namespace GarbageOS

open Lib Function Relation

/-! ## The critical sections of `page_fault` -/

/-- The address and the error code of a fault. -/
structure Fault where
  address : Nat
  error : Nat

def pageFaultEnter (fault : Fault) : KM Unit := do
  check (isKernelVirtualMemory fault.address) (.panic .unrecoverablePageFault)
  acquireSpinlock .pageFault
  check (!(← get).sh.servicingPageFault) (.panic .unrecoverablePageFault)
  modifyShared fun s => { s with servicingPageFault := true }
  releaseSpinlock .pageFault

/-- The two checks, the second one if the first does not solve the fault. -/
def pageFaultSolve (info : PageFaultInfo) : KM Bool := do
  if ← pageFaultCheckIdentityMapLoad info then return true else pageFaultCheckStackOverflow info

def pageFaultResolve (fault : Fault) : KM Unit := do
  acquireSpinlock .vmm
  let info : PageFaultInfo :=
    ⟨fault.address, ← getVmemFromAddress fault.address, fault.error &&& 1 == 0⟩
  let solved ← pageFaultSolve info
  check solved (.panic .unrecoverablePageFault)
  releaseSpinlock .vmm

def pageFaultLeave : KM Unit := do
  acquireSpinlock .pageFault
  modifyShared fun s => { s with servicingPageFault := false }
  releaseSpinlock .pageFault

theorem pageFault_eq (fault : Fault) : pageFault fault.address fault.error =
    (do pageFaultEnter fault; pageFaultResolve fault; pageFaultLeave) := by
  simp only [pageFault, pageFaultEnter, pageFaultResolve, pageFaultSolve, pageFaultLeave, bind_assoc]
  refine bind_congr fun _ => bind_congr fun _ => bind_congr fun _ => bind_congr fun _ => ?_
  refine bind_congr fun _ => bind_congr fun _ => bind_congr fun _ => bind_congr fun _ => ?_
  exact bind_congr fun solved => by cases solved <;> rfl

/-! ## Nothing but these sections touches the flag -/

/-- The flag stays as it is, if the other CPUs leave it alone. -/
structure FlagEffect (k k' : Kernel) : Prop where
  others : k'.others = k.others
  flag : (∀ s, (k.others s).servicingPageFault = s.servicingPageFault) →
    k'.sh.servicingPageFault = k.sh.servicingPageFault

instance : IsPreorder Kernel FlagEffect where
  refl _ := ⟨rfl, fun _ => rfl⟩
  trans _ _ _ h₁ h₂ :=
    ⟨h₂.others.trans h₁.others, fun h => (h₂.flag (h₁.others ▸ h)).trans (h₁.flag h)⟩

section

variable {α : Type}

instance (f : Cpu → Cpu) : Kept FlagEffect (modifyCpu f) := ⟨.modify fun _ => ⟨rfl, fun _ => rfl⟩⟩

instance (l : Lock) : Kept FlagEffect (takeLock l) := by unfold takeLock; infer_instance

instance : ShootdownKeeps FlagEffect where
  unlock h := ⟨h.others, h.flag⟩
  queues _ _ := ⟨rfl, fun _ => rfl⟩
  nodes _ _ := ⟨rfl, fun _ => rfl⟩
  states _ _ := ⟨rfl, fun _ => rfl⟩
  handed _ _ := ⟨rfl, fun _ => rfl⟩
  waits k := ⟨rfl, fun h => h k.sh⟩

instance (ptr : Nat) : Kept FlagEffect (kfree ptr) := by
  have hheap (x : HeapM Unit) : Kept FlagEffect (onHeap x) := ⟨.zoom fun _ _ => ⟨rfl, fun _ => rfl⟩⟩
  unfold kfree
  infer_instance

instance : DescKeeps FlagEffect where
  kmalloc _ _ _ _ h := ⟨by rw [(kmalloc_effect h).eq], fun _ => by rw [(kmalloc_effect h).eq]⟩
  kfree _ := Kept.keeps
  setDesc _ _ _ := ⟨rfl, fun _ => rfl⟩
  setHead _ _ := ⟨rfl, fun _ => rfl⟩
  setNext _ _ := ⟨rfl, fun _ => rfl⟩

instance (priority := low) {x : KM α} [hx : Kept PagingEffect x] : Kept FlagEffect x :=
  ⟨hx.keeps.mono fun _ _ h => ⟨by rw [h.eq], fun _ => by rw [h.eq]⟩⟩

set_option synthInstance.maxSize 1000000 in
instance (handle : VMemHandle) (size : Nat) (useSpinlock : Bool) :
    Kept FlagEffect (tryExpandVmemBottomWith kmalloc handle size useSpinlock) := by
  unfold tryExpandVmemBottomWith tryExpandWith acquireIf releaseIf acquireSpinlockHard
    releaseSpinlockHard releaseSpinlock
  infer_instance

set_option synthInstance.maxSize 1000000 in
instance (fault : Fault) : Kept FlagEffect (pageFaultResolve fault) := by
  unfold pageFaultResolve acquireSpinlock releaseSpinlock getVmemFromAddress pageFaultSolve
    pageFaultCheckIdentityMapLoad pageFaultCheckStackOverflow getVmemType
  infer_instance

end

/-! ## Several CPUs -/

/-- How far a CPU is with its fault. -/
inductive FaultPhase where
  | idle
  | faulted
  | entered
  | serviced
  | resolved
  | panicked
  deriving DecidableEq

/-- Between the first and the last critical section. -/
def FaultPhase.InService (p : FaultPhase) : Prop := p = .entered ∨ p = .serviced

instance (p : FaultPhase) : Decidable p.InService := inferInstanceAs (Decidable (_ ∨ _))

structure FaultSys where
  sh : Shared
  cpu : Nat → Cpu
  others : Shared → Shared
  fault : Nat → Fault
  phase : Nat → FaultPhase

namespace FaultSys

/-- The state CPU `c` runs in. -/
def kernel (s : FaultSys) (c : Nat) : Kernel := ⟨s.cpu c, s.sh, s.others⟩

def put (s : FaultSys) (c : Nat) (k : Kernel) (next : FaultPhase) : FaultSys :=
  { s with
    sh := k.sh, cpu := update s.cpu c k.cpu, phase := update s.phase c next }

/-- A critical section that returns goes on to the next phase; a CPU that spins takes no step. -/
def finish (s : FaultSys) (c : Nat) (next : FaultPhase) :
    EStateM.Result Stop Kernel Unit → Option FaultSys
  | .ok _ k => some (s.put c k next)
  | .error (.panic _) k => some (s.put c k .panicked)
  | .error _ _ => none

def step (s : FaultSys) (c : Nat) : Option FaultSys :=
  match s.phase c with
  | .faulted => s.finish c .entered ((pageFaultEnter (s.fault c)).run (s.kernel c))
  | .entered => s.finish c .serviced ((pageFaultResolve (s.fault c)).run (s.kernel c))
  | .serviced => s.finish c .resolved (pageFaultLeave.run (s.kernel c))
  | _ => none

/-- The fault of CPU `c` is one that `page_fault` resolves when no other one is in service. -/
def Resolvable (s : FaultSys) (c : Nat) : Prop :=
  ∃ k', (pageFault (s.fault c).address (s.fault c).error).run
    { s.kernel c with sh := { s.sh with servicingPageFault := false } } = .ok () k'

def Alone (s : FaultSys) (_ : Nat) : Prop := ∀ d, ¬ (s.phase d).InService

/-- A step of a CPU whose fault, when it enters, is resolvable; `P` restricts when it enters. -/
def Step (P : FaultSys → Nat → Prop) (s t : FaultSys) : Prop :=
  ∃ c, (s.phase c = .faulted → s.Resolvable c ∧ P s c) ∧ s.step c = some t

/-- Before any CPU has entered `page_fault`. -/
structure Starts (s : FaultSys) : Prop where
  others : ∀ sh, (s.others sh).servicingPageFault = sh.servicingPageFault
  flag : s.sh.servicingPageFault = false
  phase : ∀ c, s.phase c = .idle ∨ s.phase c = .faulted

/-- The flag is set exactly while a fault is in service, there is at most one such fault,
and what is left of its handling will return. -/
structure Inv (s : FaultSys) : Prop where
  others : ∀ sh, (s.others sh).servicingPageFault = sh.servicingPageFault
  flag : s.sh.servicingPageFault = true ↔ ∃ c, (s.phase c).InService
  unique : ∀ c d, (s.phase c).InService → (s.phase d).InService → c = d
  entered : ∀ c, s.phase c = .entered → ∃ k',
    (do pageFaultResolve (s.fault c); pageFaultLeave).run (s.kernel c) = .ok () k'
  serviced : ∀ c, s.phase c = .serviced → ∃ k', pageFaultLeave.run (s.kernel c) = .ok () k'

variable {s t s₀ : FaultSys} {c : Nat} {k k' : Kernel} {u : Unit}
  {next : FaultPhase} {d : Nat}

theorem Starts.alone (h : s.Starts) (c : Nat) : s.Alone c := by
  intro c hc
  rcases h.phase c with hp | hp <;> rw [hp] at hc <;> exact absurd hc (by decide)

theorem Starts.inv (h : s.Starts) : s.Inv := by
  have hnone := h.alone 0
  refine { others := h.others, flag := ?_, unique := fun c _ hc => absurd hc (hnone c)
           entered := fun c hc => absurd (.inl hc) (hnone c)
           serviced := fun c hc => absurd (.inr hc) (hnone c) }
  rw [h.flag]
  constructor
  · intro hf; cases hf
  · rintro ⟨c, hc⟩; exact absurd hc (hnone c)

/-! ### The critical sections -/

theorem run_pageFaultEnter_ok {fault : Fault} (h : (pageFaultEnter fault).run k = .ok u k') :
    isKernelVirtualMemory fault.address = true ∧ .pageFault ∉ k.cpu.held ∧
      k'.sh = { k.sh with servicingPageFault := true } ∧ k'.others = k.others := by
  unfold pageFaultEnter acquireSpinlock releaseSpinlock at h
  rw [run_check_bind] at h
  obtain ⟨haddr, h⟩ := h
  obtain ⟨_, t, hlock, h⟩ := run_bind_ok.1 h
  obtain ⟨hheld, rfl⟩ := run_takeLock_ok.1 hlock
  rw [run_get_bind, run_check_bind, run_modifyShared_bind, run_modifyCpu] at h
  obtain ⟨-, h⟩ := h
  cases h
  exact ⟨haddr, hheld, rfl, rfl⟩

theorem run_pageFaultEnter_busy {fault : Fault} (haddr : isKernelVirtualMemory fault.address = true)
    (hlock : .pageFault ∉ k.cpu.held) (hflag : k.sh.servicingPageFault = true) :
    ∃ e k', (pageFaultEnter fault).run k = .error (.panic e) k' ∧ k'.sh = k.sh := by
  unfold pageFaultEnter acquireSpinlock
  rw [run_ok_bind (run_check_true haddr), run_ok_bind (run_takeLock_ok (u := ()).2 ⟨hlock, rfl⟩),
    run_get_bind, EStateM.run_bind]
  simp only [hflag]
  exact ⟨_, _, rfl, rfl⟩

theorem run_pageFaultLeave_ok (h : pageFaultLeave.run k = .ok u k') :
    k'.sh.servicingPageFault = false := by
  unfold pageFaultLeave acquireSpinlock releaseSpinlock at h
  obtain ⟨_, t, -, h⟩ := run_bind_ok.1 h
  rw [run_modifyShared_bind, run_modifyCpu] at h
  cases h
  rfl

/-- Entering alone: the rest of the handling will return. -/
theorem Resolvable.enter (h : s.Resolvable c) (hflag : s.sh.servicingPageFault = false) :
    ∃ k, (pageFaultEnter (s.fault c)).run (s.kernel c) = .ok () k ∧ ∃ k',
      (do pageFaultResolve (s.fault c); pageFaultLeave).run k = .ok () k' := by
  obtain ⟨k', hrun⟩ := h
  have hk : { s.kernel c with sh := { s.sh with servicingPageFault := false } } = s.kernel c := by
    rw [← hflag]; rfl
  rw [hk, pageFault_eq] at hrun
  obtain ⟨_, k, hk, hrest⟩ := run_bind_ok.1 hrun
  exact ⟨k, hk, k', hrest⟩

theorem Resolvable.enter_busy (h : s.Resolvable c) (hflag : s.sh.servicingPageFault = true) :
    ∃ e k, (pageFaultEnter (s.fault c)).run (s.kernel c) = .error (.panic e) k ∧ k.sh = s.sh := by
  obtain ⟨k', hrun⟩ := h
  rw [pageFault_eq] at hrun
  obtain ⟨_, k, hk, -⟩ := run_bind_ok.1 hrun
  obtain ⟨haddr, hlock, -⟩ := run_pageFaultEnter_ok hk
  exact run_pageFaultEnter_busy (k := s.kernel c) haddr hlock hflag

/-! ### Steps -/

theorem Inv.flag_of_alone (h : s.Inv) : s.sh.servicingPageFault = false ↔ s.Alone c := by
  rw [← Bool.not_eq_true, h.flag]
  exact not_exists

/-- What a step of a CPU does: it goes on to the next phase, except that entering while
another fault is in service panics. -/
inductive Outcome (s : FaultSys) (c : Nat) : Option FaultSys → Prop
  | enters {k : Kernel} : s.phase c = .faulted → s.Alone c → k.sh.servicingPageFault = true →
      k.others = s.others → (∃ k',
        (do pageFaultResolve (s.fault c); pageFaultLeave).run k = .ok () k') →
      Outcome s c (some (s.put c k .entered))
  | panics {k : Kernel} : s.phase c = .faulted → ¬ s.Alone c → k.sh = s.sh →
      Outcome s c (some (s.put c k .panicked))
  | services {k : Kernel} : s.phase c = .entered → k.sh.servicingPageFault = true →
      k.others = s.others → (∃ k', pageFaultLeave.run k = .ok () k') →
      Outcome s c (some (s.put c k .serviced))
  | leaves {k : Kernel} : s.phase c = .serviced → k.sh.servicingPageFault = false →
      Outcome s c (some (s.put c k .resolved))
  | stays : Outcome s c none

theorem Inv.outcome (h : s.Inv) (hres : s.phase c = .faulted → s.Resolvable c) :
    s.Outcome c (s.step c) := by
  unfold step
  cases hp : s.phase c with
  | idle => exact .stays
  | resolved => exact .stays
  | panicked => exact .stays
  | faulted =>
    cases hf : s.sh.servicingPageFault with
    | false =>
      obtain ⟨k, hk, hrest⟩ := (hres hp).enter hf
      obtain ⟨-, -, hsh, hoth⟩ := run_pageFaultEnter_ok hk
      simp only [hk, finish]
      exact .enters hp (h.flag_of_alone.1 hf) (by rw [hsh]) hoth hrest
    | true =>
      obtain ⟨e, k, hk, hsh⟩ := (hres hp).enter_busy hf
      simp only [hk, finish]
      refine .panics hp (fun ha => ?_) hsh
      rw [h.flag_of_alone.2 ha] at hf
      cases hf
  | entered =>
    obtain ⟨k', hrun⟩ := h.entered c hp
    obtain ⟨_, k, hk, hleave⟩ := run_bind_ok.1 hrun
    have heff : FlagEffect _ _ := Kept.keeps hk
    simp only [hk, finish]
    exact .services hp ((heff.flag h.others).trans (h.flag.2 ⟨c, .inl hp⟩)) heff.others ⟨k', hleave⟩
  | serviced =>
    obtain ⟨k, hk⟩ := h.serviced c hp
    simp only [hk, finish]
    exact .leaves hp (run_pageFaultLeave_ok hk)

theorem phase_put_self : (s.put c k next).phase c = next :=
  update_self ..

theorem phase_put_of_ne (hd : d ≠ c) : (s.put c k next).phase d = s.phase d :=
  update_of_ne hd ..

theorem kernel_put_self (h : k.others = s.others) : (s.put c k next).kernel c = k := by
  unfold kernel put
  simp only [update_self, ← h]

theorem kernel_put_of_ne (hd : d ≠ c) (h : k.sh = s.sh) :
    (s.put c k next).kernel d = s.kernel d := by
  unfold kernel put
  simp only [update_of_ne hd, h]

/-- When no other fault is in service, only CPU `c` matters afterwards. -/
theorem Inv.put (h : s.Inv) (halone : ∀ d, d ≠ c → ¬ (s.phase d).InService)
    (hflag : k.sh.servicingPageFault = true ↔ next.InService)
    (hentered : next = .entered → ∃ k',
      (do pageFaultResolve (s.fault c); pageFaultLeave).run ((s.put c k next).kernel c) = .ok () k')
    (hserviced : next = .serviced → ∃ k',
      pageFaultLeave.run ((s.put c k next).kernel c) = .ok () k') :
    (s.put c k next).Inv := by
  have honly : ∀ d, ((s.put c k next).phase d).InService → d = c := by
    intro d hd
    by_contra hne
    rw [phase_put_of_ne hne] at hd
    exact halone d hne hd
  refine { others := h.others, flag := ?_, unique := ?_, entered := ?_, serviced := ?_ }
  · rw [show (s.put c k next).sh = k.sh from rfl, hflag]
    constructor
    · exact fun hn => ⟨c, by rw [phase_put_self]; exact hn⟩
    · rintro ⟨d, hd⟩
      obtain rfl := honly d hd
      rwa [phase_put_self] at hd
  · intro d e hd he
    rw [honly d hd, honly e he]
  · intro d hd
    obtain rfl := honly d (.inl hd)
    rw [phase_put_self] at hd
    exact hentered hd
  · intro d hd
    obtain rfl := honly d (.inr hd)
    rw [phase_put_self] at hd
    exact hserviced hd

/-- A panic of a CPU that was entering leaves the fault in service as it was. -/
theorem Inv.put_panicked (h : s.Inv) (hc : s.phase c = .faulted) (hsh : k.sh = s.sh) :
    (s.put c k .panicked).Inv := by
  have hphase : ∀ d, ((s.put c k .panicked).phase d).InService ↔ (s.phase d).InService := by
    intro d
    by_cases hd : d = c
    · subst hd
      rw [phase_put_self, hc]
      decide
    · rw [phase_put_of_ne hd]
  have hne : ∀ d, (s.phase d).InService → d ≠ c := by
    rintro d hd rfl
    rw [hc] at hd
    exact absurd hd (by decide)
  refine { others := h.others, flag := ?_, unique := ?_, entered := ?_, serviced := ?_ }
  · rw [show (s.put c k .panicked).sh = k.sh from rfl, hsh, h.flag]
    exact exists_congr fun d => (hphase d).symm
  · exact fun d e hd he => h.unique d e ((hphase d).1 hd) ((hphase e).1 he)
  · intro d hd
    have hdc := hne d ((hphase d).1 (.inl hd))
    rw [phase_put_of_ne hdc] at hd
    rw [kernel_put_of_ne hdc hsh]
    exact h.entered d hd
  · intro d hd
    have hdc := hne d ((hphase d).1 (.inr hd))
    rw [phase_put_of_ne hdc] at hd
    rw [kernel_put_of_ne hdc hsh]
    exact h.serviced d hd

theorem Inv.step (h : s.Inv) (hres : s.phase c = .faulted → s.Resolvable c)
    (hstep : s.step c = some t) : t.Inv := by
  have hother : (s.phase c).InService → ∀ d, d ≠ c → ¬ (s.phase d).InService :=
    fun hc d hd hds => hd (h.unique d c hds hc)
  have ho := h.outcome hres
  rw [hstep] at ho
  cases ho with
  | enters _ halone hflag hoth hrest =>
    refine h.put (fun d _ => halone d) (iff_of_true hflag (by decide)) (fun _ => ?_) nofun
    rw [kernel_put_self hoth]
    exact hrest
  | panics hc _ hsh => exact h.put_panicked hc hsh
  | services hc hflag hoth hrest =>
    refine h.put (hother (.inl hc)) (iff_of_true hflag (by decide)) nofun fun _ => ?_
    rw [kernel_put_self hoth]
    exact hrest
  | leaves hc hflag =>
    refine h.put (hother (.inr hc)) (iff_of_false ?_ (by decide)) nofun nofun
    rw [hflag]
    decide

theorem inv_of_run {P : FaultSys → Nat → Prop} (h₀ : s₀.Starts)
    (hrun : ReflTransGen (Step P) s₀ s) : s.Inv :=
  invariant_of_steps (fun _ _ ⟨_, hres, hstep⟩ h => h.step (fun hc => (hres hc).1) hstep) hrun h₀.inv

/-! ## When a CPU panics -/

/-- In every run at most one fault is in service, and a CPU panics exactly when it enters
while another fault is. -/
theorem step_panics_iff (h₀ : s₀.Starts) (hrun : ReflTransGen (Step fun _ _ => True) s₀ s)
    (hres : s.phase c = .faulted → s.Resolvable c) (hstep : s.step c = some t) :
    (∀ d e, (s.phase d).InService → (s.phase e).InService → d = e) ∧
      (t.phase c = .panicked ↔ s.phase c = .faulted ∧ ¬ s.Alone c) := by
  have hinv := inv_of_run h₀ hrun
  refine ⟨hinv.unique, ?_⟩
  have ho := hinv.outcome hres
  rw [hstep] at ho
  cases ho with rw [phase_put_self, ‹s.phase c = _›]
  | enters _ halone => exact iff_of_false nofun fun h => h.2 halone
  | panics _ hbusy => exact iff_of_true rfl ⟨rfl, hbusy⟩
  | services => exact iff_of_false nofun nofun
  | leaves => exact iff_of_false nofun nofun

theorem Inv.step_next (h : s.Inv) (hres : s.phase c = .faulted → s.Resolvable c ∧ s.Alone c)
    (hstep : s.step c = some t) : ∃ k next, t = s.put c k next ∧ next ≠ .panicked := by
  have ho := h.outcome fun hp => (hres hp).1
  rw [hstep] at ho
  cases ho with
  | enters => exact ⟨_, _, rfl, by decide⟩
  | panics hp hbusy => exact absurd (hres hp).2 hbusy
  | services => exact ⟨_, _, rfl, by decide⟩
  | leaves => exact ⟨_, _, rfl, by decide⟩

theorem not_panicked_of_run (h₀ : s₀.Starts) (hrun : ReflTransGen (Step Alone) s₀ s) :
    ∀ c, s.phase c ≠ .panicked := by
  induction hrun with
  | refl =>
    intro c hc
    rcases h₀.phase c with hp | hp <;> rw [hp] at hc <;> cases hc
  | @tail s t hrun hstep ih =>
    obtain ⟨d, hd, hstep⟩ := hstep
    obtain ⟨k, next, rfl, hnext⟩ := (inv_of_run h₀ hrun).step_next hd hstep
    intro c
    by_cases hcd : c = d
    · rw [hcd, phase_put_self]; exact hnext
    · rw [phase_put_of_ne hcd]; exact ih c

/-! ## Every fault is resolved -/

/-- CPU `c` gets to the end of its handling by its own steps. -/
def Resolves (s : FaultSys) (c : Nat) : Prop :=
  ∃ t, ReflTransGen (Step Alone) s t ∧ t.phase c = .resolved

theorem Inv.resolves_serviced (h : s.Inv) (hc : s.phase c = .serviced) : s.Resolves c := by
  obtain ⟨k, hk⟩ := h.serviced c hc
  have hstep : s.step c = some (s.put c k .resolved) := by
    unfold FaultSys.step
    rw [hc]
    simp only [hk, finish]
  exact ⟨_, .single ⟨c, by rw [hc]; nofun, hstep⟩, phase_put_self⟩

theorem Inv.resolves_entered (h : s.Inv) (hc : s.phase c = .entered) : s.Resolves c := by
  obtain ⟨k', hrun⟩ := h.entered c hc
  obtain ⟨_, k, hk, -⟩ := run_bind_ok.1 hrun
  have hstep : s.step c = some (s.put c k .serviced) := by
    unfold FaultSys.step
    rw [hc]
    simp only [hk, finish]
  have hres : s.phase c = .faulted → s.Resolvable c := by rw [hc]; nofun
  obtain ⟨t, hsteps, ht⟩ := (h.step hres hstep).resolves_serviced phase_put_self
  exact ⟨t, .head ⟨c, by rw [hc]; nofun, hstep⟩ hsteps, ht⟩

section

variable (h : s.Inv) (hc : s.phase c = .faulted) (hres : s.Resolvable c) (halone : s.Alone c)

include h hc hres halone

/-- Entering changes nothing but the flag. -/
theorem Inv.enters : ∃ k, s.step c = some (s.put c k .entered) ∧
    k.sh = { s.sh with servicingPageFault := true } := by
  obtain ⟨k, hk, -⟩ := hres.enter ((h.flag_of_alone (c := c)).2 halone)
  obtain ⟨-, -, hsh, -⟩ := run_pageFaultEnter_ok hk
  refine ⟨k, ?_, hsh⟩
  unfold FaultSys.step
  rw [hc]
  simp only [hk, finish]

theorem Inv.resolves_faulted : s.Resolves c := by
  obtain ⟨k, hstep, -⟩ := h.enters hc hres halone
  obtain ⟨t, hsteps, ht⟩ := (h.step (fun _ => hres) hstep).resolves_entered phase_put_self
  exact ⟨t, .head ⟨c, fun _ => ⟨hres, halone⟩, hstep⟩ hsteps, ht⟩

/-- A CPU that enters after another one is still resolvable on its own, but panics. -/
theorem Inv.second_panics (hcd : d ≠ c) (hd : s.phase d = .faulted) (hresd : s.Resolvable d) :
    ∃ t u, Step (fun _ _ => True) s t ∧ t.Resolvable d ∧ t.step d = some u ∧
      u.phase d = .panicked := by
  obtain ⟨k, hstep, hsh⟩ := h.enters hc hres halone
  have hresd' : (s.put c k .entered).Resolvable d := by
    obtain ⟨k', hrun⟩ := hresd
    refine ⟨k', ?_⟩
    rw [← hrun]
    show (pageFault _ _).run ⟨update s.cpu c k.cpu d,
      { k.sh with servicingPageFault := false }, s.others⟩ = _
    rw [update_of_ne hcd, hsh]
    rfl
  have hflag : (s.put c k .entered).sh.servicingPageFault = true := by
    show k.sh.servicingPageFault = true
    rw [hsh]
  obtain ⟨e, k', hk', -⟩ := hresd'.enter_busy hflag
  refine ⟨_, (s.put c k .entered).put d k' .panicked, ⟨c, fun _ => ⟨hres, trivial⟩, hstep⟩, hresd',
    ?_, phase_put_self⟩
  unfold FaultSys.step
  rw [phase_put_of_ne hcd, hd]
  simp only [hk', finish]

end

/-- In every run in which a CPU enters `page_fault` only while no fault is in service, no
CPU panics, and a fault in service, or one that is next, gets resolved. -/
theorem faults_resolved_of_run (h₀ : s₀.Starts) (hrun : ReflTransGen (Step Alone) s₀ s) (c : Nat) :
    s.phase c ≠ .panicked ∧ ((s.phase c).InService → s.Resolves c) ∧
      (s.phase c = .faulted → s.Resolvable c → s.Alone c → s.Resolves c) := by
  have h := inv_of_run h₀ hrun
  refine ⟨not_panicked_of_run h₀ hrun c, ?_, h.resolves_faulted⟩
  rintro (hc | hc)
  · exact h.resolves_entered hc
  · exact h.resolves_serviced hc

/-! ## Two CPUs -/

/-- The paging structure lies in page 5 and its PML4 in page 6; sixteen pages from one
megabyte on are identity mapped. -/
def identityMapped : Kernel :=
  finalState ((do initializeKernelVMM (5 * pageSize); discard (identityMap MB (16 * pageSize))).run
    { startedKernel with
      sh := { startedKernel.sh with pmem := store (fun _ => 0) (5 * pageSize) (6 * pageSize) } })

/-- CPU 0 and CPU 1 read pages of the identity mapping that are not loaded. -/
def twoFaults : FaultSys where
  sh := identityMapped.sh
  cpu _ := identityMapped.cpu
  others := id
  fault c := ⟨MB + c * pageSize, 0⟩
  phase c := if c < 2 then .faulted else .idle

theorem twoFaults_starts : twoFaults.Starts where
  others _ := rfl
  flag := by decide +kernel
  phase c := by
    by_cases hc : c < 2
    · exact .inr (if_pos hc)
    · exact .inl (if_neg hc)

theorem twoFaults_resolvable_zero : twoFaults.Resolvable 0 :=
  ⟨_, eq_of_returned (by decide +kernel)⟩

theorem twoFaults_resolvable_one : twoFaults.Resolvable 1 :=
  ⟨_, eq_of_returned (by decide +kernel)⟩

theorem twoFaults_first_resolved : ∃ t, ReflTransGen (Step Alone) twoFaults t ∧
    t.phase 0 = .resolved ∧ ∀ c, t.phase c ≠ .panicked := by
  obtain ⟨t, hrun, ht⟩ := (faults_resolved_of_run twoFaults_starts .refl 0).2.2 rfl
    twoFaults_resolvable_zero (twoFaults_starts.alone 0)
  exact ⟨t, hrun, ht, fun c => (faults_resolved_of_run twoFaults_starts hrun c).1⟩

theorem twoFaults_second_panics :
    ∃ t u, Step (fun _ _ => True) twoFaults t ∧ t.Resolvable 1 ∧ t.step 1 = some u ∧
      u.phase 1 = .panicked :=
  twoFaults_starts.inv.second_panics (c := 0) rfl twoFaults_resolvable_zero (twoFaults_starts.alone 0)
    (by decide) rfl twoFaults_resolvable_one

theorem step_panics_iff_twoFaults : ∃ t u, Step (fun _ _ => True) twoFaults t ∧ t.step 1 = some u ∧
    u.phase 1 = .panicked ∧ t.phase 1 = .faulted ∧ ¬ t.Alone 1 := by
  obtain ⟨t, u, hrun, hres, hstep, hu⟩ := twoFaults_second_panics
  have h := step_panics_iff twoFaults_starts (.single hrun) (fun _ => hres) hstep
  exact ⟨t, u, hrun, hstep, hu, h.2.1 hu⟩

/-- CPU 1 enters while the fault of CPU 0 is in service, and panics. -/
theorem exists_panic : ∃ s₀ t : FaultSys, s₀.Starts ∧
    ReflTransGen (Step fun _ _ => True) s₀ t ∧ t.phase 1 = .panicked := by
  obtain ⟨t, u, hrun, hres, hstep, hu⟩ := twoFaults_second_panics
  exact ⟨twoFaults, u, twoFaults_starts,
    .tail (.single hrun) ⟨1, fun _ => ⟨hres, trivial⟩, hstep⟩, hu⟩

end FaultSys

end GarbageOS
