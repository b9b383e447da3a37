import GarbageOS.Kernel.Defs
import Mathlib.Logic.Function.Basic

/-!
# `apic.c`: sending interprocessor interrupts

The registers of the local APIC and the code that writes an interrupt command.
The hardware dispatches an interrupt when the low half of the command register is
written, to the destination that the high half holds at that time; the code writes
the low half first, so an interrupt goes where the previous command was aimed.
-/

namespace GarbageOS

open Lib

/-- An interrupt as the hardware sends it. -/
structure Ipi where
  destination : Nat
  deliveryMode : Nat
  vector : Nat
  deriving DecidableEq

/-- `APICDeliveryMode`. -/
inductive DeliveryMode where
  | fixed
  | lowestPriority
  | smi
  | nmi
  | init
  | startUp
  | extInt
  deriving DecidableEq

def DeliveryMode.code : DeliveryMode → Nat
  | fixed => 0b000
  | lowestPriority => 0b001
  | smi => 0b010
  | nmi => 0b100
  | init => 0b101
  | startUp => 0b110
  | extInt => 0b111

/-- `APICDestinationShorthand`. -/
inductive DestinationShorthand where
  | noSh
  | self
  | allIncludingSelf
  | allExcludingSelf
  deriving DecidableEq

def DestinationShorthand.code : DestinationShorthand → Nat
  | noSh => 0b00
  | self => 0b01
  | allIncludingSelf => 0b10
  | allExcludingSelf => 0b11

/-- The local APIC of a core: its registers by offset, the interrupts it has sent
(latest first), and the reads of the command register that will still report a
send in progress. `delay k` is how many such reads follow the `k`-th dispatch. -/
structure Lapic where
  registerSpaceMapped : Bool
  registers : Nat → Nat
  busy : Nat
  delay : Nat → Nat
  dispatched : List Ipi

abbrev LapicM := EStateM Stop Lapic

def interruptCommandLow : Nat := 0x300
def interruptCommandHigh : Nat := 0x310
def deliveryStatusFlag : Nat := 1 <<< 12

def Lapic.destination (s : Lapic) : Nat := (s.registers interruptCommandHigh >>> 24) &&& 0xff

/-- What the hardware does on a write. -/
def Lapic.write (s : Lapic) (offset value : Nat) : Lapic :=
  if offset = interruptCommandLow then
    { s with
      registers := Function.update s.registers offset value
      busy := s.delay s.dispatched.length
      dispatched := ⟨s.destination, (value >>> 8) &&& 0b111, value &&& 0xff⟩ :: s.dispatched }
  else { s with registers := Function.update s.registers offset value }

/-- What the hardware returns on a read: the delivery status is not stored. -/
def Lapic.read (s : Lapic) (offset : Nat) : Nat :=
  if offset = interruptCommandLow then
    (s.registers offset &&& 0xffffefff) ||| (if s.busy = 0 then 0 else deliveryStatusFlag)
  else s.registers offset

def Lapic.afterRead (s : Lapic) (offset : Nat) : Lapic :=
  if offset = interruptCommandLow then { s with busy := s.busy - 1 } else s

/-- `KASSERT(!is_vmemhandle_invalid(lapic_gdata.register_space_mapping))`. -/
def assertMapped : LapicM Unit := do
  let s ← get
  kassert s.registerSpaceMapped

def write32LapicRegister (offset value : Nat) : LapicM Unit := do
  assertMapped
  modify fun s => s.write offset value

def read32LapicRegister (offset : Nat) : LapicM Nat := do
  assertMapped
  let s ← get
  modify fun s => s.afterRead offset
  return s.read offset

def write64LapicRegister (regLow value : Nat) : LapicM Unit := do
  let lowValue := value &&& 0x00000000ffffffff
  let highValue := (value >>> 32) &&& 0x00000000ffffffff
  write32LapicRegister regLow lowValue
  write32LapicRegister (regLow + 0x10) highValue

def read64LapicRegister (regLow : Nat) : LapicM Nat := do
  let low ← read32LapicRegister regLow
  let high ← read32LapicRegister (regLow + 0x10)
  return low ||| (high <<< 32)

/-- `make_interrupt_command`; the arguments other than the enumerations are bytes. -/
def makeInterruptCommand (destinationId : Nat) (destSh : DestinationShorthand)
    (triggerMode level destinationMode : Nat) (delMode : DeliveryMode) (vector : Nat) : Nat :=
  (destinationId % 256) <<< 56 ||| (destSh.code &&& 0b11) <<< 18 ||| (triggerMode &&& 1) <<< 15 |||
    (level &&& 1) <<< 14 ||| (destinationMode &&& 1) <<< 11 ||| (delMode.code &&& 0b111) <<< 8 |||
    vector % 256

def isIPISendingComplete : LapicM Bool := do
  assertMapped
  return (← read64LapicRegister interruptCommandLow) &&& deliveryStatusFlag == 0

/-- The waiting loop, for at most `polls` polls. -/
def pollAndWrite (icr : Nat) : (polls : Nat) → LapicM Unit
  | 0 => throw .loops
  | polls + 1 => do
    if ← isIPISendingComplete then write64LapicRegister interruptCommandLow icr
    else pollAndWrite icr polls

/-- The hardware finishes a send after `busy` polls, so the next one ends the wait. -/
def waitAndWriteInterruptCommandRegister (icr : Nat) : LapicM Unit := do
  assertMapped
  let s ← get
  pollAndWrite icr (s.busy + 1)

def sendIPIByLapicId (lapicIdTarget : BitVec 32) (interruptVector : BitVec 8) : LapicM Unit := do
  assertMapped
  waitAndWriteInterruptCommandRegister
    (makeInterruptCommand lapicIdTarget.toNat .noSh 0 1 0 .fixed interruptVector.toNat)

def sendIPIInitByLapicId (lapicIdTarget : BitVec 32) : LapicM Unit := do
  assertMapped
  waitAndWriteInterruptCommandRegister
    (makeInterruptCommand lapicIdTarget.toNat .noSh 0 1 0 .init 0)

def sendIPIInitDeassertByLapicId (apicId : BitVec 32) : LapicM Unit := do
  assertMapped
  waitAndWriteInterruptCommandRegister (makeInterruptCommand apicId.toNat .noSh 1 0 0 .init 0)

def sendStartupIPI (lapicIdTarget : BitVec 32) (interruptVector : BitVec 8) : LapicM Unit := do
  assertMapped
  waitAndWriteInterruptCommandRegister
    (makeInterruptCommand lapicIdTarget.toNat .noSh 0 1 0 .startUp interruptVector.toNat)

/-! ## The fields of a command -/

section Command

variable (dest : Nat) (sh : DestinationShorthand) (trigger level mode : Nat) (del : DeliveryMode)
  (vector : Nat)

theorem DeliveryMode.code_lt (m : DeliveryMode) : m.code < 8 := by cases m <;> decide

theorem makeInterruptCommand_eq :
    makeInterruptCommand dest sh trigger level mode del vector =
      dest % 256 * 2 ^ 56 + sh.code % 4 * 2 ^ 18 + trigger % 2 * 2 ^ 15 + level % 2 * 2 ^ 14 +
        mode % 2 * 2 ^ 11 + del.code % 8 * 2 ^ 8 + vector % 256 := by
  have h3 (n : Nat) : n &&& 0b11 = n % 4 := Nat.and_two_pow_sub_one_eq_mod n 2
  have h1 (n : Nat) : n &&& 1 = n % 2 := Nat.and_two_pow_sub_one_eq_mod n 1
  have h7 (n : Nat) : n &&& 0b111 = n % 8 := Nat.and_two_pow_sub_one_eq_mod n 3
  unfold makeInterruptCommand
  simp only [h1, h3, h7, Nat.shiftLeft_eq]
  -- each field starts above the ones joined after it
  rw [or_eq_add (b := sh.code % 4 * 2 ^ 18) (k := 20) (by omega) (by omega),
    or_eq_add (b := trigger % 2 * 2 ^ 15) (k := 16) (by omega) (by omega),
    or_eq_add (b := level % 2 * 2 ^ 14) (k := 15) (by omega) (by omega),
    or_eq_add (b := mode % 2 * 2 ^ 11) (k := 12) (by omega) (by omega),
    or_eq_add (b := del.code % 8 * 2 ^ 8) (k := 11) (by omega) (by omega),
    or_eq_add (b := vector % 256) (k := 8) (by omega) (by omega)]

theorem makeInterruptCommand_fields :
    let icr := makeInterruptCommand dest sh trigger level mode del vector
    ((icr >>> 32 &&& 0xffffffff) >>> 24) &&& 0xff = dest % 256 ∧
      (icr &&& 0xffffffff) >>> 8 &&& 0b111 = del.code ∧ (icr &&& 0xffffffff) &&& 0xff = vector % 256 := by
  have h32 (n : Nat) : n &&& 0xffffffff = n % 2 ^ 32 := Nat.and_two_pow_sub_one_eq_mod n 32
  have h8 (n : Nat) : n &&& 0xff = n % 2 ^ 8 := Nat.and_two_pow_sub_one_eq_mod n 8
  have h7 (n : Nat) : n &&& 0b111 = n % 8 := Nat.and_two_pow_sub_one_eq_mod n 3
  have hdel := del.code_lt
  simp only [makeInterruptCommand_eq, h32, h8, h7, Nat.shiftRight_eq_div_pow]
  refine ⟨?_, ?_, ?_⟩ <;> omega

end Command

/-! ## One call -/

variable {s : Lapic}

@[simp] theorem Lapic.write_mapped (offset value : Nat) :
    (s.write offset value).registerSpaceMapped = s.registerSpaceMapped := by
  unfold Lapic.write; split <;> rfl

@[simp] theorem Lapic.afterRead_mapped (offset : Nat) :
    (s.afterRead offset).registerSpaceMapped = s.registerSpaceMapped := by
  unfold Lapic.afterRead; split <;> rfl

def Lapic.polled (s : Lapic) : Lapic := { s with busy := s.busy - 1 }

theorem Lapic.read_status (high : Nat) :
    ((s.read interruptCommandLow ||| high <<< 32) &&& deliveryStatusFlag == 0) = (s.busy == 0) := by
  have hbit : (s.read interruptCommandLow ||| high <<< 32).testBit 12 = decide (s.busy ≠ 0) := by
    rw [Lapic.read, if_pos rfl, Nat.testBit_or, Nat.testBit_or, Nat.testBit_and,
      show Nat.testBit 0xffffefff 12 = false by decide, Nat.testBit_shiftLeft]
    by_cases hb : s.busy = 0
    · simp [hb]
    · simp [hb, show deliveryStatusFlag.testBit 12 = true by decide]
  rw [Nat.testBit_eq_decide_div_mod_eq, decide_eq_decide] at hbit
  rw [show deliveryStatusFlag = (2 ^ 1 - 1) * 2 ^ 12 from rfl, and_mask, Bool.eq_iff_iff]
  simp only [beq_iff_eq]
  omega

def Lapic.commanded (s : Lapic) (icr : Nat) : Lapic :=
  (s.write interruptCommandLow (icr &&& 0xffffffff)).write interruptCommandHigh
    ((icr >>> 32) &&& 0xffffffff)

section

variable (h : s.registerSpaceMapped = true)

include h

theorem run_assertMapped_bind {α : Type} {f : Unit → LapicM α} :
    (assertMapped >>= f).run s = (f ()).run s := by
  apply run_ok_bind
  rw [assertMapped, run_get_bind]
  exact run_kassert_true h

theorem run_write32LapicRegister (offset value : Nat) :
    (write32LapicRegister offset value).run s = .ok () (s.write offset value) := by
  rw [write32LapicRegister, run_assertMapped_bind h, EStateM.run_modify]

theorem run_read32LapicRegister (offset : Nat) :
    (read32LapicRegister offset).run s = .ok (s.read offset) (s.afterRead offset) := by
  rw [read32LapicRegister, run_assertMapped_bind h, run_get_bind, run_modify_bind, EStateM.run_pure]

theorem run_isIPISendingComplete : isIPISendingComplete.run s = .ok (s.busy == 0) s.polled := by
  have hread : (read64LapicRegister interruptCommandLow).run s =
      .ok (s.read interruptCommandLow ||| (s.polled.read interruptCommandHigh) <<< 32) s.polled := by
    rw [read64LapicRegister, run_ok_bind (run_read32LapicRegister h _),
      run_ok_bind (run_read32LapicRegister (by simpa using h) _), EStateM.run_pure]
    rfl
  rw [isIPISendingComplete, run_assertMapped_bind h, run_ok_bind hread, EStateM.run_pure,
    Lapic.read_status]

theorem run_pollAndWrite (icr : Nat) :
    (pollAndWrite icr (s.busy + 1)).run s = .ok () ({ s with busy := 0 }.commanded icr) := by
  generalize hb : s.busy = n
  induction n generalizing s with
  | zero =>
    rw [pollAndWrite, run_ok_bind (run_isIPISendingComplete h), hb]
    show (write64LapicRegister interruptCommandLow icr).run s.polled = _
    rw [write64LapicRegister, run_ok_bind (run_write32LapicRegister (s := s.polled) h _ _),
      run_write32LapicRegister (by rw [Lapic.write_mapped]; exact h)]
    simp only [Lapic.commanded, Lapic.polled, hb]
    rfl
  | succ n ih =>
    rw [pollAndWrite, run_ok_bind (run_isIPISendingComplete h), hb]
    show (if (n + 1 == 0) = true then _ else pollAndWrite icr (n + 1)).run s.polled = _
    rw [if_neg (by simp)]
    exact ih (s := s.polled) h (by simp [Lapic.polled, hb])

end

/-! ## Sequences of calls -/

inductive IpiCall where
  | fixed (target : BitVec 32) (vector : BitVec 8)
  | init (target : BitVec 32)
  | initDeassert (target : BitVec 32)
  | startUp (target : BitVec 32) (vector : BitVec 8)

namespace IpiCall

def send : IpiCall → LapicM Unit
  | fixed target vector => sendIPIByLapicId target vector
  | init target => sendIPIInitByLapicId target
  | initDeassert target => sendIPIInitDeassertByLapicId target
  | startUp target vector => sendStartupIPI target vector

def target : IpiCall → Nat
  | fixed target _ | init target | initDeassert target | startUp target _ => target.toNat

def requested : IpiCall → Ipi
  | fixed target vector => ⟨target.toNat, DeliveryMode.fixed.code, vector.toNat⟩
  | init target | initDeassert target => ⟨target.toNat, DeliveryMode.init.code, 0⟩
  | startUp target vector => ⟨target.toNat, DeliveryMode.startUp.code, vector.toNat⟩

theorem requested_destination (c : IpiCall) : c.requested.destination = c.target := by
  cases c <;> rfl

def sendAll : List IpiCall → LapicM Unit
  | [] => pure ()
  | call :: calls => do
    call.send
    sendAll calls

/-- What happens to an interrupt on its way: it goes where `destination` says. -/
def misdirected (c : IpiCall) (destination : Nat) : Ipi :=
  { c.requested with destination := destination }

/-- A command that is written reaches the old destination and leaves the new one behind. -/
theorem commanded_spec (s : Lapic) (dest : Nat) (sh : DestinationShorthand)
    (trigger level mode : Nat) (del : DeliveryMode) (vector : Nat) :
    let s' := s.commanded (makeInterruptCommand dest sh trigger level mode del vector)
    s'.dispatched = ⟨s.destination, del.code, vector % 256⟩ :: s.dispatched ∧
      s'.destination = dest % 256 := by
  obtain ⟨hd, hm, hv⟩ := makeInterruptCommand_fields dest sh trigger level mode del vector
  generalize makeInterruptCommand dest sh trigger level mode del vector = icr at hd hm hv
  have hne : interruptCommandHigh ≠ interruptCommandLow := by decide
  refine ⟨?_, ?_⟩
  · show ((s.write interruptCommandLow _).write interruptCommandHigh _).dispatched = _
    rw [Lapic.write, if_neg hne, Lapic.write, if_pos rfl, hm, hv]
  · show ((s.write interruptCommandLow _).write interruptCommandHigh _).destination = _
    rw [Lapic.write, if_neg hne, Lapic.destination]
    simp only [Function.update_self, hd]

theorem run_command (h : s.registerSpaceMapped = true) (dest : Nat) (sh : DestinationShorthand)
    (trigger level mode : Nat) (del : DeliveryMode) (vector : Nat) :
    ∃ s', (assertMapped >>= fun _ => waitAndWriteInterruptCommandRegister
        (makeInterruptCommand dest sh trigger level mode del vector)).run s = .ok () s' ∧
      s'.registerSpaceMapped = true ∧
      s'.dispatched = ⟨s.destination, del.code, vector % 256⟩ :: s.dispatched ∧
      s'.destination = dest % 256 := by
  refine ⟨_, ?_, ?_, commanded_spec { s with busy := 0 } dest sh trigger level mode del vector⟩
  · rw [run_assertMapped_bind h, waitAndWriteInterruptCommandRegister, run_assertMapped_bind h,
      run_get_bind, run_pollAndWrite h]
  · simpa [Lapic.commanded] using h

/-- One call sends the interrupt it is asked for, but to the old destination. -/
theorem run_send (h : s.registerSpaceMapped = true) (c : IpiCall) :
    ∃ s', c.send.run s = .ok () s' ∧ s'.registerSpaceMapped = true ∧
      s'.dispatched = c.misdirected s.destination :: s.dispatched ∧
      s'.destination = c.target % 256 := by
  cases c with
  | fixed target vector =>
    have hv : vector.toNat % 256 = vector.toNat := Nat.mod_eq_of_lt vector.isLt
    have hrun := run_command h target.toNat .noSh 0 1 0 .fixed vector.toNat
    rw [hv] at hrun
    exact hrun
  | init target => exact run_command h target.toNat .noSh 0 1 0 .init 0
  | initDeassert target => exact run_command h target.toNat .noSh 1 0 0 .init 0
  | startUp target vector =>
    have hv : vector.toNat % 256 = vector.toNat := Nat.mod_eq_of_lt vector.isLt
    have hrun := run_command h target.toNat .noSh 0 1 0 .startUp vector.toNat
    rw [hv] at hrun
    exact hrun

/-- The interrupts that a sequence of calls sends when the register holds `destination`. -/
def sent : (destination : Nat) → List IpiCall → List Ipi
  | _, [] => []
  | destination, call :: calls => call.misdirected destination :: sent (call.target % 256) calls

theorem run_sendAll (h : s.registerSpaceMapped = true) (calls : List IpiCall) :
    ∃ s', (sendAll calls).run s = .ok () s' ∧
      s'.dispatched = (sent s.destination calls).reverse ++ s.dispatched := by
  induction calls generalizing s with
  | nil => exact ⟨s, rfl, rfl⟩
  | cons call calls ih =>
    obtain ⟨s₁, hrun, hm, hd, hdest⟩ := run_send h call
    obtain ⟨s₂, hrun₂, hd₂⟩ := ih hm
    refine ⟨s₂, ?_, ?_⟩
    · rw [sendAll, run_ok_bind hrun, hrun₂]
    · rw [hd₂, hd, hdest, sent, List.reverse_cons, List.append_assoc, List.singleton_append]

theorem misdirected_eq_requested {c : IpiCall} {destination : Nat} :
    c.misdirected destination = c.requested ↔ c.target = destination := by
  rw [misdirected, ← requested_destination]
  constructor
  · intro h; exact (congrArg Ipi.destination h).symm
  · rintro rfl; rfl

theorem sent_eq_requested_iff {destination : Nat} (hd : destination < 256) (calls : List IpiCall) :
    sent destination calls = calls.map requested ↔ ∀ c ∈ calls, c.target = destination := by
  induction calls generalizing destination with
  | nil => simp [sent]
  | cons call calls ih =>
    rw [sent, List.map_cons, List.cons.injEq, misdirected_eq_requested, ih (by omega),
      List.forall_mem_cons]
    constructor
    · rintro ⟨h, hrest⟩
      refine ⟨h, fun c hc => ?_⟩
      rw [hrest c hc, h, Nat.mod_eq_of_lt hd]
    · rintro ⟨h, hrest⟩
      refine ⟨h, fun c hc => ?_⟩
      rw [hrest c hc, h, Nat.mod_eq_of_lt hd]

/-- The interrupts sent are the ones requested exactly when every call aims at the
processor that the command register already holds when the sequence starts. -/
theorem dispatched_as_requested_iff {s : Lapic} (h : s.registerSpaceMapped = true)
    (calls : List IpiCall) : ∃ s', (sendAll calls).run s = .ok () s' ∧
      (s'.dispatched = (calls.map requested).reverse ++ s.dispatched ↔
        ∀ c ∈ calls, c.target = s.destination) := by
  obtain ⟨s', hrun, hd⟩ := run_sendAll h calls
  have hlt : s.destination < 256 := Nat.lt_of_le_of_lt Nat.and_le_right (by decide)
  refine ⟨s', hrun, ?_⟩
  rw [hd, List.append_cancel_right_eq, List.reverse_inj]
  exact sent_eq_requested_iff hlt calls

/-- A local APIC that holds the destination 3 and is never busy. -/
def aimedAtThree : Lapic :=
  { registerSpaceMapped := true
    registers := fun offset => if offset = interruptCommandHigh then 3 <<< 24 else 0
    busy := 0
    delay := fun _ => 0
    dispatched := [] }

theorem dispatched_as_requested_three : ∃ s',
    (sendAll [.init 3, .startUp 3 8]).run aimedAtThree = .ok () s' ∧
      s'.dispatched = [requested (.startUp 3 8), requested (.init 3)] := by
  obtain ⟨s', hrun, hiff⟩ :=
    @dispatched_as_requested_iff aimedAtThree rfl [.init 3, .startUp 3 8]
  exact ⟨s', hrun, hiff.2 (by decide)⟩

/-- Two interrupts to different processors: the second goes to the first processor. -/
theorem exists_misdirected : ∃ (s s' : Lapic) (calls : List IpiCall),
    s.registerSpaceMapped = true ∧ (sendAll calls).run s = .ok () s' ∧
      s'.dispatched ≠ (calls.map requested).reverse ++ s.dispatched := by
  obtain ⟨s', hrun, hd⟩ := run_sendAll (s := aimedAtThree) rfl [.init 3, .init 5]
  refine ⟨aimedAtThree, s', [.init 3, .init 5], rfl, hrun, ?_⟩
  rw [hd]
  decide

end IpiCall

end GarbageOS
