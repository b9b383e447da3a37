import GarbageOS.Kernel.Defs

/-!
# `pic.c`: acknowledging the legacy controllers

`interrupt_routine` asks whether an interrupt of a PIC is spurious and acknowledges it. The test
knows only line 7, and reads the in-service register of the slave twice where it should read the
master's: so every interrupt of line 7 is taken for a spurious one while the slave is idle, and no
interrupt of line 15 is.
-/

namespace GarbageOS

open Lib

def masterCommandPort : Nat := 0x20

def slaveCommandPort : Nat := 0xA0

def picIdtStart : Nat := 0x20

def picIdtSize : Nat := 16

def picEoi : BitVec 8 := 0x20

def picReadIsr : BitVec 8 := 0x0B

/-! ## The controllers -/

/-- A controller: its request and in-service registers, and which of them a read of the command
port gives. -/
structure Pic8259 where
  irr : BitVec 8
  isr : BitVec 8
  readIsr : Bool

/-- A byte written to the command port. A non-specific EOI clears the lowest bit in service, the
one with the highest priority. -/
def Pic8259.command (pic : Pic8259) (value : BitVec 8) : Pic8259 :=
  if value = picEoi then { pic with isr := pic.isr &&& (pic.isr - 1) }
  else if value = picReadIsr then { pic with readIsr := true }
  else if value = 0x0A then { pic with readIsr := false }
  else pic

/-- An EOI has nothing to clear. -/
def Pic8259.strayEoi (pic : Pic8259) (value : BitVec 8) : Bool := value == picEoi && pic.isr == 0

def Pic8259.read (pic : Pic8259) : BitVec 8 := if pic.readIsr then pic.isr else pic.irr

/-- Both controllers, with the number of stray EOIs so far. -/
structure PicState where
  picPresent : Bool
  master : Pic8259
  slave : Pic8259
  strayEois : Nat

abbrev PicM := EStateM Stop PicState

def outb (port : Nat) (value : BitVec 8) : PicM Unit := do
  let s ← get
  if port = masterCommandPort then
    set { s with master := s.master.command value
                 strayEois := s.strayEois + (s.master.strayEoi value).toNat }
  else if port = slaveCommandPort then
    set { s with slave := s.slave.command value
                 strayEois := s.strayEois + (s.slave.strayEoi value).toNat }

def inb (port : Nat) : PicM (BitVec 8) := do
  let s ← get
  if port = masterCommandPort then return s.master.read
  else if port = slaveCommandPort then return s.slave.read
  else return 0

/-! ## The driver -/

def picAckInterrupt (interruptNumber : Nat) (spurious : Bool) : PicM Unit := do
  if spurious then
    if sub64 interruptNumber picIdtStart = 15 then outb masterCommandPort picEoi
  else do
    if sub64 interruptNumber picIdtStart ≥ 8 then outb slaveCommandPort picEoi
    outb masterCommandPort picEoi

/-- `get_pic_isr`: both bytes are read from the slave. -/
def getPicIsr : PicM (BitVec 16) := do
  outb masterCommandPort picReadIsr
  outb slaveCommandPort picReadIsr
  let high ← inb slaveCommandPort
  let low ← inb slaveCommandPort
  return high.setWidth 16 <<< 8 ||| low.setWidth 16

def isPicInterruptSpurious (interruptNumber : BitVec 8) : PicM Bool := do
  let irq := interruptNumber - BitVec.ofNat 8 picIdtStart
  if irq = 7 then do
    let isr ← getPicIsr
    return isr &&& (1 <<< 7) == 0
  else return false

/-- `interrupt_routine`; `handle` is what it does with the interrupts that are not the PIC's. -/
def interruptRoutine (handle : Nat → PicM Unit) (interruptNumber : Nat) : PicM Unit := do
  kassert (interruptNumber < 256)
  let s ← get
  if s.picPresent ∧ sub64 interruptNumber picIdtStart < picIdtSize then do
    let isSpurious ← isPicInterruptSpurious (BitVec.ofNat 8 interruptNumber)
    picAckInterrupt interruptNumber isSpurious
  else handle interruptNumber

/-! ## Interrupts -/

inductive PicInterrupt where
  | genuine (irq : Fin 16)
  | spurious7
  | spurious15
deriving DecidableEq

namespace PicInterrupt

def irq : PicInterrupt → Nat
  | genuine irq => irq
  | spurious7 => 7
  | spurious15 => 15

/-- The bits that a controller has in service when it hands the interrupt to the CPU. -/
def masterBits : PicInterrupt → BitVec 8
  | genuine irq => if irq.val < 8 then 1 <<< irq.val else 1 <<< 2
  | spurious7 => 0
  | spurious15 => 1 <<< 2

def slaveBits : PicInterrupt → BitVec 8
  | genuine irq => if irq.val < 8 then 0 else 1 <<< (irq.val - 8)
  | spurious7 => 0
  | spurious15 => 0

end PicInterrupt

def PicState.raise (s : PicState) (i : PicInterrupt) : PicState :=
  { s with master := { s.master with isr := s.master.isr ||| i.masterBits }
           slave := { s.slave with isr := s.slave.isr ||| i.slaveBits } }

def serveInterrupt (handle : Nat → PicM Unit) (i : PicInterrupt) : PicM Unit := do
  modify fun s => s.raise i
  interruptRoutine handle (picIdtStart + i.irq)

structure PicState.Idle (s : PicState) : Prop where
  master_isr : s.master.isr = 0
  slave_isr : s.slave.isr = 0

/-- Each interrupt of the sequence leaves nothing in service and no EOI is stray. -/
def AckedExactly (handle : Nat → PicM Unit) : PicState → List PicInterrupt → Prop
  | _, [] => True
  | s, i :: rest => ∃ s', (serveInterrupt handle i).run s = .ok () s' ∧ s'.Idle ∧
      s'.strayEois = s.strayEois ∧ AckedExactly handle s' rest

/-! ## One interrupt -/

def PicState.eoiMaster (s : PicState) : PicState :=
  { s with master := s.master.command picEoi
           strayEois := s.strayEois + (s.master.strayEoi picEoi).toNat }

def PicState.eoiSlave (s : PicState) : PicState :=
  { s with slave := s.slave.command picEoi
           strayEois := s.strayEois + (s.slave.strayEoi picEoi).toNat }

def PicState.selectIsr (s : PicState) : PicState :=
  { s with master := { s.master with readIsr := true }, slave := { s.slave with readIsr := true } }

section

variable {handle : Nat → PicM Unit} {s : PicState} {irq : Nat}

theorem sub64_picIdtStart (h : irq < 16) : sub64 (picIdtStart + irq) picIdtStart = irq := by
  rw [sub64_eq (Nat.le_add_right _ _) (by simp only [picIdtStart]; omega), Nat.add_sub_cancel_left]

theorem run_interruptRoutine (hpresent : s.picPresent = true) (h : irq < 16) :
    (interruptRoutine handle (picIdtStart + irq)).run s =
      (isPicInterruptSpurious (BitVec.ofNat 8 (picIdtStart + irq)) >>=
        picAckInterrupt (picIdtStart + irq)).run s := by
  have hlt : picIdtStart + irq < 256 := by simp only [picIdtStart]; omega
  rw [interruptRoutine, run_kassert_pos (decide_eq_true hlt), run_get_bind,
    if_pos ⟨hpresent, by rw [sub64_picIdtStart h]; exact h⟩]

theorem run_isPicInterruptSpurious (h : irq < 16) (hne : irq ≠ 7) :
    (isPicInterruptSpurious (BitVec.ofNat 8 (picIdtStart + irq))).run s = .ok false s := by
  have hirq : BitVec.ofNat 8 (picIdtStart + irq) - BitVec.ofNat 8 picIdtStart ≠ 7 := by
    intro he
    have hnat := congrArg BitVec.toNat he
    rw [BitVec.toNat_sub, BitVec.toNat_ofNat, BitVec.toNat_ofNat] at hnat
    change _ = 7 at hnat
    simp only [picIdtStart] at hnat
    omega
  rw [isPicInterruptSpurious]
  simp only [if_neg hirq]
  rfl

theorem run_getPicIsr :
    getPicIsr.run s = .ok (s.slave.isr.setWidth 16 <<< 8 ||| s.slave.isr.setWidth 16) s.selectIsr :=
  rfl

theorem run_isPicInterruptSpurious_7 (hslave : s.slave.isr = 0) :
    (isPicInterruptSpurious (BitVec.ofNat 8 (picIdtStart + 7))).run s = .ok true s.selectIsr := by
  rw [isPicInterruptSpurious]
  simp only [if_pos (by decide : BitVec.ofNat 8 (picIdtStart + 7) - BitVec.ofNat 8 picIdtStart = 7)]
  rw [run_ok_bind run_getPicIsr, hslave]
  rfl

theorem run_picAckInterrupt_master (h : irq < 8) :
    (picAckInterrupt (picIdtStart + irq) false).run s = .ok () s.eoiMaster := by
  have hlow : ¬sub64 (picIdtStart + irq) picIdtStart ≥ 8 := by
    rw [sub64_picIdtStart (by omega)]
    omega
  simp only [picAckInterrupt, if_neg hlow]
  rfl

theorem run_picAckInterrupt_both (h : irq < 16) (hslave : 8 ≤ irq) :
    (picAckInterrupt (picIdtStart + irq) false).run s = .ok () s.eoiSlave.eoiMaster := by
  have hhigh : sub64 (picIdtStart + irq) picIdtStart ≥ 8 := by
    rw [sub64_picIdtStart h]
    exact hslave
  simp only [picAckInterrupt, if_pos hhigh]
  rfl

theorem run_picAckInterrupt_spurious7 :
    (picAckInterrupt (picIdtStart + 7) true).run s = .ok () s := rfl

end

theorem command_picEoi_bit {pic : Pic8259} {k : Nat} (hk : k < 8) (h : pic.isr = 1 <<< k) :
    (pic.command picEoi).isr = 0 ∧ pic.strayEoi picEoi = false := by
  have hbit : ∀ k : Fin 8, (1 <<< k.val : BitVec 8) &&& (1 <<< k.val - 1) = 0 ∧
      ((1 <<< k.val : BitVec 8) == 0) = false := by decide
  obtain ⟨hclear, hset⟩ := hbit ⟨k, hk⟩
  constructor
  · show pic.isr &&& (pic.isr - 1) = 0
    rw [h]
    exact hclear
  · show (true && pic.isr == 0) = false
    rw [h, Bool.true_and]
    exact hset

def PicInterrupt.Ackable (i : PicInterrupt) : Prop := i ≠ genuine 7 ∧ i ≠ spurious15

section

variable {handle : Nat → PicM Unit} {s s' : PicState} {i : PicInterrupt}

theorem PicState.Idle.raise_isr (h : s.Idle) (i : PicInterrupt) :
    (s.raise i).master.isr = i.masterBits ∧ (s.raise i).slave.isr = i.slaveBits := by
  constructor
  · show s.master.isr ||| i.masterBits = _
    rw [h.master_isr]
    exact BitVec.zero_or
  · show s.slave.isr ||| i.slaveBits = _
    rw [h.slave_isr]
    exact BitVec.zero_or

theorem PicInterrupt.irq_lt (i : PicInterrupt) : i.irq < 16 := by
  cases i with
  | genuine irq => exact irq.isLt
  | spurious7 => decide
  | spurious15 => decide

section

variable (hpresent : s.picPresent = true)

include hpresent

theorem run_serveInterrupt :
    (serveInterrupt handle i).run s =
      (isPicInterruptSpurious (BitVec.ofNat 8 (picIdtStart + i.irq)) >>=
        picAckInterrupt (picIdtStart + i.irq)).run (s.raise i) := by
  rw [serveInterrupt, run_modify_bind]
  exact run_interruptRoutine (s := s.raise i) hpresent i.irq_lt

theorem run_serveInterrupt_of_ne (hne : i.irq ≠ 7) :
    (serveInterrupt handle i).run s =
      (picAckInterrupt (picIdtStart + i.irq) false).run (s.raise i) := by
  rw [run_serveInterrupt hpresent, run_ok_bind (run_isPicInterruptSpurious i.irq_lt hne)]

theorem run_serveInterrupt_7 (h : s.Idle) (hirq : i.irq = 7) (hslave : i.slaveBits = 0) :
    (serveInterrupt handle i).run s = .ok () (s.raise i).selectIsr := by
  rw [run_serveInterrupt hpresent, hirq,
    run_ok_bind (run_isPicInterruptSpurious_7 ((h.raise_isr i).2.trans hslave)),
    run_picAckInterrupt_spurious7]

theorem serveInterrupt_master (h : s.Idle) (hlow : i.irq < 8) (hne : i.irq ≠ 7)
    (hmaster : i.masterBits = 1 <<< i.irq) (hslave : i.slaveBits = 0) :
    ∃ s', (serveInterrupt handle i).run s = .ok () s' ∧ s'.picPresent = true ∧ s'.Idle ∧
      s'.strayEois = s.strayEois := by
  obtain ⟨hm, hs⟩ := h.raise_isr i
  obtain ⟨hclear, hstray⟩ := command_picEoi_bit hlow (hm.trans hmaster)
  refine ⟨(s.raise i).eoiMaster, ?_, hpresent, ⟨hclear, hs.trans hslave⟩, ?_⟩
  · rw [run_serveInterrupt_of_ne hpresent hne, run_picAckInterrupt_master hlow]
  · show s.strayEois + _ = _
    rw [hstray]
    rfl

theorem serveInterrupt_slave (h : s.Idle) (hhigh : 8 ≤ i.irq) (hmaster : i.masterBits = 1 <<< 2)
    (hslave : i.slaveBits = 1 <<< (i.irq - 8)) :
    ∃ s', (serveInterrupt handle i).run s = .ok () s' ∧ s'.picPresent = true ∧ s'.Idle ∧
      s'.strayEois = s.strayEois := by
  obtain ⟨hm, hs⟩ := h.raise_isr i
  have hlt := i.irq_lt
  obtain ⟨hclear₁, hstray₁⟩ := command_picEoi_bit (by decide) (hm.trans hmaster)
  obtain ⟨hclear₂, hstray₂⟩ := command_picEoi_bit (by omega) (hs.trans hslave)
  refine ⟨(s.raise i).eoiSlave.eoiMaster, ?_, hpresent, ⟨hclear₁, hclear₂⟩, ?_⟩
  · rw [run_serveInterrupt_of_ne hpresent (by omega), run_picAckInterrupt_both hlt hhigh]
  · show s.strayEois + ((s.raise i).slave.strayEoi picEoi).toNat +
      ((s.raise i).master.strayEoi picEoi).toNat = _
    rw [hstray₁, hstray₂]
    rfl

theorem serveInterrupt_spurious15 (h : s.Idle) :
    ∃ s', (serveInterrupt handle .spurious15).run s = .ok () s' ∧
      s'.strayEois = s.strayEois + 1 := by
  obtain ⟨hm, hs⟩ := h.raise_isr .spurious15
  have hstray : (s.raise .spurious15).slave.strayEoi picEoi = true := by
    show (true && (s.raise .spurious15).slave.isr == 0) = true
    rw [hs]
    rfl
  refine ⟨(s.raise .spurious15).eoiSlave.eoiMaster, ?_, ?_⟩
  · rw [run_serveInterrupt_of_ne hpresent (by decide)]
    exact run_picAckInterrupt_both (by decide) (by decide)
  · show s.strayEois + ((s.raise .spurious15).slave.strayEoi picEoi).toNat +
      ((s.raise .spurious15).master.strayEoi picEoi).toNat = _
    rw [hstray, (command_picEoi_bit (by decide : 2 < 8) hm).2]
    rfl

theorem serveInterrupt_genuine7 (h : s.Idle) :
    ∃ s', (serveInterrupt handle (.genuine 7)).run s = .ok () s' ∧ s'.master.isr = 0x80 :=
  ⟨_, run_serveInterrupt_7 hpresent h rfl rfl, (h.raise_isr (.genuine 7)).1⟩

end

theorem serveInterrupt_step (handle : Nat → PicM Unit) (hpresent : s.picPresent = true)
    (h : s.Idle) (i : PicInterrupt) :
    ∃ s', (serveInterrupt handle i).run s = .ok () s' ∧
      (i.Ackable → s'.picPresent = true ∧ s'.Idle ∧ s'.strayEois = s.strayEois) ∧
      (s'.Idle → s'.strayEois = s.strayEois → i.Ackable) := by
  cases i with
  | genuine irq =>
    by_cases h7 : irq = 7
    · -- line 7 is not acknowledged
      subst h7
      obtain ⟨s', hrun, hisr⟩ := serveInterrupt_genuine7 hpresent h
      refine ⟨s', hrun, fun ha => absurd rfl ha.1, fun hidle => ?_⟩
      rw [hidle.master_isr] at hisr
      exact absurd hisr (by decide)
    · have hackable : PicInterrupt.Ackable (.genuine irq) :=
        ⟨fun he => h7 (PicInterrupt.genuine.inj he), PicInterrupt.noConfusion⟩
      have hserved : ∃ s', (serveInterrupt handle (.genuine irq)).run s = .ok () s' ∧
          s'.picPresent = true ∧ s'.Idle ∧ s'.strayEois = s.strayEois := by
        rcases Nat.lt_or_ge irq.val 8 with hlow | hhigh
        · exact serveInterrupt_master hpresent h hlow (fun he => h7 (Fin.ext he)) (if_pos hlow)
            (if_pos hlow)
        · have hnot : ¬irq.val < 8 := Nat.not_lt.2 hhigh
          exact serveInterrupt_slave hpresent h hhigh (if_neg hnot) (if_neg hnot)
      obtain ⟨s', hrun, hs'⟩ := hserved
      exact ⟨s', hrun, fun _ => hs', fun _ _ => hackable⟩
  | spurious7 =>
    refine ⟨_, run_serveInterrupt_7 hpresent h rfl rfl, fun _ => ⟨hpresent, ?_, rfl⟩, fun _ _ => ?_⟩
    · obtain ⟨hm, hs⟩ := h.raise_isr .spurious7
      exact ⟨hm, hs⟩
    · exact ⟨PicInterrupt.noConfusion, PicInterrupt.noConfusion⟩
  | spurious15 =>
    obtain ⟨s', hrun, hstray⟩ := serveInterrupt_spurious15 hpresent h
    refine ⟨s', hrun, fun ha => absurd rfl ha.2, fun _ hsame => ?_⟩
    rw [hstray] at hsame
    omega

end

/-! ## Sequences -/

/-- A sequence of interrupts is acknowledged exactly if it has no genuine interrupt of line 7 and
no spurious one of line 15. -/
theorem ackedExactly_iff (handle : Nat → PicM Unit) {s : PicState} (hpresent : s.picPresent = true)
    (h : s.Idle) (is : List PicInterrupt) : AckedExactly handle s is ↔ ∀ i ∈ is, i.Ackable := by
  induction is generalizing s with
  | nil => exact iff_of_true trivial (fun _ hi => absurd hi List.not_mem_nil)
  | cons i is ih =>
    obtain ⟨s', hrun, hok, hback⟩ := serveInterrupt_step handle hpresent h i
    rw [List.forall_mem_cons]
    constructor
    · rintro ⟨s₂, hrun₂, hidle, hstray, hrest⟩
      obtain rfl : s' = s₂ := by
        rw [hrun] at hrun₂
        injection hrun₂
      have hackable := hback hidle hstray
      exact ⟨hackable, (ih (hok hackable).1 hidle).1 hrest⟩
    · rintro ⟨hackable, hrest⟩
      obtain ⟨hp, hidle, hstray⟩ := hok hackable
      exact ⟨s', hrun, hidle, hstray, (ih hp hidle).2 hrest⟩

/-- The controllers after `init_pic` and `disable_pic`. -/
def initialPics : PicState := ⟨true, ⟨0, 0, false⟩, ⟨0, 0, false⟩, 0⟩

theorem ackedExactly_initialPics :
    AckedExactly (fun _ => pure ()) initialPics [.genuine 0, .genuine 12, .spurious7] :=
  (ackedExactly_iff _ rfl ⟨rfl, rfl⟩ _).2 (by unfold PicInterrupt.Ackable; decide)

/-- A genuine interrupt of line 7 stays in service, and a spurious one of line 15 sends an EOI to
a slave with nothing in service. -/
theorem line7_and_line15_misjudged :
    (∃ s', (serveInterrupt (fun _ => pure ()) (.genuine 7)).run initialPics = .ok () s' ∧
        s'.master.isr = 0x80) ∧
      ∃ s', (serveInterrupt (fun _ => pure ()) .spurious15).run initialPics = .ok () s' ∧
        s'.strayEois = 1 :=
  ⟨serveInterrupt_genuine7 rfl ⟨rfl, rfl⟩, serveInterrupt_spurious15 rfl ⟨rfl, rfl⟩⟩

end GarbageOS
