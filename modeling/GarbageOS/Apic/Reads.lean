import GarbageOS.Apic.Array

/-!
# The bytes the MADT walks read

The loops over the MADT of `madt.c`, `apic.c` and `ioapic.c`, with a trace of the
offsets they read through the records. The arrays that the loops fill are
arguments: every function runs on any contents of them. The number of rounds a
loop may take is an argument too, so that a loop that does not end is one that
every number of rounds cuts off.
-/

namespace GarbageOS

open Lib

def icsTypeLocalApicAddressOverride : Nat := 5

/-- An entry of `ioapic_array`; the fields read from the registers later are left out. -/
structure IoApic where
  icsIoapic : Option Nat
  physicalBaseAddress : Nat
  deriving DecidableEq

/-- Code that reads the table through its records. -/
abbrev ReadM := Traced Stop Nat

namespace Madt.Read

variable (t : Madt) {α : Type}

def read8 (off : Nat) : ReadM Nat := .event off (t.read8 off)

def read32 (off : Nat) : ReadM Nat := do
  let b0 ← read8 t off
  let b1 ← read8 t (off + 1)
  let b2 ← read8 t (off + 2)
  let b3 ← read8 t (off + 3)
  return b0 + b1 * 2 ^ 8 + b2 * 2 ^ 16 + b3 * 2 ^ 24

def read64 (off : Nat) : ReadM Nat := do
  let low ← read32 t off
  let high ← read32 t (off + 4)
  return low + high * 2 ^ 32

def kassert (b : Bool) : ReadM Unit := if b then pure () else .stop (.panic .failedAssert)

/-! ## The loops -/

def getNextICSHeader (header : Nat) : ReadM (Option Nat) := do
  let next := header + (← read8 t (header + 1))
  return if next ≥ t.length then none else some next

def forICSFrom (body : Nat → α → ReadM (ForInStep α)) :
    (steps : Nat) → (header : Option Nat) → α → ReadM α
  | _, none, a => pure a
  | 0, some _, _ => .stop .loops
  | steps + 1, some header, a => do
    match ← body header a with
    | .done a => pure a
    | .yield a => do
      let next ← getNextICSHeader t header
      forICSFrom body steps next a

def forICS (steps : Nat) (a : α) (body : Nat → α → ReadM (ForInStep α)) : ReadM α :=
  forICSFrom t body steps t.getFirstICSHeader a

/-! ## `madt.c` -/

def countLapic (header count : Nat) : ReadM (ForInStep Nat) := do
  if (← read8 t header) = icsTypeProcessorLocalApic then
    let flags ← read32 t (header + 4)
    return .yield
      (if flags &&& (localApicFlagEnabled ||| localApicFlagOnlineCapable) = 0 then count
        else count + 1)
  else return .yield count

def countNumberOfLocalApic (steps : Nat) : ReadM Nat := forICS t steps 0 (countLapic t)

def countInstance (icsHeaderType header count : Nat) : ReadM (ForInStep Nat) := do
  let type ← read8 t header
  return .yield (if type = icsHeaderType then count + 1 else count)

def countICSHeaderInstances (icsHeaderType steps : Nat) : ReadM Nat :=
  forICS t steps 0 (countInstance t icsHeaderType)

/-! ## `apic.c` -/

def getLapicFromProcessorUid (uid : Nat) : List LocalApic → (i : Nat) → ReadM (Option Nat)
  | [], _ => pure none
  | lapic :: lapics, i =>
    match lapic.icsLapic with
    | none => .stop (.panic .failedAssert)
    | some ics => do
      if (← read8 t (ics + 2)) = uid then return some i
      else getLapicFromProcessorUid uid lapics (i + 1)

def storeLapic (header : Nat) (a : List LocalApic × Nat) :
    ReadM (ForInStep (List LocalApic × Nat)) := do
  if (← read8 t header) = icsTypeProcessorLocalApic then
    kassert (a.2 < a.1.length)
    let apicId ← read8 t (header + 3)
    return .yield (a.1.modify a.2 fun lapic =>
      { lapic with apicId := apicId, icsLapic := some header }, a.2 + 1)
  else return .yield a

def storeNmiAll (header : Nat) (lapicArray : List LocalApic) : List LocalApic :=
  lapicArray.map fun lapic => { lapic with icsLapicNmi := some header }

def storeNmiOne (header uid : Nat) (lapicArray : List LocalApic) :
    ReadM (ForInStep (List LocalApic)) := do
  match ← getLapicFromProcessorUid t uid lapicArray 0 with
  | none => .stop (.panic .failedAssert)
  | some i =>
    return .yield (lapicArray.modify i fun lapic => { lapic with icsLapicNmi := some header })

def storeNmi (header : Nat) (lapicArray : List LocalApic) :
    ReadM (ForInStep (List LocalApic)) := do
  if (← read8 t header) = icsTypeLocalApicNmi then
    let uid ← read8 t (header + 2)
    if uid = 0xff then return .done (storeNmiAll header lapicArray)
    else storeNmiOne t header uid lapicArray
  else return .yield lapicArray

def fillApicArray (lapicArray : List LocalApic) (steps : Nat) : ReadM (List LocalApic) := do
  let a ← forICS t steps (lapicArray, 0) (storeLapic t)
  kassert (a.2 = a.1.length)
  forICS t steps a.1 (storeNmi t)

def overrideAddress (header baseAddress : Nat) : ReadM (ForInStep Nat) := do
  if (← read8 t header) = icsTypeLocalApicAddressOverride then
    return .yield (← read64 t (header + 4))
  else return .yield baseAddress

/-- The walk starts with `local_interrupt_controller_address` of the table's header. -/
def getLapicBaseAddressFromMadt (steps : Nat) : ReadM Nat :=
  forICS t steps (t.read32 36) (overrideAddress t)

/-! ## `ioapic.c` -/

def storeIoapic (header : Nat) (a : List IoApic × Nat) :
    ReadM (ForInStep (List IoApic × Nat)) := do
  if (← read8 t header) = icsTypeProcessorIoApic then
    kassert (a.2 < a.1.length)
    let address ← read32 t (header + 4)
    return .yield (a.1.set a.2 ⟨some header, address⟩, a.2 + 1)
  else return .yield a

def fillIoapicArray (ioapicArray : List IoApic) (steps : Nat) : ReadM (List IoApic) := do
  let a ← forICS t steps (ioapicArray, 0) (storeIoapic t)
  kassert (a.2 = a.1.length)
  return a.1

def storeOverride (header : Nat) (a : List (Option Nat) × Nat) :
    ReadM (ForInStep (List (Option Nat) × Nat)) := do
  if (← read8 t header) = icsTypeInterruptSourceOverride then
    kassert (a.2 < a.1.length)
    let bus ← read8 t (header + 2)
    kassert (bus = 0)
    return .yield (a.1.set a.2 (some header), a.2 + 1)
  else return .yield a

def fillSourceOverrideArray (sourceOverrideArray : List (Option Nat)) (steps : Nat) :
    ReadM (List (Option Nat)) :=
  if sourceOverrideArray.length = 0 then pure sourceOverrideArray
  else do
    let a ← forICS t steps (sourceOverrideArray, 0) (storeOverride t)
    kassert (a.2 = a.1.length)
    return a.1

/-! ## Without the trace -/

variable {t}

@[simp] theorem getNextICSHeader_result (header : Nat) :
    (getNextICSHeader t header).result = .ok (t.getNextICSHeader header) := rfl

@[simp] theorem getNextICSHeader_trace (header : Nat) :
    (getNextICSHeader t header).trace = [header + 1] := rfl

theorem read32_eq (off : Nat) :
    read32 t off = ⟨[off, off + 1, off + 2, off + 3], .ok (t.read32 off)⟩ := rfl

theorem read64_eq (off : Nat) : read64 t off =
    ⟨[off, off + 1, off + 2, off + 3, off + 4, off + 5, off + 6, off + 7],
      .ok (t.read32 off + t.read32 (off + 4) * 2 ^ 32)⟩ := rfl

theorem forICSFrom_result (body : Nat → α → ReadM (ForInStep α)) (steps : Nat)
    (header : Option Nat) (a : α) :
    (forICSFrom t body steps header a).result =
      t.forICSFrom (fun header a => (body header a).result) steps header a := by
  induction steps generalizing header a with
  | zero => cases header <;> rfl
  | succ steps ih =>
    cases header with
    | none => rfl
    | some header =>
      show (body header a >>= _).result = (body header a).result >>= _
      rw [Traced.bind_result]
      apply bind_congr
      intro r
      cases r with
      | done b => rfl
      | yield b => exact (Traced.bind_result).trans (ih _ _)

theorem forICS_result (body : Nat → α → ReadM (ForInStep α)) (a : α) :
    (forICS t t.length a body).result = t.forICS a fun header a => (body header a).result :=
  forICSFrom_result ..

theorem countLapic_result (header count : Nat) :
    (countLapic t header count).result =
      .ok (.yield (if t.isUsableLapic header then count + 1 else count)) := by
  unfold countLapic
  simp only [read8, Traced.event_bind, read32_eq]
  by_cases hl : t.read8 header = icsTypeProcessorLocalApic
  · rw [if_pos hl]
    show Except.ok (ForInStep.yield _) = _
    by_cases hf : t.localApicFlags header &&&
        (localApicFlagEnabled ||| localApicFlagOnlineCapable) = 0
    · rw [localApicFlags] at hf
      simp [isUsableLapic, localApicFlags, hf]
    · rw [localApicFlags] at hf
      simp [isUsableLapic, icsType, localApicFlags, hl, hf]
  · rw [if_neg hl]
    simp [isUsableLapic, icsType, hl]

theorem countInstance_result (icsHeaderType header count : Nat) :
    (countInstance t icsHeaderType header count).result =
      .ok (.yield (if t.icsType header = icsHeaderType then count + 1 else count)) := rfl

theorem countNumberOfLocalApic_result :
    (countNumberOfLocalApic t t.length).result = t.countNumberOfLocalApic := by
  rw [countNumberOfLocalApic, forICS_result, Madt.countNumberOfLocalApic]
  simp only [countLapic_result]

theorem kassert_bind {β : Type} (b : Bool) (f : Unit → ReadM β) :
    (kassert b >>= f) = if b then f () else .stop (.panic .failedAssert) := by
  cases b <;> rfl

theorem storeLapic_result (header : Nat) (a : List LocalApic × Nat) :
    (storeLapic t header a).result = t.storeLapic header a := by
  unfold storeLapic Madt.storeLapic
  simp only [read8, Traced.event_bind, kassert_bind, decide_eq_true_eq]
  split
  · rename_i hl
    rw [if_pos (show t.icsType header = _ from hl)]
    split <;> rfl
  · rename_i hl
    rw [if_neg (show ¬ t.icsType header = _ from hl)]
    rfl

theorem getLapicFromProcessorUid_result (uid : Nat) (lapicArray : List LocalApic) (i : Nat) :
    (getLapicFromProcessorUid t uid lapicArray i).result =
      t.getLapicFromProcessorUid uid lapicArray i := by
  induction lapicArray generalizing i with
  | nil => rfl
  | cons lapic lapics ih =>
    unfold getLapicFromProcessorUid Madt.getLapicFromProcessorUid
    cases lapic.icsLapic with
    | none => rfl
    | some ics =>
      simp only [read8, Traced.event_bind]
      by_cases hu : t.read8 (ics + 2) = uid
      · rw [if_pos hu, if_pos (show t.processorUid ics = uid from hu)]
        rfl
      · rw [if_neg hu, if_neg (show ¬ t.processorUid ics = uid from hu)]
        exact ih _

theorem storeNmi_result (header : Nat) (lapicArray : List LocalApic) :
    (storeNmi t header lapicArray).result = t.storeNmi header lapicArray := by
  unfold storeNmi Madt.storeNmi
  simp only [read8, Traced.event_bind]
  rw [icsType]
  split
  · rw [processorUid]
    split
    · rfl
    · rw [← getLapicFromProcessorUid_result]
      refine Traced.bind_result.trans ?_
      apply bind_congr
      intro r
      cases r <;> rfl
  · rfl

theorem fillApicArray_result (lapicArray : List LocalApic) :
    (fillApicArray t lapicArray t.length).result = t.fillApicArray lapicArray := by
  unfold fillApicArray Madt.fillApicArray fillApicIds
  rw [Traced.bind_result, bind_assoc, forICS_result]
  simp only [storeLapic_result]
  apply bind_congr
  intro a
  rw [kassert_bind]
  by_cases h : a.2 = a.1.length
  · rw [if_pos h, if_pos (decide_eq_true h), forICS_result, ok_bind]
    simp only [storeNmi_result]
  · rw [if_neg h, if_neg (by simpa using h)]
    rfl

end Madt.Read

end GarbageOS
