import GarbageOS.Apic.Ipi
import GarbageOS.Apic.Reads

/-!
# `ioapic.c`: routing an ISA interrupt

`init_ioapics` keeps the I/O APICs and the interrupt source overrides of the MADT;
`setIOAPICInterruptRedirection` looks an interrupt up in both and writes one entry of a
redirection table. An override can ask for another polarity and trigger mode, but the two flags
of `ISA_irq_fix` that say so are never set.
-/

namespace GarbageOS

open Lib

def ioapicidOffset : Nat := 0x0
def ioapicverOffset : Nat := 0x1
def ioredtblOffsetStart : Nat := 0x10

/-- The registers of the I/O APICs before they are set up, by physical base address and offset,
and the addresses that `memory_map` has a handle for. -/
structure IoapicHardware where
  register : (physicalBaseAddress offset : Nat) → Nat
  mappable : (physicalBaseAddress : Nat) → Bool

/-- An entry of `ioapic_array` with the fields that are read from the registers. -/
structure IOAPIC extends IoApic where
  ioapicId : Nat
  version : Nat
  maximumRedirectionEntry : Nat
  deriving DecidableEq

/-- `ioapic_gdata`; `none` is an array that was not allocated. -/
structure IOAPICSubsystemData where
  ioapicArray : List IOAPIC
  sourceOverrideArray : Option (List (Option Nat))
  deriving DecidableEq

structure IOAPICInterruptRedirection where
  reidirectToLowestPriority : Bool
  apicIdToRedirect : Nat
  triggerMode : Nat
  polarity : Nat
  mask : Bool
  vector : Nat

structure ISAIrqFix where
  irqOverride : Bool
  polarityOverride : Bool
  triggerOverride : Bool
  irq : Nat
  polarity : Nat
  triggerMode : Nat

structure IoapicWrite where
  physicalBaseAddress : Nat
  offset : Nat
  value : Nat
  deriving DecidableEq

/-! ## Initialization -/

/-- `none` if the registers could not be mapped. -/
def initSingleIoapic (hw : IoapicHardware) (ioapic : IOAPIC) : Option IOAPIC :=
  if hw.mappable ioapic.physicalBaseAddress then
    let versionRegData := hw.register ioapic.physicalBaseAddress ioapicverOffset
    some { ioapic with
      ioapicId := hw.register ioapic.physicalBaseAddress ioapicidOffset >>> 24 &&& 0x0f
      version := versionRegData &&& 0xff
      maximumRedirectionEntry := ((versionRegData >>> 16 &&& 0xff) + 1) % 2 ^ 8 }
  else none

/-- The last loop of `init_ioapics`. -/
def initAllIoapics (hw : IoapicHardware) : List IOAPIC → Bool × List IOAPIC
  | [] => (true, [])
  | ioapic :: ioapics =>
    match initSingleIoapic hw ioapic with
    | none => (false, ioapic :: ioapics)
    | some ioapic =>
      let rest := initAllIoapics hw ioapics
      (rest.1, ioapic :: rest.2)

def initIoapics (hw : IoapicHardware) (madt : Option Madt) (data : IOAPICSubsystemData) :
    Except Stop (Bool × IOAPICSubsystemData) :=
  match madt with
  | none => .ok (false, data)
  | some t => do
    let ioapics ← (Madt.Read.countICSHeaderInstances t icsTypeProcessorIoApic t.length).result
    if ioapics = 0 then return (false, data)
    let overrides ← (Madt.Read.countICSHeaderInstances t icsTypeInterruptSourceOverride t.length).result
    let ioapicArray ← (Madt.Read.fillIoapicArray t (List.replicate ioapics ⟨none, 0⟩) t.length).result
    let sourceOverrideArray ← (Madt.Read.fillSourceOverrideArray t (List.replicate overrides none)
      t.length).result
    let (ok, ioapicArray) := initAllIoapics hw (ioapicArray.map fun ioapic => ⟨ioapic, 0, 0, 0⟩)
    return (ok, ⟨ioapicArray,
      if overrides ≠ 0 then some sourceOverrideArray else data.sourceOverrideArray⟩)

/-! ## Redirections -/

def ISAIrqFix.none : ISAIrqFix := ⟨false, false, false, 0, 0, 0⟩

def write64IoapicRegister (ioapic : IOAPIC) (offset value : Nat) : List IoapicWrite :=
  let offset := offset % 2 ^ 8
  [⟨ioapic.physicalBaseAddress, offset, value % 2 ^ 32⟩,
    ⟨ioapic.physicalBaseAddress, (offset + 1) % 2 ^ 8, value / 2 ^ 32 % 2 ^ 32⟩]

def IOAPICInterruptRedirection.entry (redirection : IOAPICInterruptRedirection) : Except Stop Nat :=
  let finish (entry : Nat) : Nat :=
    entry ||| redirection.polarity <<< 13 ||| redirection.triggerMode <<< 15 |||
      redirection.mask.toNat <<< 16
  if redirection.reidirectToLowestPriority then
    .ok (finish (redirection.vector ||| DeliveryMode.lowestPriority.code <<< 8))
  else if redirection.apicIdToRedirect &&& 0x0f = redirection.apicIdToRedirect then
    .ok (finish (redirection.vector ||| DeliveryMode.fixed.code <<< 8 |||
      redirection.apicIdToRedirect <<< 56))
  else .error (.panic .failedAssert)

namespace Madt

variable (t : Madt)

/-- What an override asks for. -/
def isaFixOf (ics : Nat) : Except Stop ISAIrqFix := do
  let fix := { ISAIrqFix.none with irqOverride := true, irq := t.overrideInterrupt ics }
  let polarityFlag := t.overrideFlags ics &&& mpsIntiPolarityMask
  let fix ←
    if polarityFlag ≠ mpsIntiPolarityBusConform then
      if polarityFlag = mpsIntiPolarityReserved then .error (.panic .failedAssert)
      else .ok { fix with polarity := (polarityFlag == mpsIntiPolarityActiveLow).toNat }
    else .ok fix
  let triggerModeFlag := t.overrideFlags ics &&& mpsIntiTriggerModeMask
  if triggerModeFlag ≠ mpsIntiTriggerModeBusConform then
    if triggerModeFlag = mpsIntiTriggerModeReserved then .error (.panic .failedAssert)
    else .ok { fix with triggerMode := (triggerModeFlag == mpsIntiTriggerModeLevelTriggered).toNat }
  else .ok fix

/-- The loop of `get_isa_fix`. -/
def findIsaFix (irq : Nat) : List (Option Nat) → Except Stop ISAIrqFix
  | [] => .ok .none
  | none :: _ => .error .nullAccess
  | some ics :: overrides =>
    if t.overrideSource ics = irq then t.isaFixOf ics else findIsaFix irq overrides

def getIsaFix (data : IOAPICSubsystemData) (irq : Nat) : Except Stop ISAIrqFix :=
  match data.sourceOverrideArray with
  | none => .error (.panic .failedAssert)
  | some overrides => t.findIsaFix irq overrides

/-- The I/O APIC of an interrupt and the first interrupt it serves. -/
def findIoapic (irq : Nat) : List IOAPIC → Except Stop (IOAPIC × Nat)
  | [] => .error (.panic .failedAssert)
  | ioapic :: ioapics =>
    match ioapic.icsIoapic with
    | none => .error .nullAccess
    | some ics =>
      let startingIrq := t.globalSystemInterruptBase ics
      let endingIrq := startingIrq + ioapic.maximumRedirectionEntry
      if irq ≥ startingIrq ∧ irq < endingIrq then .ok (ioapic, startingIrq)
      else findIoapic irq ioapics

def setIOAPICInterruptRedirection (data : IOAPICSubsystemData)
    (redirection : IOAPICInterruptRedirection) (irq : Nat) : Except Stop (List IoapicWrite) := do
  let isaFix ← t.getIsaFix data irq
  let irq := if isaFix.irqOverride then isaFix.irq else irq
  let redirection :=
    if isaFix.triggerOverride then { redirection with triggerMode := isaFix.triggerMode }
    else redirection
  let redirection :=
    if isaFix.polarityOverride then { redirection with polarity := isaFix.polarity }
    else redirection
  let entry ← redirection.entry
  let (ioapic, base) ← t.findIoapic irq data.ioapicArray
  return write64IoapicRegister ioapic (ioredtblOffsetStart + (irq - base) * 2) entry

end Madt

end GarbageOS
