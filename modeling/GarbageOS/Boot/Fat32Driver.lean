import GarbageOS.Lib.Bytes
import GarbageOS.Lib.Exec

/-!
# `fat32.asm`

The FAT32 driver of the boot loader. It is 16-bit code that uses the 32-bit registers in
unreal mode: `pusha` and `popa` save and restore the lower halves only, `loop` counts in
`cx`, and a sector number is 48 bits of `edx:eax`. BIOS reads do not fail, and no interrupt
comes in between two instructions.
-/

namespace GarbageOS.Fat32Driver

open Lib

inductive Fault where
  | divideError
  | outOfSteps
  deriving DecidableEq

def fat32EndOfChain : Nat := 0x0FFFFFF8

structure Disk where
  sectorSize : Nat
  sector : Nat → Bytes

structure Vars where
  rootCluster : Nat := 0
  bufferOffset : Nat := 0
  sectorsPerCluster : Nat := 0
  fatStart : Nat := 0
  fatSize : Nat := 0
  dataAreaStart : Nat := 0
  numberOfFats : Nat := 0
  sectorSize : Nat := 0
  partitionOffset : Nat := 0
  lfimClus : Nat := 0
  deriving DecidableEq

structure Machine where
  eax : Nat
  ebx : Nat
  ecx : Nat
  edx : Nat
  esi : Nat
  edi : Nat
  ebp : Nat
  cf : Bool
  mem : Bytes
  vars : Vars
  reads : List Nat

abbrev DriverM := EStateM Fault Machine

/-- `mov al, v`, and the like. -/
def setLow8 (r v : Nat) : Nat := r / 2 ^ 8 * 2 ^ 8 + v % 2 ^ 8

def setLow16 (r v : Nat) : Nat := r / 2 ^ 16 * 2 ^ 16 + v % 2 ^ 16

/-- `popa` after a `pusha` in state `saved`. -/
def Machine.popa (m saved : Machine) : Machine :=
  { m with
    eax := setLow16 m.eax saved.eax
    ebx := setLow16 m.ebx saved.ebx
    ecx := setLow16 m.ecx saved.ecx
    edx := setLow16 m.edx saved.edx
    esi := setLow16 m.esi saved.esi
    edi := setLow16 m.edi saved.edi
    ebp := setLow16 m.ebp saved.ebp }

/-- The count of a `loop`, which is in `cx`. -/
def Machine.countDown (m : Machine) : Machine :=
  { m with ecx := setLow16 m.ecx (m.ecx + (2 ^ 16 - 1)) }

section

variable (disk : Disk)

/-- The sector number that `edx:eax` is for `read_sector`. -/
def Machine.lba (m : Machine) : Nat := m.eax + 2 ^ 32 * (m.edx % 2 ^ 16)

/-- The registers it uses are saved and restored. -/
def readSector : DriverM Unit :=
  modify fun m =>
    { m with
      cf := false
      mem := m.mem.copy (m.edi % 2 ^ 16) (disk.sector m.lba) disk.sectorSize
      reads := m.reads ++ [m.lba] }

/-- The variables read from the boot sector at `si`. -/
def Vars.ofBootSector (v : Vars) (mem : Bytes) (si : Nat) : Vars :=
  let v := { v with
    rootCluster := mem.get32 (si + 44)
    sectorsPerCluster := mem.get8 (si + 13)
    sectorSize := setLow16 v.sectorSize (mem.get16 (si + 11))
    fatStart := setLow16 v.fatStart (mem.get16 (si + 14))
    numberOfFats := mem.get8 (si + 16)
    fatSize := mem.get32 (si + 36) }
  { v with dataAreaStart := (v.numberOfFats * v.fatSize % 2 ^ 32 + v.fatStart) % 2 ^ 32 }

/-- What it leaves in the upper halves of `eax`, `ebx` and `edx` does not matter. -/
def initFat32Driver : DriverM Unit := do
  let saved ← get
  modify fun m => { m with
    vars := { m.vars with bufferOffset := m.eax % 2 ^ 16 }, edx := 0, eax := m.vars.partitionOffset }
  modify fun m => { m with edi := setLow16 m.edi m.vars.bufferOffset }
  readSector disk
  modify fun m => { m with
    esi := setLow16 m.esi m.vars.bufferOffset
    vars := m.vars.ofBootSector m.mem m.vars.bufferOffset }
  modify fun m => { m with
    ebx := m.vars.fatSize
    edx := m.vars.numberOfFats * m.vars.fatSize / 2 ^ 32
    eax := m.vars.dataAreaStart }
  modify fun m => m.popa saved

/-- The machine after `fat32_get_first_sector_of_cluster`. -/
def Machine.firstSectorOfCluster (m : Machine) : Machine :=
  let product := (m.eax + (2 ^ 32 - 2)) % 2 ^ 32 * m.vars.sectorsPerCluster
  let base := (m.vars.partitionOffset + m.vars.dataAreaStart) % 2 ^ 32
  let sum := product % 2 ^ 32 + base
  let carry := 2 ^ 32 ≤ sum
  { m with
    eax := sum % 2 ^ 32
    edx := if carry then (product / 2 ^ 32 + 1) % 2 ^ 32 else product / 2 ^ 32
    cf := carry }

/-- `eax` is a cluster; its first sector comes back in `edx:eax`. -/
def fat32GetFirstSectorOfCluster : DriverM Unit := modify Machine.firstSectorOfCluster

/-- `eax` is a cluster; its entry comes back in `eax`. The division is one of 32 bits by 16
bits. `ebp` is not restored: its place on the stack is used twice. -/
def getFatEntry : DriverM Unit := do
  let saved ← get
  let dividend := 4 * saved.eax % 2 ^ 32
  let cx := saved.vars.sectorSize % 2 ^ 16
  check (cx != 0 && dividend / cx < 2 ^ 16) .divideError
  let sector :=
    (dividend / cx + saved.vars.fatStart + saved.vars.partitionOffset) % 2 ^ 32
  modify fun m => { m with
    eax := sector, edx := 0, edi := setLow16 m.edi m.vars.bufferOffset }
  readSector disk
  modify fun m => { m with
    eax := m.mem.get32 ((dividend % cx + m.vars.bufferOffset) % 2 ^ 16)
    ebx := saved.ebx, ecx := saved.ecx, edx := saved.edx, esi := saved.esi, edi := saved.edi
    ebp := sector }

/-- `.lfim_copy`. -/
def lfimCopy : (steps : Nat) → DriverM Unit
  | 0 => throw .outOfSteps
  | steps + 1 => do
    modify fun m =>
      let word := m.mem.get32 ((m.esi + m.ebx) % 2 ^ 32)
      { m with eax := word, mem := m.mem.put32 ((m.edi + m.ebx) % 2 ^ 32) word }
    modify fun m => { m with ebx := (m.ebx + 4) % 2 ^ 32 }
    modify fun m => { m with cf := m.ebx < m.vars.sectorSize }
    if (← get).cf then lfimCopy steps else pure ()

/-- One round of `.lfim_parse_sector`. `inc` leaves the carry flag alone, so `jnc` tests the
one of the addition to `edi`. -/
def lfimParseSector : DriverM Unit := do
  let saved ← get
  modify fun m => { m with edi := setLow16 m.edi m.vars.bufferOffset }
  readSector disk
  modify fun m => { m with
    edi := saved.edi, eax := saved.eax, edx := saved.edx, esi := m.vars.bufferOffset, ebx := 0 }
  lfimCopy (2 ^ 30)
  modify fun m => { m with
    edi := (m.edi + m.vars.sectorSize) % 2 ^ 32, cf := 2 ^ 32 ≤ m.edi + m.vars.sectorSize }
  modify fun m => { m with eax := saved.eax, ebx := saved.ebx }
  modify fun m => { m with
    eax := (m.eax + 1) % 2 ^ 32, edx := if m.cf then (m.edx + 1) % 2 ^ 32 else m.edx }

/-- `.lfim_parse_sector` with its `loop`: at most `2 ^ 16` rounds. -/
def lfimParseSectors : (steps : Nat) → DriverM Unit
  | 0 => throw .outOfSteps
  | steps + 1 => do
    lfimParseSector disk
    modify Machine.countDown
    if (← get).ecx % 2 ^ 16 ≠ 0 then lfimParseSectors steps else pure ()

/-- The sectors of one cluster. Only `cl` is set before the loop. -/
def lfimLoadCluster : DriverM Unit := do
  modify fun m => { m with eax := m.vars.lfimClus }
  fat32GetFirstSectorOfCluster
  modify fun m => { m with ecx := setLow8 m.ecx m.vars.sectorsPerCluster }
  lfimParseSectors disk (2 ^ 16)

def lfimNextCluster : DriverM Unit := do
  modify fun m => { m with eax := m.vars.lfimClus }
  getFatEntry disk
  modify fun m => { m with vars := { m.vars with lfimClus := m.eax } }

/-- `.lfim_parse_cluster`. -/
def lfimParseCluster : (steps : Nat) → DriverM Unit
  | 0 => throw .outOfSteps
  | steps + 1 => do
    lfimLoadCluster disk
    lfimNextCluster disk
    if (← get).vars.lfimClus < fat32EndOfChain then lfimParseCluster steps else pure ()

/-- `eax` is the first cluster and `edi` the place in memory. An interrupt ends the `hlt`
before the return. -/
def loadFileInMemory (steps : Nat) : DriverM Unit := do
  let saved ← get
  modify fun m => { m with vars := { m.vars with lfimClus := m.eax } }
  lfimParseCluster disk steps
  modify fun m => m.popa saved

end

end GarbageOS.Fat32Driver
