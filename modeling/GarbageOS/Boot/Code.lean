import GarbageOS.Lib.BubbleSort
import GarbageOS.Vmm.Code

/-!
# `bootloader_data.c`: the memory the boot loader reports

The BIOS memory map is turned into sorted, page-aligned ranges: all usable RAM
for the identity mapping, and for the frame allocator the part of it that the
boot loader did not use. Each function keeps its result in a static buffer; what
is modelled is its first call.
-/

namespace GarbageOS

open Lib

def maxPhysicalMemoryRanges : Nat := 128
def memoryMapFree : Nat := 1

/-- An item of the map that BIOS function `INT 0x15, EAX = 0xE820` reports. -/
structure MemoryMapItem where
  baseAddr : Nat
  size : Nat
  type : Nat
  acpi : Nat
  deriving DecidableEq

/-- What the boot loader leaves: the memory map, the item its frame allocator
works in and the first frame of it that is not used. -/
structure BootLoaderData where
  mapItems : List MemoryMapItem
  frameAllocMapItem : MemoryMapItem
  firstFrameAddress : Nat

/-- The items whose memory is used. -/
def MemoryMapItem.isUsable (item : MemoryMapItem) : Bool :=
  item.type == memoryMapFree && item.size != 0

/-- Copy the usable items to the range buffer, whose length is fixed. -/
def fillRanges : List MemoryMapItem → (nextRange : Nat) → Except Stop (List PhysicalMemoryRange)
  | [], _ => .ok []
  | item :: items, nextRange =>
    if item.isUsable then
      if nextRange = maxPhysicalMemoryRanges then .error (.panic .freeMemBootloaderError)
      else do
        let ranges ← fillRanges items (nextRange + 1)
        return ⟨item.baseAddr, item.size⟩ :: ranges
    else fillRanges items nextRange

/-- Round a start address up to the next page and take what was skipped off the size. -/
def alignStart (range : PhysicalMemoryRange) : PhysicalMemoryRange :=
  if range.startAddress % pageSize ≠ 0 then
    let toAdd := pageSize - range.startAddress % pageSize
    ⟨add64 range.startAddress toAdd, sub64 range.size toAdd⟩
  else range

/-- Align a range that is not empty to whole pages. -/
def alignRange (range : PhysicalMemoryRange) : PhysicalMemoryRange :=
  if range.size = 0 then range
  else
    let range := alignStart range
    ⟨range.startAddress, range.size - range.size % pageSize⟩

def getRamSpace (boot : BootLoaderData) : Except Stop (List PhysicalMemoryRange) := do
  let ranges ← fillRanges boot.mapItems 0
  return (bubbleSort PhysicalMemoryRange.startAddress ranges).map alignRange

/-- Remove the frames of the boot loader's frame allocator. -/
def patchBootRange (boot : BootLoaderData) (range : PhysicalMemoryRange) : PhysicalMemoryRange :=
  if boot.frameAllocMapItem.baseAddr = range.startAddress then
    ⟨boot.firstFrameAddress,
      sub64 range.size (sub64 boot.firstFrameAddress range.startAddress)⟩
  else range

/-- Remove the first megabyte. -/
def cutFirstMB (range : PhysicalMemoryRange) : PhysicalMemoryRange :=
  if range.startAddress < 1 * MB then
    if add64 range.startAddress range.size > 1 * MB then
      ⟨1 * MB, sub64 range.size (1 * MB - range.startAddress)⟩
    else ⟨range.startAddress, 0⟩
  else range

def freeMemBootloader (boot : BootLoaderData) : Except Stop (List PhysicalMemoryRange) := do
  let ranges ← fillRanges boot.mapItems 0
  let ranges := bubbleSort PhysicalMemoryRange.startAddress ranges
  return ((ranges.map (patchBootRange boot)).map cutFirstMB).map alignRange

/-- The sum of the sizes of the usable items, in 64 bits. -/
def getTotalUsableRAMSize (boot : BootLoaderData) : Nat :=
  boot.mapItems.foldl (fun total item => if item.isUsable then add64 total item.size else total) 0

/-! ## Loading the identity mapping -/

/-- The range that `setup_virtual_memory` loads for a range of RAM: without the
null page, or nothing. -/
def identityLoad (range : PhysicalMemoryRange) : Option PhysicalMemoryRange :=
  if range.size = 0 then none
  else if range.startAddress = 0 then some ⟨pageSize, sub64 range.size pageSize⟩
  else some range

def loadRam (handle : VMemHandle) : List PhysicalMemoryRange → KM Unit
  | [] => pure ()
  | range :: ranges => do
    match identityLoad range with
    | some r => loadIdentityMapPages r.startAddress r.size handle
    | none => pure ()
    loadRam handle ranges

end GarbageOS
