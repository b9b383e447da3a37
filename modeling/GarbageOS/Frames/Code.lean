import GarbageOS.Kernel.State

/-!
# `frame_allocator.c`

Freed frames are kept on a stack in physical memory; the other free frames are
what is left of the ranges the boot loader reported. Before
`is_hal_arch_initialized` only memory that the boot loader identity mapped is
handed out from the ranges.
-/

namespace GarbageOS

open Lib

abbrev FrameM := EStateM Stop FrameAllocator

def getBootstageIndentityMappedRAM : PhysicalMemoryRange := ⟨0, 1 * GB⟩

def isFrameStackValid (stack : FrameStack) : Bool :=
  stack.maxSizeBytes != 0 && stack.base != 0 && stack.top != 0 && stack.top ≥ stack.base

def frameStackSizeBytes (stack : FrameStack) : Nat := sub64 stack.top stack.base

def frameStackCount (stack : FrameStack) : Nat := frameStackSizeBytes stack / 8

def makeFrameStack (addr size : Nat) : FrameStack := ⟨addr, addr, size⟩

def setStackTop (top : Nat) (f : FrameAllocator) : FrameAllocator :=
  { f with frameStack := ⟨f.frameStack.base, top, f.frameStack.maxSizeBytes⟩ }

section

variable (top : Nat) (f : FrameAllocator)

include top f

@[simp] theorem setStackTop_stackMem :
    (setStackTop top f).stackMem = f.stackMem := rfl

@[simp] theorem setStackTop_base :
    (setStackTop top f).frameStack.base = f.frameStack.base := rfl

@[simp] theorem setStackTop_maxSizeBytes :
    (setStackTop top f).frameStack.maxSizeBytes = f.frameStack.maxSizeBytes := rfl

@[simp] theorem setStackTop_freeFrames :
    (setStackTop top f).freeFrames = f.freeFrames := rfl

@[simp] theorem setStackTop_top :
    (setStackTop top f).frameStack.top = top := rfl

end

def frameStackPop : FrameM Nat := do
  check (frameStackCount (← get).frameStack > 0) (.panic .frameAllocatorError)
  modify fun f => setStackTop (sub64 f.frameStack.top 8) f
  return load (← get).stackMem (← get).frameStack.top

def frameStackPush (newValue : Nat) : FrameM Unit := do
  let stack := (← get).frameStack
  check (add64 (frameStackSizeBytes stack) 8 ≤ stack.maxSizeBytes) (.panic .frameAllocatorError)
  modify fun f => { f with stackMem := store f.stackMem stack.top newValue }
  modify fun f => setStackTop (add64 f.frameStack.top 8) f

/-- The first `bytes` bytes of the range are identity mapped by the boot loader. -/
def isUsableInBootstage (range : PhysicalMemoryRange) (bytes : Nat) : Bool :=
  let bootstage := getBootstageIndentityMappedRAM
  add64 range.startAddress bytes < bootstage.startAddress + bootstage.size &&
    range.startAddress ≥ bootstage.startAddress

/-- The first of the ranges `i, i + 1, ..., i + count - 1` that passes a test. -/
def findRange (ranges : Nat → PhysicalMemoryRange) (test : PhysicalMemoryRange → Bool) :
    (count : Nat) → (i : Nat) → Option Nat
  | 0, _ => none
  | count + 1, i => if test (ranges i) then some i else findRange ranges test count (i + 1)

def setFreeRange (i : Nat) (range : PhysicalMemoryRange) (f : FrameAllocator) : FrameAllocator :=
  { f with freeRanges := fun j => if j = i then range else f.freeRanges j }

def takeFrame (i : Nat) : FrameM Nat := do
  let range := (← get).freeRanges i
  modify (setFreeRange i ⟨add64 range.startAddress pageSize, sub64 range.size pageSize⟩)
  return range.startAddress

/-- Search for a new range, make it the cached one and take its first frame. -/
def takeFrameFromNewRange (test : PhysicalMemoryRange → Bool) : FrameM Nat := do
  match findRange (← get).freeRanges test (← get).numberOfRanges 0 with
  | some i =>
    modify fun f => { f with cachedMemoryRangeIndex := i }
    takeFrame i
  | none => kpanic .frameAllocatorError

def isLargeEnough (range : PhysicalMemoryRange) : Bool := range.size ≥ pageSize

/-- `alloc_frame` with the lock held. -/
def takeFreeFrame (halArchInitialized : Bool) : FrameM Nat := do
  check (isFrameStackValid (← get).frameStack) (.panic .frameAllocatorError)
  modify fun f => { f with freeFrames := sub64 f.freeFrames 1 }
  let index := (← get).cachedMemoryRangeIndex
  let cached := (← get).freeRanges index
  if frameStackCount (← get).frameStack > 0 then frameStackPop
  else if halArchInitialized then
    if isLargeEnough cached then takeFrame index
    else takeFrameFromNewRange isLargeEnough
  else if isLargeEnough cached && isUsableInBootstage cached pageSize then takeFrame index
  else takeFrameFromNewRange fun range => isLargeEnough range && isUsableInBootstage range pageSize

/-- `dealloc_frame` with the lock held. -/
def putFreeFrame (paddr : Nat) : FrameM Unit := do
  modify fun f => { f with freeFrames := add64 f.freeFrames 1 }
  frameStackPush paddr

/-- The bytes reserved for the frame stack: a word for every frame of the
usable RAM, an extra page, rounded up (by a whole page if already rounded). -/
def neededBytesStackFrame (usableRamSize : Nat) : Nat :=
  let needed := add64 (usableRamSize / pageSize * 8) pageSize
  add64 needed (pageSize - needed % pageSize)

/-- `init_frame_allocator`, given what `free_mem_bootloader` and
`get_total_usable_RAM_size` return. -/
def initFrameAllocator (freeRanges : Nat → PhysicalMemoryRange) (numberOfRanges usableRamSize : Nat) :
    FrameM Unit := do
  modify fun f => { f with freeRanges := freeRanges, numberOfRanges := numberOfRanges }
  let needed := neededBytesStackFrame usableRamSize
  match findRange freeRanges (fun r => r.size ≥ needed && isUsableInBootstage r needed)
      numberOfRanges 0 with
  | some i =>
    let range := freeRanges i
    modify fun f =>
      { f with
        cachedMemoryRangeIndex := i
        frameStack := makeFrameStack range.startAddress needed }
    modify (setFreeRange i ⟨add64 range.startAddress needed, sub64 range.size needed⟩)
    modify fun f =>
      { f with
        freeFrames := (List.range numberOfRanges).foldl
          (fun n i => add64 n ((f.freeRanges i).size / pageSize)) f.freeFrames }
  | none => kpanic .frameAllocatorError

/-! ## Entry points -/

def onFrames {α : Type} (x : FrameM α) : KM α :=
  zoom (fun k => k.sh.frames) (fun f k => { k with sh := { k.sh with frames := f } }) x

def allocFrame : KM Nat := do
  let frame ← withLock .frameAllocator do
    onFrames (takeFreeFrame (← get).sh.halArchInitialized)
  check (frame != 0) (.panic .frameAllocatorError)
  return frame

def deallocFrame (paddr : Nat) : KM Unit := do
  modifyCpu fun c => { c with freed := paddr :: c.freed }
  withLock .frameAllocator (onFrames (putFreeFrame paddr))

end GarbageOS
