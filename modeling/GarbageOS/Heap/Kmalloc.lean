import GarbageOS.Kernel.State

/-!
# `kmalloc` and `kfree`

The entry points of `heap.c`, which take the heap lock. Growing the heap calls
back into the virtual memory manager, so `kmalloc` is written over the
`try_expand_vmem_top` it uses; `kmalloc` itself ties the two together later.
-/

namespace GarbageOS

open Lib

/-- How much `try_increase_wilderness_chunk` asks for: a growth step or the
request with its overhead, rounded up to whole pages. -/
def growthSize (minSizeIncrease : Nat) : Nat :=
  let minSizeIncrease := add64 minSizeIncrease (8 + 8)
  let growth := if kernelHeapGrowthStep < minSizeIncrease then minSizeIncrease else kernelHeapGrowthStep
  if growth % pageSize ≠ 0 then add64 growth (pageSize - growth % pageSize) else growth

/-- The chunk found in a bucket: taken whole if it has the requested size,
otherwise split. The result of the split is not looked at. -/
def takeChunk (found size : Nat) : HeapM Unit := do
  if getFixedHeapChunkSize (← get).mem found = size then allocChunk found
  else
    kassert (getFixedHeapChunkSize (← get).mem found ≥ heapChunkMinSize + heapChunkSplitOverhead)
    discard (splitChunkAndAlloc found size)

section

variable (tryExpandVmemTop : VMemHandle → Nat → KM Bool)

def tryIncreaseWildernessChunk (minSizeIncrease : Nat) : KM Bool := do
  let growth := growthSize minSizeIncrease
  kassert (growth % pageSize == 0)
  if (← get).sh.heap.heap.enableGrowth = false then return false
  else if ← tryExpandVmemTop (← get).sh.heap.heap.heapVmem growth then
    onHeap (expandWildernessChunk growth)
    return true
  else return false

/-- The wilderness chunk is split, after growing it once if it is too small. -/
def takeWilderness (found size : Nat) : KM Unit := do
  if ← onHeap (splitChunkAndAlloc found size) then pure ()
  else if ← tryIncreaseWildernessChunk tryExpandVmemTop size then
    if ← onHeap (splitChunkAndAlloc found size) then pure () else kpanic .heapOutOfMem
  else kpanic .heapOutOfMem

/-- Allocate `size` bytes at the start of the chunk that was found. -/
def takeFound (found size : Nat) : KM Unit := do
  if getHeapChunkFlag (← get).sh.heap.mem found heapWildernessChunk then
    takeWilderness tryExpandVmemTop found size
  else onHeap (takeChunk found size)

/-- The body of `kmalloc`, with the heap lock held. -/
def mallocChunk (size : Nat) : KM Nat := do
  let size := roundRequest size
  let found ← onHeap (findChunk size)
  takeFound tryExpandVmemTop found size
  return getHeapChunkUserData found

def kmallocWith (size : Nat) : KM Nat :=
  withLock .kheap (mallocChunk tryExpandVmemTop size)

end

def kfree (ptr : Nat) : KM Unit := withLock .kheap (onHeap (freeChunk ptr))

def isKheapInitialized : KM Bool := return (← get).sh.kheapInitialized

def enableKheapGrowth : KM Unit :=
  withLock .kheap (onHeap (modifyHeap fun h => { h with enableGrowth := true }))

end GarbageOS
