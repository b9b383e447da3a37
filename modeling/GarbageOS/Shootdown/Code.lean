import GarbageOS.Heap.Kmalloc
import GarbageOS.Paging.Code

/-!
# `vaddr_cache_shootdown.c` and `kernel_data.c`

A shootdown pushes a range to the queue of every other active CPU and sends an
interrupt; the handler of each CPU empties its queue and signals the states it
finds there, which the sender waits for. The queue of a CPU is found through the
kernel data list. Queue nodes come from `kmalloc`, a parameter here.
-/

namespace GarbageOS

open Lib

/-! ## Kernel data -/

/-- Walk the kernel data list to the first node that passes a test, or to NULL. -/
def findLocalData (d : KernelData) (test : LocalKernelDataList → Bool) :
    (steps : Nat) → (itr : Nat) → KM Nat
  | 0, _ => throw .loops
  | steps + 1, itr =>
    if itr = 0 ∨ test (d.nodes itr) then return itr
    else findLocalData d test steps (d.nodes itr).next

/-- The node a `kernel_data.c` lookup stops at; `KASSERT`s that there is one. -/
def getLocalDataNode (test : LocalKernelDataList → Bool) : KM LocalKernelDataList := do
  let d := (← get).sh.kernelData
  let itr ← findLocalData d test (2 ^ 64) d.localDataList
  kassert (itr != 0)
  return d.nodes itr

def getCpuIdFromApicId (apicId : Nat) : KM Nat :=
  withLock .kernelData do
    return (← getLocalDataNode fun n => n.localData.apicId == apicId).cpuId

def getLocalKernelData (cpuId : Nat) : KM LocalKernelData :=
  withLock .kernelData do
    return (← getLocalDataNode fun n => n.cpuId == cpuId).localData

def modifyKernelData (f : KernelData → KernelData) : KM Unit :=
  modifyShared fun s => { s with kernelData := f s.kernelData }

def setLocalDataNode (addr : Nat) (f : LocalKernelDataList → LocalKernelDataList) : KM Unit :=
  modifyKernelData fun d =>
    { d with nodes := fun a => if a = addr then f (d.nodes a) else d.nodes a }

def setLocalKernelData (cpuId : Nat) (data : LocalKernelData) : KM Unit :=
  withLock .kernelData do
    let d := (← get).sh.kernelData
    let itr ← findLocalData d (fun n => n.cpuId == cpuId) (2 ^ 64) d.localDataList
    kassert (itr != 0)
    setLocalDataNode itr fun n => { n with localData := data }

/-! ## Queues -/

def isVmmcacheShootdownRangeNull (range : VMMCacheShootdownRange) : Bool :=
  range.addrStart == 0 && range.sizeInPages == 0

def getLogicalCoreVmmcacheShootdownQueueIndex : KM Nat := do
  kassert ((← get).sh.queueArray != 0)
  let index ← getCpuIdFromApicId (← get).cpu.lapicId
  kassert (index < (← get).sh.queuesCount)
  return index

def unsyncIsShootdownQEmpty (q : VMMCacheShootdownQueue) : Bool := q.qHead == 0 && q.qTail == 0

def modifyQueue (i : Nat) (f : VMMCacheShootdownQueue → VMMCacheShootdownQueue) : KM Unit :=
  modifyShared fun s => { s with queues := fun j => if j = i then f (s.queues j) else s.queues j }

def modifyNode (addr : Nat) (f : CSQNode → CSQNode) : KM Unit :=
  modifyShared fun s =>
    { s with queueNodes := fun a => if a = addr then f (s.queueNodes a) else s.queueNodes a }

def isShootdownQEmpty (i : Nat) : KM Bool :=
  withLock (.queue i) do return unsyncIsShootdownQEmpty ((← get).sh.queues i)

def isShootdownQActive (i : Nat) : KM Bool :=
  withLock (.queue i) do return ((← get).sh.queues i).active

def destroyCSQNode (node : Nat) : KM Unit := kfree node

/-- Unlink the head of a queue that is not empty and free its node. -/
def removeHead (i : Nat) (q : VMMCacheShootdownQueue) (next : Nat) : KM Unit :=
  if q.qHead = q.qTail then do
    destroyCSQNode q.qHead
    modifyQueue i fun q => { q with qHead := 0, qTail := 0 }
  else do
    modifyQueue i fun q => { q with qHead := next }
    destroyCSQNode q.qHead

def popFromShootdownQ (i : Nat) : KM (VMMCacheShootdownRange × Nat) :=
  withLock (.queue i) do
    let q := (← get).sh.queues i
    kassert (!unsyncIsShootdownQEmpty q)
    check (q.qHead != 0) .nullAccess
    let node := (← get).sh.queueNodes q.qHead
    removeHead i q node.next
    modifyQueue i fun q => { q with nodeCount := sub64 q.nodeCount 1 }
    return (node.range, node.state)

def deletePageTranslationCache (vaddr : Nat) : KM Unit :=
  modifyCpu fun c => { c with flushed := vaddr :: c.flushed }

/-- The address of page `i` of a range. -/
def shootdownPage (range : VMMCacheShootdownRange) (i : Nat) : Nat :=
  add64 (range.addrStart - range.addrStart % pageSize) (i * pageSize)

def deleteVmmcacheRange (range : VMMCacheShootdownRange) : KM Unit :=
  forRange (fun i => deletePageTranslationCache (shootdownPage range i)) range.sizeInPages 0

def vmmcacheShootdownStateSignalQueueEmpty (state : Nat) : KM Unit :=
  modifyShared fun s =>
    { s with
      shootdownStates := fun p =>
        if p = state then
          { s.shootdownStates p with
            emptiedQueuesCount := ((s.shootdownStates p).emptiedQueuesCount + 1) % 2 ^ 32 }
        else s.shootdownStates p }

/-- What the handler does with an element it took: the range is deleted from the
translation cache if it is the null range, and the state is signalled. -/
def processShootdown (range : VMMCacheShootdownRange) (state : Nat) : KM Unit := do
  onlyIf (isVmmcacheShootdownRangeNull range = true) (deleteVmmcacheRange range)
  onlyIf (state ≠ 0) (vmmcacheShootdownStateSignalQueueEmpty state)

/-- The loop of `cache_shootdown_interrupt_handler`. -/
def emptyShootdownQ (i : Nat) : (steps : Nat) → KM Unit
  | 0 => throw .loops
  | steps + 1 => do
    if ← isShootdownQEmpty i then pure ()
    else
      let (range, state) ← popFromShootdownQ i
      processShootdown range state
      emptyShootdownQ i steps

def cacheShootdownInterruptHandler : KM Unit := do
  let i ← getLogicalCoreVmmcacheShootdownQueueIndex
  emptyShootdownQ i (2 ^ 64)

def deleteAllTranslationCache : KM Unit :=
  modifyCpu fun c => { c with fullFlushes := c.fullFlushes + 1 }

/-- The whole cache is deleted after the queue was marked: shootdowns from before may
have been lost. -/
def activateThisCpuVmmcacheShootdown : KM Unit := do
  let i ← getLogicalCoreVmmcacheShootdownQueueIndex
  withLock (.queue i) (modifyQueue i fun q => { q with active := true })
  deleteAllTranslationCache

def isVmmcacheShootdownSubsystemInitialized : KM Bool := return (← get).sh.queueArray != 0

/-! ## Waiting for the other CPUs -/

/-- How many queues other than `self` are active. -/
def activeQueuesCount (s : Shared) (self : Nat) : Nat :=
  ((List.range s.queuesCount).filter fun i => i != self && (s.queues i).active).length

def initVmmcacheShootdownState (state : Nat) : KM Unit := do
  kassert ((← get).sh.queueArray != 0)
  let self ← getLogicalCoreVmmcacheShootdownQueueIndex
  modifyShared fun s =>
    { s with
      shootdownStates := fun p =>
        if p = state then ⟨activeQueuesCount s self % 2 ^ 32, 0⟩ else s.shootdownStates p }

/-- What this CPU finds after the other CPUs ran: everything may have changed but
what its own locks protect. -/
def Shared.afterOthers (old new : Shared) (held : List Lock) : Shared :=
  { new with
    heap := if .kheap ∈ held then old.heap else new.heap
    vmm := if .vmm ∈ held then old.vmm else new.vmm
    descs := if .vmm ∈ held then old.descs else new.descs
    frames := if .frameAllocator ∈ held then old.frames else new.frames
    kernelData := if .kernelData ∈ held then old.kernelData else new.kernelData }

def isShootdownCompleted (s : Shared) (state : Nat) : Bool :=
  (s.shootdownStates state).emptiedQueuesCount ≥ (s.shootdownStates state).queuesToWaitCount

/-- Spin until the other CPUs have signalled; if they never do, the loop does not end. -/
def waitForVmmcacheShootdownCompletition (state : Nat) : KM Unit := do
  if isShootdownCompleted (← get).sh state then pure ()
  else
    modify fun k => { k with sh := k.sh.afterOthers (k.others k.sh) k.cpu.held }
    check (isShootdownCompleted (← get).sh state) .loops

/-! ## Sending -/

section

variable (kmalloc : Nat → KM Nat)

def createCSQNode (range : VMMCacheShootdownRange) (state : Nat) : KM Nat := do
  let node ← kmalloc 32
  modifyNode node fun _ => ⟨range, state, 0⟩
  return node

def insertHead (i : Nat) (range : VMMCacheShootdownRange) (state : Nat) : KM Unit := do
  let q := (← get).sh.queues i
  let node ← createCSQNode kmalloc range state
  if unsyncIsShootdownQEmpty q then modifyQueue i fun q => { q with qHead := node, qTail := node }
  else
    modifyQueue i fun q => { q with qHead := node }
    modifyNode node fun n => { n with next := q.qHead }

def pushToShootdownQ (i : Nat) (range : VMMCacheShootdownRange) (state : Nat) : KM Unit :=
  withLock (.queue i) do
    insertHead kmalloc i range state
    modifyQueue i fun q => { q with nodeCount := add64 q.nodeCount 1 }

/-- The body of the loop of `_enqueue_vmmcache_shootdown_range`. -/
def enqueueTo (self : Nat) (range : VMMCacheShootdownRange) (state i : Nat) : KM Unit := do
  if (← isShootdownQActive i) && i != self then pushToShootdownQ kmalloc i range state
  else pure ()

def enqueueVmmcacheShootdownRange (range : VMMCacheShootdownRange) (state : Nat) : KM Unit := do
  kassert ((← get).sh.queueArray != 0)
  let self ← getLogicalCoreVmmcacheShootdownQueueIndex
  forRange (enqueueTo kmalloc self range state) (← get).sh.queuesCount 0

/-- `vmmcache_shootdown` with a state; the interrupt it sends makes the other
CPUs run `cache_shootdown_interrupt_handler`. -/
def vmmcacheShootdown (range : VMMCacheShootdownRange) (state : Nat) : KM Unit := do
  modifyCpu fun c => { c with handed := range :: c.handed }
  onlyIf (state ≠ 0) (initVmmcacheShootdownState state)
  enqueueVmmcacheShootdownRange kmalloc range state

/-- Hand a range to the shootdown subsystem, if it is initialised, and wait. -/
def shootdownRange (range : VMMCacheShootdownRange) : KM Unit := do
  if ← isVmmcacheShootdownSubsystemInitialized then
    let state := (← get).cpu.localState.val
    vmmcacheShootdown kmalloc range state
    waitForVmmcacheShootdownCompletition state
  else pure ()

end

end GarbageOS
