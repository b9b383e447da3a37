import GarbageOS.Heap.Code

/-!
# The state of the memory subsystem

`Shared` is what every CPU sees: the kernel heap, the frame allocator, physical
memory, the kernel `VirtualMemoryManager`, the shootdown queues and the kernel
data. `Cpu` is what belongs to the CPU that runs the code, with the ghost logs
the theorems speak about. Objects that live in heap blocks (descriptors, queue
nodes, kernel data nodes) are kept in stores indexed by their address.
-/

namespace GarbageOS

variable {l : Lock} {k k' : Kernel} {α : Type}

open Lib

structure PhysicalMemoryRange where
  startAddress : Nat
  size : Nat
  deriving DecidableEq

structure FrameStack where
  base : Nat
  /-- Points past the last element. -/
  top : Nat
  maxSizeBytes : Nat
  deriving DecidableEq

/-- `struct FrameAllocatorState`; `stackMem` holds the words of the frame stack. -/
structure FrameAllocator where
  freeRanges : Nat → PhysicalMemoryRange
  numberOfRanges : Nat
  frameStack : FrameStack
  stackMem : Mem
  cachedMemoryRangeIndex : Nat
  freeFrames : Nat

inductive VirtualMemoryType where
  | free
  | stack
  | heap
  | generalUse
  | identityMapFree
  | identityMap
  | memoryMapping
  deriving DecidableEq

structure VirtualMemoryDescriptor where
  startVaddr : Nat
  sizeBytes : Nat
  upperPadding : Nat
  lowerPadding : Nat
  type : VirtualMemoryType
  next : DescPtr
  prev : DescPtr
  isFromHeap : Bool
  deriving DecidableEq

structure VirtualMemoryManager where
  vmListHead : DescPtr
  pagingStructure : Nat
  kernelMode : Bool

structure VMMCacheShootdownRange where
  addrStart : Nat
  sizeInPages : Nat
  deriving DecidableEq

structure VMMCacheShootdownState where
  queuesToWaitCount : Nat
  emptiedQueuesCount : Nat
  deriving DecidableEq

/-- `struct CSQNode`: a range, the state to signal (NULL for none) and the next node. -/
structure CSQNode where
  range : VMMCacheShootdownRange
  state : Nat
  next : Nat
  deriving DecidableEq

structure VMMCacheShootdownQueue where
  qHead : Nat
  qTail : Nat
  nodeCount : Nat
  active : Bool
  deriving DecidableEq

structure LocalKernelData where
  kernelStack : VMemHandle
  apicId : Nat
  deriving DecidableEq

structure LocalKernelDataList where
  cpuId : Nat
  localData : LocalKernelData
  next : Nat
  deriving DecidableEq

structure KernelData where
  localDataList : Nat
  cpuidToAllocate : Nat
  nodes : Nat → LocalKernelDataList

structure Shared where
  heap : HeapState
  kheapInitialized : Bool
  frames : FrameAllocator
  halArchInitialized : Bool
  /-- Physical memory, which the kernel sees identity mapped. -/
  pmem : Mem
  vmm : VirtualMemoryManager
  descs : DescPtr → VirtualMemoryDescriptor
  nextFreeDescriptor : Nat
  /-- `cache_shootdown_sys.queue_array`; NULL until the subsystem is initialised. -/
  queueArray : Nat
  queuesCount : Nat
  queues : Nat → VMMCacheShootdownQueue
  queueNodes : Nat → CSQNode
  shootdownStates : Nat → VMMCacheShootdownState
  kernelData : KernelData
  kioInitialized : Bool
  servicingPageFault : Bool

structure Cpu where
  lapicId : Nat
  /-- The spinlocks this CPU holds. -/
  held : List Lock
  interrupts : Bool
  /-- Where the local `VMMCacheShootdownState` of a running shootdown lies: not at NULL. -/
  localState : { p : Nat // p ≠ 0 }
  /-- Ghost: the PML4 and the page of each leaf entry written, latest first. -/
  pteWrites : List (Nat × Nat)
  /-- Ghost: the ranges handed to the shootdown subsystem, latest first. -/
  handed : List VMMCacheShootdownRange
  /-- Ghost: the frames passed to `dealloc_frame`, latest first. -/
  freed : List Nat
  /-- Ghost: the addresses passed to `delete_page_translation_cache`, latest first. -/
  flushed : List Nat
  /-- Ghost: how often `delete_all_translation_cache` ran. -/
  fullFlushes : Nat

/-- The state one CPU runs in; `others` is what the other CPUs do while it waits. -/
structure Kernel where
  cpu : Cpu
  sh : Shared
  others : Shared → Shared

/-- The static data of the kernel before anything ran, on one CPU. -/
def staticKernel : Kernel where
  cpu :=
    { lapicId := 0, held := [], interrupts := false, localState := ⟨8, by decide⟩
      pteWrites := [], handed := [], freed := [], flushed := [], fullFlushes := 0 }
  sh :=
    { heap := ⟨fun _ => 0, ⟨.null, false, 0, 0, 0, 0, fun _ => 0⟩⟩
      kheapInitialized := false
      frames := ⟨fun _ => ⟨0, 0⟩, 0, ⟨0, 0, 0⟩, fun _ => 0, 0, 0⟩
      halArchInitialized := false
      pmem := fun _ => 0
      vmm := ⟨.null, 0, false⟩
      descs := fun _ => ⟨0, 0, 0, 0, .free, .null, .null, false⟩
      nextFreeDescriptor := 0
      queueArray := 0
      queuesCount := 0
      queues := fun _ => ⟨0, 0, 0, false⟩
      queueNodes := fun _ => ⟨⟨0, 0⟩, 0, 0⟩
      shootdownStates := fun _ => ⟨0, 0⟩
      kernelData := ⟨0, 0, fun _ => ⟨0, ⟨.null, 0⟩, 0⟩⟩
      kioInitialized := false
      servicingPageFault := false }
  others := id

abbrev KM := EStateM Stop Kernel

def modifyCpu (f : Cpu → Cpu) : KM Unit := modify fun k => { k with cpu := f k.cpu }

def modifyShared (f : Shared → Shared) : KM Unit := modify fun k => { k with sh := f k.sh }

def Kernel.setHeap (k : Kernel) (h : HeapState) : Kernel := { k with sh := { k.sh with heap := h } }

@[simp] theorem Kernel.setHeap_heap (k : Kernel) (h : HeapState) : (k.setHeap h).sh.heap = h := rfl

def onHeap {α : Type} (x : HeapM α) : KM α := zoom (fun k => k.sh.heap) (fun h k => k.setHeap h) x

/-! ## Spinlocks -/

/-- Take a lock, or spin if this CPU holds it. -/
def takeLock (l : Lock) : KM Unit := do
  check (decide (l ∉ (← get).cpu.held)) (.deadlock l)
  modifyCpu fun c => { c with held := l :: c.held }

def acquireSpinlock (l : Lock) : KM Unit := takeLock l

def releaseSpinlock (l : Lock) : KM Unit := modifyCpu fun c => { c with held := c.held.erase l }

/-- `ACQUIRE_SPINLOCK_HARD`: interrupts are off while the lock is held; the old
interrupt state is returned. -/
def acquireSpinlockHard (l : Lock) : KM Bool := do
  let istate := (← get).cpu.interrupts
  takeLock l
  modifyCpu fun c => { c with interrupts := false }
  return istate

/-- `restore_interrupt_state`: it can only enable. -/
def restoreInterruptState (state interrupts : Bool) : Bool := if state then true else interrupts

@[simp] theorem restoreInterruptState_off (state : Bool) :
    restoreInterruptState state false = state := by cases state <;> rfl

def releaseSpinlockHard (l : Lock) (istate : Bool) : KM Unit := do
  releaseSpinlock l
  modifyCpu fun c => { c with interrupts := restoreInterruptState istate c.interrupts }

/-- A critical section between `ACQUIRE_SPINLOCK_HARD` and `RELEASE_SPINLOCK_HARD`. -/
def withLock {α : Type} (l : Lock) (x : KM α) : KM α := do
  let istate ← acquireSpinlockHard l
  let a ← x
  releaseSpinlockHard l istate
  return a

/-- A CPU after it took a lock. -/
def Kernel.locked (l : Lock) (k : Kernel) : Kernel :=
  { k with cpu := { k.cpu with held := l :: k.cpu.held, interrupts := false } }

/-- A CPU after it gave a lock back. -/
def Kernel.unlocked (l : Lock) (istate : Bool) (k : Kernel) : Kernel :=
  { k with
    cpu := { k.cpu with
      held := k.cpu.held.erase l, interrupts := restoreInterruptState istate k.cpu.interrupts } }

theorem Kernel.relocked (k : Kernel) {l : Lock} : (k.locked l).unlocked l k.cpu.interrupts = k := by
  simp [Kernel.unlocked, Kernel.locked]

@[simp] theorem run_modifyCpu (f : Cpu → Cpu) (k : Kernel) :
    (modifyCpu f).run k = .ok () { k with cpu := f k.cpu } := by
  unfold modifyCpu; rw [EStateM.run_modify]

@[simp] theorem run_modifyCpu_bind {β : Type} (f : Cpu → Cpu) (g : Unit → KM β) (k : Kernel) :
    (modifyCpu f >>= g).run k = (g ()).run { k with cpu := f k.cpu } :=
  run_ok_bind (run_modifyCpu f k)

@[simp] theorem run_modifyShared (f : Shared → Shared) (k : Kernel) :
    (modifyShared f).run k = .ok () { k with sh := f k.sh } := by
  unfold modifyShared; rw [EStateM.run_modify]

@[simp] theorem run_modifyShared_bind {β : Type} (f : Shared → Shared) (g : Unit → KM β)
    (k : Kernel) : (modifyShared f >>= g).run k = (g ()).run { k with sh := f k.sh } :=
  run_ok_bind (run_modifyShared f k)

theorem run_takeLock_ok {u : Unit} :
    (takeLock l).run k = .ok u k' ↔ l ∉ k.cpu.held ∧
      k' = { k with cpu := { k.cpu with held := l :: k.cpu.held } } := by
  unfold takeLock
  rw [run_get_bind, run_bind_ok]
  constructor
  · rintro ⟨_, t, hc, hm⟩
    obtain ⟨hfree, rfl⟩ := run_check_ok.1 hc
    rw [run_modifyCpu] at hm
    cases hm
    exact ⟨of_decide_eq_true hfree, rfl⟩
  · rintro ⟨hl, rfl⟩
    exact ⟨(), _, run_check_true (decide_eq_true hl), run_modifyCpu _ _⟩

theorem run_acquireSpinlockHard_ok {i : Bool} :
    (acquireSpinlockHard l).run k = .ok i k' ↔
      l ∉ k.cpu.held ∧ i = k.cpu.interrupts ∧ k' = k.locked l := by
  unfold acquireSpinlockHard
  rw [run_get_bind, run_bind_ok]
  constructor
  · rintro ⟨_, t, ht, hm⟩
    obtain ⟨hl, rfl⟩ := run_takeLock_ok.1 ht
    rw [run_modifyCpu_bind, EStateM.run_pure] at hm
    cases hm
    exact ⟨hl, rfl, rfl⟩
  · rintro ⟨hl, rfl, rfl⟩
    refine ⟨(), _, run_takeLock_ok.2 ⟨hl, rfl⟩, ?_⟩
    rw [run_modifyCpu_bind, EStateM.run_pure]
    rfl

theorem run_releaseSpinlockHard {i : Bool} :
    (releaseSpinlockHard l i).run k = .ok () (k.unlocked l i) := by
  unfold releaseSpinlockHard releaseSpinlock
  rw [run_modifyCpu_bind, run_modifyCpu]
  rfl

/-- A critical section returns when its body does, on a CPU that did not hold the lock. -/
theorem run_withLock_ok {x : KM α} {a : α} :
    (withLock l x).run k = .ok a k' ↔
      l ∉ k.cpu.held ∧ ∃ t, x.run (k.locked l) = .ok a t ∧
        k' = t.unlocked l k.cpu.interrupts := by
  unfold withLock
  rw [run_bind_ok]
  constructor
  · rintro ⟨i, t, ht, hx⟩
    obtain ⟨hl, rfl, rfl⟩ := run_acquireSpinlockHard_ok.1 ht
    obtain ⟨b, t, hb, hr⟩ := run_bind_ok.1 hx
    rw [run_ok_bind run_releaseSpinlockHard, EStateM.run_pure] at hr
    cases hr
    exact ⟨hl, t, hb, rfl⟩
  · rintro ⟨hl, t, hx, rfl⟩
    refine ⟨_, _, run_acquireSpinlockHard_ok.2 ⟨hl, rfl, rfl⟩, run_bind_ok.2 ⟨a, t, hx, ?_⟩⟩
    rw [run_ok_bind run_releaseSpinlockHard, EStateM.run_pure]

/-- A critical section whose body stops is never left. -/
theorem run_withLock_of_error {x : KM α} {e : Stop} {t : Kernel} (hl : l ∉ k.cpu.held)
    (h : x.run (k.locked l) = .error e t) : (withLock l x).run k = .error e t := by
  unfold withLock
  rw [run_ok_bind (run_acquireSpinlockHard_ok.2 ⟨hl, rfl, rfl⟩), run_bind_of_error h]

/-- A CPU that holds the lock spins forever. -/
theorem run_withLock_of_held {x : KM α} (hl : l ∈ k.cpu.held) :
    ∃ t, (withLock l x).run k = .error (.deadlock l) t := by
  unfold withLock acquireSpinlockHard takeLock
  simp only [bind_assoc]
  rw [run_get_bind, run_get_bind]
  exact ⟨_, run_bind_of_error (run_check_false (decide_eq_false (not_not_intro hl)))⟩

theorem run_onHeap_ok {x : HeapM α} {a : α} :
    (onHeap x).run k = .ok a k' ↔
      ∃ h, x.run k.sh.heap = .ok a h ∧ k' = k.setHeap h :=
  run_zoom_ok

end GarbageOS
