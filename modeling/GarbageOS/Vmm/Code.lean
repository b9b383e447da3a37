import GarbageOS.Shootdown.Code
import Mathlib.Logic.Function.Basic

/-!
# `vmm.c`: the kernel virtual memory manager

The address space is a doubly linked list of descriptors, each free or in use,
with unmapped padding at both ends of the used ones. There is one kernel
`VirtualMemoryManager`. The heap grows through `try_expand_vmem_top`, so that
function is written over the `kmalloc` that its shootdown uses, and `kmalloc`
is tied to it before the other operations.
-/

namespace GarbageOS

open Lib

def kernelVmemStart : Nat := 0xffff800000000000
def identityMapVmemEnd : Nat := 512 * GB
def userVmemStart : Nat := identityMapVmemEnd
def userVmemEnd : Nat := kernelVmemStart
def lastVaddr : Nat := 0xffffffffffffffff
def earlyAllocationSize : Nat := 64
def memoryMapPadding : Nat := pageSize * 4
def copyFlagsOnMmapCopy : Nat := 0
def kernelStackExpansionStep : Nat := 64 * KB
def minimumStackPadding : Nat := pageSize
def pageFaultAdditionalPageLoad : Nat := 16

def isKernelVirtualMemory (vaddr : Nat) : Bool := !(vaddr ≥ userVmemStart && vaddr < userVmemEnd)

def isVmemhandleInvalid (h : VMemHandle) : Bool := h == .null

/-! ## Descriptors -/

def readDesc (p : DescPtr) : KM VirtualMemoryDescriptor := do
  check (p != .null) .nullAccess
  return (← get).sh.descs p

def modifyDesc (p : DescPtr) (f : VirtualMemoryDescriptor → VirtualMemoryDescriptor) : KM Unit := do
  check (p != .null) .nullAccess
  modifyShared fun s => { s with descs := Function.update s.descs p (f (s.descs p)) }

def getNoPaddingSize (d : VirtualMemoryDescriptor) : Nat :=
  sub64 (sub64 d.sizeBytes d.upperPadding) d.lowerPadding

def getNoPaddingStartAddr (d : VirtualMemoryDescriptor) : Nat := add64 d.startVaddr d.lowerPadding

def VirtualMemoryDescriptor.endVaddr (d : VirtualMemoryDescriptor) : Nat :=
  add64 d.startVaddr d.sizeBytes

/-- The types `try_expand_vmem_top` and `try_expand_vmem_bottom` accept, whose
frames belong to the region. -/
def VirtualMemoryType.isBacked (t : VirtualMemoryType) : Bool :=
  t == .heap || t == .stack || t == .generalUse

def getVmemSize (handle : VMemHandle) : KM Nat := return getNoPaddingSize (← readDesc handle)

def getVmemAddr (handle : VMemHandle) : KM Nat := return getNoPaddingStartAddr (← readDesc handle)

def getVmemType (handle : VMemHandle) : KM VirtualMemoryType := return (← readDesc handle).type

/-- Map a fresh writable frame at `vaddr`. -/
def mapNewFrame (vaddr : Nat) : KM Unit := do
  let frame ← allocFrame
  pagingMap (← get).sh.vmm.pagingStructure vaddr frame (pagePresent ||| pageWritable)

def roundUpToPage (size : Nat) : Nat :=
  if size % pageSize ≠ 0 then add64 size (pageSize - size % pageSize) else size

/-! ## Expanding a region into its padding -/

inductive Side where
  | top
  | bottom
  deriving DecidableEq

def Side.padding : Side → VirtualMemoryDescriptor → Nat
  | .top, d => d.upperPadding
  | .bottom, d => d.lowerPadding

def Side.shrinkPadding : Side → Nat → VirtualMemoryDescriptor → VirtualMemoryDescriptor
  | .top, size, d => { d with upperPadding := sub64 d.upperPadding size }
  | .bottom, size, d => { d with lowerPadding := sub64 d.lowerPadding size }

def Side.firstPage : Side → VirtualMemoryDescriptor → Nat → Nat
  | .top, d, _ => add64 (getNoPaddingStartAddr d) (getNoPaddingSize d)
  | .bottom, d, size => sub64 (getNoPaddingStartAddr d) size

/-- What the loop asserts of each new page. -/
def Side.isInside : Side → VirtualMemoryDescriptor → Nat → Bool
  | .top, d, vaddr => vaddr < d.endVaddr
  | .bottom, d, vaddr => vaddr ≥ d.startVaddr

section

variable (kmalloc : Nat → KM Nat)

def shootdown (vaddrStart sizeBytes : Nat) : KM Unit := do
  kassert (sizeBytes % pageSize == 0)
  shootdownRange kmalloc ⟨vaddrStart, sizeBytes / pageSize⟩

def releaseIf (useSpinlock : Bool) (istate : Bool) : KM Unit :=
  onlyIf (useSpinlock = true) (releaseSpinlockHard .vmm istate)

def acquireIf (useSpinlock : Bool) : KM Bool :=
  if useSpinlock then acquireSpinlockHard .vmm else return false

def tryExpandWith (side : Side) (handle : VMemHandle) (size : Nat) (useSpinlock : Bool) :
    KM Bool := do
  let size := roundUpToPage size
  let istate ← acquireIf useSpinlock
  let d ← readDesc handle
  let notExpandable := !d.type.isBacked || size > side.padding d
  let vaddr := side.firstPage d size
  if notExpandable then return false
  else
    modifyDesc handle (side.shrinkPadding size)
    releaseIf useSpinlock istate
    forPages size fun i => do
      kassert (side.isInside d (add64 vaddr (i * pageSize)))
      mapNewFrame (add64 vaddr (i * pageSize))
    shootdown kmalloc (add64 vaddr (pageCount size * pageSize)) size
    return true

def tryExpandVmemTopWith (handle : VMemHandle) (size : Nat) (useSpinlock : Bool) : KM Bool :=
  tryExpandWith kmalloc .top handle size useSpinlock

def tryExpandVmemBottomWith (handle : VMemHandle) (size : Nat) (useSpinlock : Bool) : KM Bool :=
  tryExpandWith kmalloc .bottom handle size useSpinlock

end

/-! ## `kmalloc` and the virtual memory manager call each other -/

/-- `kmalloc` with at most `depth` nested calls. -/
def kmallocAt : (depth : Nat) → Nat → KM Nat
  | 0, _ => throw .loops
  | depth + 1, size =>
    kmallocWith (fun handle growth => tryExpandVmemTopWith (kmallocAt depth) handle growth true) size

/-- Growing the heap may call `kmalloc` again, but only with the heap lock held:
the inner call never gets past that lock, so two levels are all there are. -/
def kmalloc (size : Nat) : KM Nat := kmallocAt 2 size

def tryExpandVmemTop (handle : VMemHandle) (size : Nat) : KM Bool :=
  tryExpandVmemTopWith kmalloc handle size true

def tryExpandVmemBottom (handle : VMemHandle) (size : Nat) : KM Bool :=
  tryExpandVmemBottomWith kmalloc handle size true

/-! ## Allocating and cutting descriptors -/

/-- A descriptor from the heap or, before there is one, from the static array. -/
def allocateVmemDescriptor : KM DescPtr := do
  if ← isKheapInitialized then
    let p := DescPtr.heap (← kmalloc 64)
    modifyDesc p fun d => { d with isFromHeap := true, lowerPadding := 0, upperPadding := 0 }
    return p
  else
    let i := (← get).sh.nextFreeDescriptor
    check (i < earlyAllocationSize) (.panic .vmmError)
    modifyShared fun s => { s with nextFreeDescriptor := i + 1 }
    modifyDesc (.early i) fun d => { d with isFromHeap := false, lowerPadding := 0, upperPadding := 0 }
    return .early i

def deallocateVmmDescriptor (p : DescPtr) : KM Unit := do
  if (← readDesc p).isFromHeap then
    match p with
    | .heap a => kfree a
    | _ => throw .nullAccess
  else pure ()

def initializeKernelVMM (pagingStructure : Nat) : KM Unit := do
  let first ← allocateVmemDescriptor
  let second ← allocateVmemDescriptor
  let firstSize := sub64 identityMapVmemEnd pageSize
  modifyDesc first fun d =>
    { d with
      startVaddr := pageSize, sizeBytes := firstSize - firstSize % pageSize
      type := .identityMapFree, prev := .null, next := second }
  let secondSize := sub64 lastVaddr (add64 kernelVmemStart 1)
  modifyDesc second fun d =>
    { d with
      startVaddr := kernelVmemStart, sizeBytes := secondSize - secondSize % pageSize
      type := .free, prev := first, next := .null }
  modifyShared fun s => { s with vmm := ⟨first, pagingStructure, true⟩ }

/-- The walk of `update_head` to the descriptor without a predecessor. -/
def updateHeadFrom : (steps : Nat) → KM Unit
  | 0 => throw .loops
  | steps + 1 => do
    let head ← readDesc (← get).sh.vmm.vmListHead
    if head.prev = .null then pure ()
    else
      modifyShared fun s => { s with vmm := { s.vmm with vmListHead := head.prev } }
      updateHeadFrom steps

def updateHead : KM Unit := updateHeadFrom (2 ^ 64)

def isFreeType (t : VirtualMemoryType) : Bool := t == .free || t == .identityMapFree

/-- `if(p != NULL) *p = ...`. -/
def modifyDescIf (p : DescPtr) (f : VirtualMemoryDescriptor → VirtualMemoryDescriptor) : KM Unit :=
  onlyIf (p ≠ .null) (modifyDesc p f)

/-- Link `old_prev -> descriptor -> new_descriptor -> old_next`. -/
def linkAfter (oldPrev descriptor newDescriptor oldNext : DescPtr) : KM Unit := do
  modifyDescIf oldPrev fun d => { d with next := descriptor }
  modifyDesc descriptor fun d => { d with prev := oldPrev, next := newDescriptor }
  modifyDesc newDescriptor fun d => { d with next := oldNext, prev := descriptor }
  modifyDescIf oldNext fun d => { d with prev := newDescriptor }
  kassert ((← readDesc descriptor).endVaddr == (← readDesc newDescriptor).startVaddr)
  updateHead

/-- Cut `size` bytes off the start of a free descriptor, which becomes the cut. -/
def cutDescriptorStart (descriptor : DescPtr) (size : Nat) : KM DescPtr := do
  let d ← readDesc descriptor
  kassert (isFreeType d.type)
  kassert (d.sizeBytes ≥ size)
  kassert (d.sizeBytes % pageSize == 0)
  kassert (size % pageSize == 0)
  if d.sizeBytes = size then return descriptor
  else
    let new ← allocateVmemDescriptor
    let newSize := sub64 (← readDesc descriptor).sizeBytes size
    modifyDesc descriptor fun d => { d with sizeBytes := size }
    let cut ← readDesc descriptor
    modifyDesc new fun n =>
      { n with sizeBytes := newSize, type := cut.type, startVaddr := cut.endVaddr }
    linkAfter d.prev descriptor new d.next
    return descriptor

/-- Cut the last `size` bytes off a free descriptor; the cut is a new descriptor. -/
def cutDescriptorEnd (descriptor : DescPtr) (start size : Nat) : KM DescPtr := do
  let d ← readDesc descriptor
  let new ← allocateVmemDescriptor
  modifyDesc descriptor fun d => { d with sizeBytes := sub64 d.sizeBytes size }
  let rest ← readDesc descriptor
  modifyDesc new fun n =>
    { n with sizeBytes := size, startVaddr := rest.endVaddr, type := rest.type }
  kassert ((← readDesc new).startVaddr == start)
  linkAfter d.prev descriptor new d.next
  return new

/-- Cut the middle out of a free descriptor, which becomes the cut between two
new descriptors. -/
def cutDescriptorMiddle (descriptor : DescPtr) (start size : Nat) : KM DescPtr := do
  let d ← readDesc descriptor
  kassert (start > d.startVaddr)
  let prev ← allocateVmemDescriptor
  let next ← allocateVmemDescriptor
  modifyDesc prev fun n => { n with type := d.type }
  modifyDesc next fun n => { n with type := d.type }
  modifyDescIf d.prev fun n => { n with next := prev }
  modifyDesc prev fun n => { n with prev := d.prev, next := descriptor }
  modifyDesc descriptor fun n => { n with prev := prev, next := next }
  modifyDesc next fun n => { n with prev := descriptor, next := d.next }
  modifyDescIf d.next fun n => { n with prev := next }
  modifyDesc prev fun n =>
    { n with startVaddr := d.startVaddr, sizeBytes := sub64 start d.startVaddr }
  kassert ((← readDesc prev).endVaddr == start)
  modifyDesc descriptor fun n => { n with startVaddr := start, sizeBytes := size }
  modifyDesc next fun n =>
    { n with
      startVaddr := add64 start size
      sizeBytes := sub64 (add64 d.startVaddr d.sizeBytes) (add64 start size) }
  kassert (d.endVaddr == (← readDesc next).endVaddr)
  updateHead
  return descriptor

def cutDescriptor (descriptor : DescPtr) (start size : Nat) : KM DescPtr := do
  let d ← readDesc descriptor
  kassert (isFreeType d.type)
  kassert (d.sizeBytes % pageSize == 0)
  kassert (size % pageSize == 0)
  if d.startVaddr = start ∧ d.sizeBytes = size then return descriptor
  else if d.startVaddr = start then cutDescriptorStart descriptor size
  else if d.endVaddr = add64 start size then cutDescriptorEnd descriptor start size
  else cutDescriptorMiddle descriptor start size

/-! ## Operations -/

/-- Walk the list to the first descriptor that passes a test, or to the last one. -/
def findDescriptor (test : VirtualMemoryDescriptor → Bool) : (steps : Nat) → DescPtr → KM DescPtr
  | 0, _ => throw .loops
  | steps + 1, p => do
    let d ← readDesc p
    if d.next = .null ∨ test d then return p else findDescriptor test steps d.next

def findFromHead (test : VirtualMemoryDescriptor → Bool) : KM DescPtr := do
  findDescriptor test (2 ^ 64) (← get).sh.vmm.vmListHead

/-- Where `identity_map` and the copy operation look: the first descriptor that ends above `addr`. -/
def endsAbove (addr : Nat) (d : VirtualMemoryDescriptor) : Bool := addr < d.endVaddr

/-- What they check then: the descriptor contains the requested range. -/
def containsRange (d : VirtualMemoryDescriptor) (addr size : Nat) : Bool :=
  !(addr < d.startVaddr || add64 addr size > d.endVaddr)

def identityMap (paddr size : Nat) : KM VMemHandle := do
  kassert (paddr != 0)
  kassert (size % pageSize == 0)
  kassert (paddr % pageSize == 0)
  withLock .vmm do
    kassert (← get).sh.vmm.kernelMode
    let p ← findFromHead (endsAbove paddr)
    let d ← readDesc p
    if !containsRange d paddr size then return .null
    else if d.type ≠ .identityMapFree then return .null
    else
      let cut ← cutDescriptor p paddr size
      kassert ((← readDesc cut).startVaddr % pageSize == 0)
      modifyDesc cut fun n => { n with type := .identityMap }
      return cut

/-- How often `for(void* p = first; p < last; p += PAGE_SIZE)` runs its body. -/
def addressPageCount (first last : Nat) : Nat := if first < last then pageCount (last - first) else 0

def mapIdentityPages (first count : Nat) : KM Unit := do
  let ps := (← get).sh.vmm.pagingStructure
  forRange (fun i =>
    pagingMap ps (add64 first (i * pageSize)) (add64 first (i * pageSize))
      (pageWritable ||| pagePresent)) count 0

def loadIdentityMapPages (paddr size : Nat) (handle : VMemHandle) : KM Unit := do
  kassert (!isVmemhandleInvalid handle)
  kassert (size % pageSize == 0)
  kassert (paddr % pageSize == 0)
  withLock .vmm (do kassert (← get).sh.vmm.kernelMode)
  mapIdentityPages paddr (addressPageCount paddr (add64 paddr size))
  shootdown kmalloc paddr size

/-- The first free descriptor of at least `size` bytes; without one, the last
descriptor, whose type is then checked but not its size. -/
def isFreeOfSize (size : Nat) (d : VirtualMemoryDescriptor) : Bool :=
  d.sizeBytes ≥ size && d.type == .free

/-- Cut `size` bytes for a new region with the given padding. -/
def cutRegion (size : Nat) (type : VirtualMemoryType) (upperPadding lowerPadding : Nat) :
    KM DescPtr := do
  let p ← findFromHead (isFreeOfSize size)
  check ((← readDesc p).type == .free) (.panic .vmmError)
  let cut ← cutDescriptorStart p size
  modifyDesc cut fun d => { d with type := type }
  kassert ((← readDesc cut).startVaddr % pageSize == 0)
  modifyDesc cut fun d => { d with lowerPadding := lowerPadding, upperPadding := upperPadding }
  return cut

def memoryMap (paddr size pageFlags : Nat) : KM VMemHandle := do
  let size := add64 size (memoryMapPadding * 2)
  let (cut, d) ← withLock .vmm do
    kassert (← get).sh.vmm.kernelMode
    kassert (size % pageSize == 0)
    kassert (paddr % pageSize == 0)
    let cut ← cutRegion size .memoryMapping memoryMapPadding memoryMapPadding
    return (cut, ← readDesc cut)
  let vaddr := getNoPaddingStartAddr d
  forPages (getNoPaddingSize d) fun i => do
    pagingMap (← get).sh.vmm.pagingStructure (add64 vaddr (i * pageSize))
      (add64 paddr (i * pageSize)) (pageFlags ||| pagePresent)
  shootdown kmalloc vaddr (getNoPaddingSize d)
  return cut

def copyMemoryMappingFromPagingStructure (srcPagingStructure vaddr size pageFlags : Nat) :
    KM VMemHandle := do
  kassert (size % pageSize == 0)
  let istate ← acquireSpinlockHard .vmm
  kassert (← get).sh.vmm.kernelMode
  let p ← findFromHead (endsAbove vaddr)
  let d ← readDesc p
  if !containsRange d vaddr size || d.type != .free then
    releaseSpinlockHard .vmm istate
    return .null
  else
    let cut ← cutDescriptor p vaddr size
    kassert ((← readDesc cut).startVaddr % pageSize == 0)
    modifyDesc cut fun n => { n with type := .memoryMapping }
    let pageFlags := if pageFlags = copyFlagsOnMmapCopy then 0 else pageFlags
    releaseSpinlockHard .vmm istate
    copyPagingStructureMappingNoPageInvalidation srcPagingStructure
      (← get).sh.vmm.pagingStructure vaddr size pageFlags
    forPages size fun i => deletePageTranslationCache (add64 vaddr (i * pageSize))
    shootdown kmalloc vaddr size
    let istate ← acquireSpinlockHard .vmm
    releaseSpinlockHard .vmm istate
    return cut

def allocateKernelVirtualMemory (size : Nat) (type : VirtualMemoryType)
    (upperPadding lowerPadding : Nat) : KM VMemHandle := do
  let size := add64 size (add64 lowerPadding upperPadding)
  kassert (size % pageSize == 0)
  check (type != .identityMapFree && type != .identityMap && type != .memoryMapping)
    (.panic .vmmError)
  let (cut, d) ← withLock .vmm do
    kassert (← get).sh.vmm.kernelMode
    let cut ← cutRegion size type upperPadding lowerPadding
    return (cut, ← readDesc cut)
  let vaddr := getNoPaddingStartAddr d
  let noPaddingSize := getNoPaddingSize d
  forPages noPaddingSize fun i => mapNewFrame (add64 vaddr (i * pageSize))
  shootdown kmalloc (add64 vaddr (pageCount noPaddingSize * pageSize)) noPaddingSize
  return cut

/-! ## Deallocation -/

/-- Unmap one page of a region and free the frame behind it, if it is the region's own. -/
def unmapPage (type : VirtualMemoryType) (vaddr : Nat) : KM Unit := do
  let ps := (← get).sh.vmm.pagingStructure
  onlyIf (type.isBacked = true) do
    let state := getPhysicalAddress (← get).sh.pmem ps vaddr
    onlyIf (state.mmapPresent = true) (deallocFrame state.paddr)
  invalidatePagingMapping ps vaddr

/-- Sum up and deallocate the run of descriptors of `freeType` from `last` on;
returns the size so far and the descriptor after the run. -/
def absorbFollowing (freeType : VirtualMemoryType) :
    (steps : Nat) → (last : DescPtr) → (totalSize : Nat) → KM (DescPtr × Nat)
  | 0, _, _ => throw .loops
  | steps + 1, last, totalSize => do
    if last = .null then return (last, totalSize)
    else
      let d ← readDesc last
      if d.type ≠ freeType then return (last, totalSize)
      else
        deallocateVmmDescriptor last
        absorbFollowing freeType steps d.next (add64 totalSize d.sizeBytes)

/-- Merge a free descriptor with the run of free ones after it. The descriptor
after it is read without a check for NULL. -/
def coalesce (desc : DescPtr) (freeType : VirtualMemoryType) : KM Unit := do
  let d ← readDesc desc
  if (← readDesc d.next).type = freeType then
    let (last, totalSize) ← absorbFollowing freeType (2 ^ 64) d.next d.sizeBytes
    modifyDesc desc fun n => { n with sizeBytes := totalSize, next := last }
    modifyDescIf last fun n => { n with prev := desc }
  else pure ()

/-- The descriptor before `desc` if it is free, else `desc` itself. -/
def freePredecessor (desc : DescPtr) (freeType : VirtualMemoryType) : KM DescPtr := do
  let d ← readDesc desc
  if d.prev = .null then return desc
  else if (← readDesc d.prev).type = freeType then return d.prev
  else return desc

def deallocateKernelVirtualMemory (handle : VMemHandle) : KM Bool :=
  withLock .vmm do
    kassert (← get).sh.vmm.kernelMode
    let d ← readDesc handle
    kassert (d.type != .free)
    kassert (d.type != .identityMapFree)
    let freeType := if d.startVaddr < identityMapVmemEnd then .identityMapFree else .free
    let vaddr := getNoPaddingStartAddr d
    let noPaddingSize := getNoPaddingSize d
    forPages noPaddingSize fun i => unmapPage d.type (add64 vaddr (i * pageSize))
    shootdown kmalloc (add64 vaddr (pageCount noPaddingSize * pageSize)) noPaddingSize
    modifyDesc handle fun n => { n with type := freeType, lowerPadding := 0, upperPadding := 0 }
    coalesce (← freePredecessor handle freeType) freeType
    return true

/-! ## Page faults -/

def getVmemFromAddress (addr : Nat) : KM VMemHandle := do
  let p ← findFromHead fun d => addr ≥ d.startVaddr && addr < d.endVaddr
  let d ← readDesc p
  if addr ≥ d.endVaddr then return .null
  else if addr < d.startVaddr then return .null
  else return p

structure PageFaultInfo where
  faultAddress : Nat
  faultVmem : VMemHandle
  pageNotPresent : Bool

/-- Load the pages around a fault in an identity mapping. The range that is
handed on is computed after the loop has moved `to_map` to `last_page`. -/
def pageFaultCheckIdentityMapLoad (info : PageFaultInfo) : KM Bool := do
  if isVmemhandleInvalid info.faultVmem then return false
  else if (← getVmemType info.faultVmem) == .identityMap && info.pageNotPresent then
    let toMap := sub64 info.faultAddress (pageFaultAdditionalPageLoad / 2)
    let lastPage := add64 toMap ((1 + pageFaultAdditionalPageLoad) * pageSize)
    let count := addressPageCount toMap lastPage
    mapIdentityPages toMap count
    let toMap := add64 toMap (count * pageSize)
    shootdownRange kmalloc ⟨toMap, sub64 lastPage toMap / pageSize⟩
    return true
  else return false

def pageFaultCheckStackOverflow (info : PageFaultInfo) : KM Bool := do
  if isVmemhandleInvalid info.faultVmem then return false
  else
    let d ← readDesc info.faultVmem
    if d.type == .stack && info.faultAddress < getNoPaddingStartAddr d && info.pageNotPresent then
      check (← get).sh.kioInitialized (.panic .unrecoverablePageFault)
      let remainingPadding := toInt64 (sub64 d.lowerPadding kernelStackExpansionStep)
      if remainingPadding ≥ minimumStackPadding then
        tryExpandVmemBottomWith kmalloc info.faultVmem kernelStackExpansionStep false
      else return false
    else return false

/-- `page_fault` for a fault at `faultAddress` with the given error code. -/
def pageFault (faultAddress error : Nat) : KM Unit := do
  check (isKernelVirtualMemory faultAddress) (.panic .unrecoverablePageFault)
  acquireSpinlock .pageFault
  check (!(← get).sh.servicingPageFault) (.panic .unrecoverablePageFault)
  modifyShared fun s => { s with servicingPageFault := true }
  releaseSpinlock .pageFault
  acquireSpinlock .vmm
  let info : PageFaultInfo := ⟨faultAddress, ← getVmemFromAddress faultAddress, error &&& 1 == 0⟩
  let solved ← pageFaultCheckIdentityMapLoad info
  let solved ← if solved then pure true else pageFaultCheckStackOverflow info
  check solved (.panic .unrecoverablePageFault)
  releaseSpinlock .vmm
  acquireSpinlock .pageFault
  modifyShared fun s => { s with servicingPageFault := false }
  releaseSpinlock .pageFault

/-! ## Boot and kernel data entry points that allocate -/

/-- `initialize_heap` on the memory of a handle. -/
def initializeHeapOn (vmem : VMemHandle) : KM Unit := do
  let start ← getVmemAddr vmem
  let size ← getVmemSize vmem
  onHeap (initializeHeap vmem start size)

def kheapInit : KM Unit := do
  let vmem ← allocateKernelVirtualMemory kernelHeapSize .heap kernelHeapVmmMaxSize
    kernelHeapVmmLowSecurityPadding
  initializeHeapOn vmem
  modifyShared fun s => { s with kheapInitialized := true }

def lastLocalData (d : KernelData) : (steps : Nat) → (itr : Nat) → KM Nat
  | 0, _ => throw .loops
  | steps + 1, itr =>
    if (d.nodes itr).next = 0 then return itr else lastLocalData d steps (d.nodes itr).next

def appendLocalData (cpuid : Nat) : KM Unit := do
  let d := (← get).sh.kernelData
  if d.localDataList = 0 then
    let node ← kmalloc 40
    modifyKernelData fun d => { d with localDataList := node }
    setLocalDataNode node fun n => { n with cpuId := cpuid, next := 0 }
    kassert (node != 0)
  else
    let itr ← lastLocalData d (2 ^ 64) d.localDataList
    -- nothing is allocated for the id 0, given out again after 2^32 registrations
    kassert (cpuid != 0)
    let node ← kmalloc 40
    setLocalDataNode itr fun n => { n with next := node }
    kassert (node != 0)
    setLocalDataNode node fun n => { n with cpuId := cpuid, next := 0 }

def registerLocalKernelDataCpu : KM Nat :=
  withLock .kernelData do
    let cpuid := (← get).sh.kernelData.cpuidToAllocate
    modifyKernelData fun d => { d with cpuidToAllocate := (cpuid + 1) % 2 ^ 32 }
    appendLocalData cpuid
    return cpuid

/-- `initialize_vmmcache_shootdown_subsystem` with the given number of usable logical cores. -/
def initializeVmmcacheShootdownSubsystem (cores : Nat) : KM Unit := do
  modifyShared fun s => { s with queuesCount := cores }
  let queueArray ← kmalloc (32 * cores % 2 ^ 64)
  modifyShared fun s => { s with queueArray := queueArray }
  forRange (fun i => modifyQueue i fun _ => ⟨0, 0, 0, false⟩) cores 0

end GarbageOS
