import GarbageOS.Kernel.Defs

/-!
# `heap.c`: chunks and bucket lists

The functions of `heap.c` that work on one heap. A chunk is an 8-byte header,
its user data and an 8-byte footer; header and footer hold the user size, and
the three low bits of the header are flags. The user data of a free chunk
starts with the next and previous pointers of its bucket list.
-/

namespace GarbageOS

open Lib

def heapFreeChunk : Nat := 1
def heapWildernessChunk : Nat := 2
def bucketsCount : Nat := 128
def heapChunkMinSize : Nat := 16
/-- `sizeof(HeapChunkHeader) + sizeof(HeapChunkFooter)`. -/
def heapChunkSplitOverhead : Nat := 8 + 8

/-- `struct Heap`. -/
structure Heap where
  heapVmem : VMemHandle
  enableGrowth : Bool
  start : Nat
  size : Nat
  numberOfChunks : Nat
  wildernessChunk : Nat
  freeBuckets : Int → Nat

structure HeapState where
  mem : Mem
  heap : Heap

abbrev HeapM := EStateM Stop HeapState

/-! ## Reading and writing chunks -/

/-- `size & ~7`. -/
def getFixedHeapChunkSize (m : Mem) (header : Nat) : Nat := load m header &&& (2 ^ 64 - 8)

def getHeapChunkFlag (m : Mem) (header flag : Nat) : Bool := (load m header &&& flag) != 0

def setHeapChunkFlag (m : Mem) (header flag : Nat) : Mem := store m header (load m header ||| flag)

def resetHeapChunkFlag (m : Mem) (header flag : Nat) : Mem :=
  store m header (load m header &&& (2 ^ 64 - 1 - flag))

def getNextHeapChunkHeader (m : Mem) (header : Nat) : Nat :=
  add64 (add64 header (getFixedHeapChunkSize m header)) (8 + 8)

def getFixedHeapChunkSizeFromFooter (m : Mem) (footer : Nat) : Nat := load m footer &&& (2 ^ 64 - 8)

def getHeapChunkHeaderFromFooter (m : Mem) (footer : Nat) : Nat :=
  sub64 (sub64 footer (getFixedHeapChunkSizeFromFooter m footer)) 8

def getPrevHeapChunkHeader (m : Mem) (header : Nat) : Nat :=
  getHeapChunkHeaderFromFooter m (sub64 header 8)

def getHeapChunkUserData (header : Nat) : Nat := add64 header 8

def getHeapChunkFooterFromHeader (m : Mem) (header : Nat) : Nat :=
  add64 (add64 header 8) (getFixedHeapChunkSize m header)

def getHeapChunkFromUserData (userData : Nat) : Nat := sub64 userData 8

/-- The header and the footer disagree, the size is too small, or the footer has flags. -/
def isHeapChunkCorrupted (m : Mem) (header : Nat) : Bool :=
  let footer := getHeapChunkFooterFromHeader m header
  let size1 := getFixedHeapChunkSizeFromFooter m footer
  let size2 := getFixedHeapChunkSize m header
  if size1 != size2 then true
  else if size1 < heapChunkMinSize then true
  else if (load m footer &&& 7) != 0 then true
  else false

def isFirstChunkOfHeap (h : Heap) (header : Nat) : Bool := h.start == header

def isLastChunkOfHeap (m : Mem) (header : Nat) : Bool := getHeapChunkFlag m header heapWildernessChunk

def modifyMem (f : Mem → Mem) : HeapM Unit := modify fun s => { s with mem := f s.mem }

def modifyHeap (f : Heap → Heap) : HeapM Unit := modify fun s => { s with heap := f s.heap }

def setBucketListNext (header next : Nat) : HeapM Unit := do
  kassert (getHeapChunkFlag (← get).mem header heapFreeChunk)
  modifyMem fun m => store m (getHeapChunkUserData header) next

def getBucketListNext (header : Nat) : HeapM Nat := do
  kassert (getHeapChunkFlag (← get).mem header heapFreeChunk)
  return load (← get).mem (getHeapChunkUserData header)

def setBucketListPrev (header prev : Nat) : HeapM Unit := do
  kassert (getHeapChunkFlag (← get).mem header heapFreeChunk)
  modifyMem fun m => store m (add64 (getHeapChunkUserData header) 8) prev

def getBucketListPrev (header : Nat) : HeapM Nat := do
  kassert (getHeapChunkFlag (← get).mem header heapFreeChunk)
  return load (← get).mem (add64 (getHeapChunkUserData header) 8)

/-! ## Buckets -/

/-- The bucket of a chunk size. The source's `int`: a size below 8 gives `-1`. -/
def getBucketIndexFromSize (size : Nat) : Int :=
  let maxFirst := 8 * 64
  let maxIndexFirst : Int := 63
  if size ≤ maxFirst then (size / 8 : Nat) - 1
  else
    let maxSecond := maxFirst + 64 * 32
    let maxIndexSecond := maxIndexFirst + 32
    if size ≤ maxSecond then maxIndexFirst + 1 + ((size - maxFirst) / 64 : Nat)
    else
      let index := maxIndexSecond + 1 + ((size - maxSecond) / 512 : Nat)
      if index ≥ bucketsCount then bucketsCount - 1 else index

/-- The wilderness chunk is always in the last bucket. -/
def getBucketIndexFromHeader (m : Mem) (header : Nat) : Int :=
  if getHeapChunkFlag m header heapWildernessChunk then bucketsCount - 1
  else getBucketIndexFromSize (getFixedHeapChunkSize m header)

def setFreeBucket (index : Int) (header : Nat) : HeapM Unit :=
  modifyHeap fun h => { h with freeBuckets := fun i => if i = index then header else h.freeBuckets i }

/-- The cases in which `remove_from_bucket_list` links the neighbours of a
removed chunk. -/
def linkNeighbours (prev next : Nat) : HeapM Unit :=
  if prev ≠ 0 ∧ next ≠ 0 then do
    setBucketListNext prev next
    setBucketListPrev next prev
  else if prev = 0 ∧ next ≠ 0 then setBucketListPrev next 0
  else if prev ≠ 0 ∧ next = 0 then setBucketListNext prev 0
  else pure ()

def removeFromBucketList (header : Nat) : HeapM Unit := do
  let index := getBucketIndexFromHeader (← get).mem header
  let prevListElem ← getBucketListPrev header
  let nextListElem ← getBucketListNext header
  kassert (getHeapChunkFlag (← get).mem header heapFreeChunk)
  -- if it is the first of the list, the bucket starts at the next one (even if NULL)
  onlyIf ((← get).heap.freeBuckets index = header) (setFreeBucket index nextListElem)
  linkNeighbours prevListElem nextListElem
  setBucketListNext header 0
  setBucketListPrev header 0

def addToBucketList (header : Nat) : HeapM Unit := do
  let index := getBucketIndexFromHeader (← get).mem header
  setBucketListPrev header 0
  setBucketListNext header ((← get).heap.freeBuckets index)
  onlyIf ((← get).heap.freeBuckets index ≠ 0)
    (setBucketListPrev ((← get).heap.freeBuckets index) header)
  setFreeBucket index header

/-! ## Creating, splitting and merging chunks -/

/-- Flag `header` as the wilderness chunk of the heap. -/
def setWilderness (header : Nat) : HeapM Unit := do
  modifyMem fun m => setHeapChunkFlag m header heapWildernessChunk
  modifyHeap fun h => { h with wildernessChunk := header }

/-- One free chunk, the wilderness, over the whole of `vmem`. -/
def initializeHeap (vmem : VMemHandle) (start size : Nat) : HeapM Unit := do
  kassert (size > 128)
  kassert (start % 8 == 0)
  kassert (size % 8 == 0)
  modifyHeap fun h =>
    { h with
      freeBuckets := fun i => if 0 ≤ i ∧ i < bucketsCount then 0 else h.freeBuckets i
      enableGrowth := false, start := start, size := size, numberOfChunks := 1, heapVmem := vmem }
  let userDataSize := sub64 (sub64 size 8) 8
  modifyMem fun m => store m start userDataSize
  modifyMem fun m => setHeapChunkFlag m start heapWildernessChunk
  modifyMem fun m => setHeapChunkFlag m start heapFreeChunk
  modifyMem fun m => store m (getHeapChunkFooterFromHeader m start) userDataSize
  modifyHeap fun h => { h with wildernessChunk := start }
  addToBucketList start

/-- The part of `try_increase_wilderness_chunk` after the virtual memory has grown:
the wilderness chunk takes in the new bytes and gets a new footer. -/
def expandWildernessChunk (growthSize : Nat) : HeapM Unit := do
  modifyHeap fun h => { h with size := add64 h.size growthSize }
  let wildernessChunk := (← get).heap.wildernessChunk
  kassert (getHeapChunkFlag (← get).mem wildernessChunk heapWildernessChunk)
  modifyMem fun m => store m wildernessChunk (add64 (load m wildernessChunk) growthSize)
  let newFooter := getHeapChunkFooterFromHeader (← get).mem wildernessChunk
  kassert (add64 newFooter 8 == add64 (← get).heap.start (← get).heap.size)
  modifyMem fun m => store m newFooter (load m wildernessChunk &&& (2 ^ 64 - 8))

def mergeWithNextChunk (header : Nat) : HeapM Unit := do
  kassert (!isLastChunkOfHeap (← get).mem header)
  let next := getNextHeapChunkHeader (← get).mem header
  kassert (getHeapChunkFlag (← get).mem header heapFreeChunk)
  kassert (getHeapChunkFlag (← get).mem next heapFreeChunk)
  let isWildernessChunk := getHeapChunkFlag (← get).mem next heapWildernessChunk
  let oldLastFooter := getHeapChunkFooterFromHeader (← get).mem next
  removeFromBucketList header
  removeFromBucketList next
  let nextSize := getFixedHeapChunkSize (← get).mem next
  let headerSize := getFixedHeapChunkSize (← get).mem header
  let newSize := add64 (add64 (add64 nextSize headerSize) 8) 8
  kassert (newSize % 8 == 0)
  kassert (newSize ≥ heapChunkMinSize)
  modifyMem fun m => store m header newSize
  modifyMem fun m => setHeapChunkFlag m header heapFreeChunk
  onlyIf (isWildernessChunk = true) (setWilderness header)
  let footer := getHeapChunkFooterFromHeader (← get).mem next
  modifyMem fun m => store m footer newSize
  kassert (footer == oldLastFooter)
  addToBucketList header
  modifyHeap fun h => { h with numberOfChunks := sub64 h.numberOfChunks 1 }

def mergeWithNextAndPrevChunk (header : Nat) : HeapM Unit := do
  kassert (!isLastChunkOfHeap (← get).mem header)
  kassert (!isFirstChunkOfHeap (← get).heap header)
  let next := getNextHeapChunkHeader (← get).mem header
  let prev := getPrevHeapChunkHeader (← get).mem header
  kassert (getHeapChunkFlag (← get).mem header heapFreeChunk)
  kassert (getHeapChunkFlag (← get).mem prev heapFreeChunk)
  kassert (getHeapChunkFlag (← get).mem next heapFreeChunk)
  let oldLastFooter := getHeapChunkFooterFromHeader (← get).mem next
  let isWildernessChunk := getHeapChunkFlag (← get).mem next heapWildernessChunk
  removeFromBucketList header
  removeFromBucketList next
  removeFromBucketList prev
  let m := (← get).mem
  let newSize := add64 (add64 (add64 (8 * 2 + 8 * 2) (getFixedHeapChunkSize m header))
    (getFixedHeapChunkSize m next)) (getFixedHeapChunkSize m prev)
  kassert (newSize % 8 == 0)
  kassert (newSize ≥ heapChunkMinSize)
  modifyMem fun m => store m prev newSize
  modifyMem fun m => setHeapChunkFlag m prev heapFreeChunk
  onlyIf (isWildernessChunk = true) (setWilderness prev)
  let footer := getHeapChunkFooterFromHeader (← get).mem prev
  modifyMem fun m => store m footer newSize
  kassert (footer == oldLastFooter)
  addToBucketList prev
  modifyHeap fun h => { h with numberOfChunks := sub64 h.numberOfChunks 2 }

/-- Split `header` into an allocated chunk of `firstChunkSize` and a free rest. -/
def splitFreeChunk (header firstChunkSize secondChunkSize oldFooter : Nat) : HeapM Unit := do
  kassert (secondChunkSize % 8 == 0)
  let isHeaderWildernessChunk := getHeapChunkFlag (← get).mem header heapWildernessChunk
  removeFromBucketList header
  -- the first chunk is neither free nor the wilderness
  modifyMem fun m => store m header firstChunkSize
  modifyMem fun m => store m (getHeapChunkFooterFromHeader m header) firstChunkSize
  let secondChunk := getNextHeapChunkHeader (← get).mem header
  modifyMem fun m => store m secondChunk secondChunkSize
  modifyMem fun m => setHeapChunkFlag m secondChunk heapFreeChunk
  onlyIf (isHeaderWildernessChunk = true) (setWilderness secondChunk)
  let secondChunkFooter := getHeapChunkFooterFromHeader (← get).mem secondChunk
  modifyMem fun m => store m secondChunkFooter secondChunkSize
  addToBucketList secondChunk
  kassert (secondChunkFooter == oldFooter)
  modifyHeap fun h => { h with numberOfChunks := add64 h.numberOfChunks 1 }

/-- Returns false, changing nothing, if the rest would be smaller than a chunk.
`second_chunk_size` is an `int64_t` from which an unsigned value is subtracted:
the difference wraps and is then compared as a signed number. -/
def splitChunkAndAlloc (header firstChunkSize : Nat) : HeapM Bool := do
  kassert (getHeapChunkFlag (← get).mem header heapFreeChunk)
  kassert (firstChunkSize % 8 == 0)
  kassert (firstChunkSize ≥ heapChunkMinSize)
  let oldFooter := getHeapChunkFooterFromHeader (← get).mem header
  let secondChunkSize := sub64 (getFixedHeapChunkSize (← get).mem header)
    (add64 (add64 firstChunkSize 8) 8)
  if toInt64 secondChunkSize < heapChunkMinSize then return false
  else
    splitFreeChunk header firstChunkSize secondChunkSize oldFooter
    return true

def allocChunk (header : Nat) : HeapM Unit := do
  kassert (!getHeapChunkFlag (← get).mem header heapWildernessChunk)
  removeFromBucketList header
  modifyMem fun m => resetHeapChunkFlag m header heapFreeChunk

/-! ## Finding and freeing chunks -/

/-- The rounding at the start of `kmalloc`. -/
def roundRequest (size : Nat) : Nat :=
  let size := if size < heapChunkMinSize then heapChunkMinSize else size
  if size % 8 ≠ 0 then add64 size (8 - size % 8) else size

/-- The test of the search loop: it does not compare a splittable candidate with the request. -/
def isCandidateSuitable (m : Mem) (size candidate : Nat) : Bool :=
  let candidateSize := getFixedHeapChunkSize m candidate
  candidateSize == size || candidateSize ≥ heapChunkMinSize + heapChunkSplitOverhead

/-- The inner loop: the first suitable chunk of a bucket list, or NULL. A walk
of `2^64` steps has met some address twice and never ends. -/
def searchBucket (size : Nat) : (steps : Nat) → (candidate : Nat) → HeapM Nat
  | 0, _ => throw .loops
  | steps + 1, candidate =>
    if candidate = 0 then return 0
    else do
      let found := isCandidateSuitable (← get).mem size candidate
      let next ← getBucketListNext candidate
      if found then return candidate else searchBucket size steps next

/-- The outer loop over the `count` buckets from `bucketIdx` on. -/
def searchBuckets (size : Nat) : (count : Nat) → (bucketIdx : Int) → HeapM Nat
  | 0, _ => return 0
  | count + 1, bucketIdx => do
    let found ← searchBucket size (2 ^ 64) ((← get).heap.freeBuckets bucketIdx)
    if found = 0 then searchBuckets size count (bucketIdx + 1) else return found

/-- The chunk `kmalloc` takes: the first suitable one, else the wilderness chunk. -/
def findChunk (size : Nat) : HeapM Nat := do
  let bucketIdx := getBucketIndexFromSize size
  let found ← searchBuckets size (bucketsCount - bucketIdx).toNat bucketIdx
  if found = 0 then return (← get).heap.wildernessChunk else return found

/-- A neighbour of a freed chunk, or NULL if it is not free. -/
def freeNeighbour (m : Mem) (header : Nat) : Nat :=
  if getHeapChunkFlag m header heapFreeChunk then header else 0

/-- `prev` in `kfree`: the chunk before `header` if there is one and it is free. -/
def freePrev (s : HeapState) (header : Nat) : Nat :=
  if isFirstChunkOfHeap s.heap header then 0
  else freeNeighbour s.mem (getPrevHeapChunkHeader s.mem header)

/-- `next` in `kfree`. -/
def freeNext (s : HeapState) (header : Nat) : Nat :=
  if isLastChunkOfHeap s.mem header then 0
  else freeNeighbour s.mem (getNextHeapChunkHeader s.mem header)

/-- The body of `kfree`, between taking and releasing the heap lock. -/
def freeChunk (ptr : Nat) : HeapM Unit := do
  let header := getHeapChunkFromUserData ptr
  check (!getHeapChunkFlag (← get).mem header heapFreeChunk) (.panic .heapCorrupted)
  check (!getHeapChunkFlag (← get).mem header heapWildernessChunk) (.panic .heapCorrupted)
  check (!isHeapChunkCorrupted (← get).mem header) (.panic .heapCorrupted)
  modifyMem fun m => setHeapChunkFlag m header heapFreeChunk
  setBucketListNext header 0
  setBucketListPrev header 0
  let prev := freePrev (← get) header
  let next := freeNext (← get) header
  if prev = 0 ∧ next = 0 then addToBucketList header
  else if prev ≠ 0 ∧ next = 0 then mergeWithNextChunk prev
  else if prev = 0 ∧ next ≠ 0 then mergeWithNextChunk header
  else mergeWithNextAndPrevChunk header

end GarbageOS
