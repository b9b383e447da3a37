import GarbageOS.Frames.Code

/-!
# `x64-memory.c`: the four-level page tables

PML4 → PDPT → PDT → PT, 512 entries of 8 bytes each, all in identity-mapped
physical memory. A paging structure is the address of an `x64PagingStructure`,
whose first word is the address of the PML4.
-/

namespace GarbageOS

open Lib

def pagePresent : Nat := 1
def pageWritable : Nat := 2
def frameMask : Nat := 0x0000fffffffff000

/-- The 9 index bits of a virtual address from bit `shift` on: bit 39 for the
PML4, 30 for the PDPT, 21 for the PDT and 12 for the PT. -/
def tableIndex (vaddr shift : Nat) : Nat := (vaddr >>> shift) &&& 0x1ff

/-- `&table[index]`. -/
def entryAddr (table index : Nat) : Nat := add64 table (8 * index)

def isEntryPresent (entry : Nat) : Bool := (entry &&& pagePresent) != 0

def readPmem (addr : Nat) : KM Nat := return load (← get).sh.pmem addr

def writePmem (addr value : Nat) : KM Unit :=
  modifyShared fun s => { s with pmem := store s.pmem addr value }

def allocateTable (entry : Nat) : KM Unit := do
  let newFrame := (← allocFrame) &&& frameMask
  modifyShared fun s => { s with pmem := fill s.pmem newFrame pageSize 0 }
  writePmem entry (newFrame ||| pagePresent ||| pageWritable)

/-- The table an entry points to; a missing one is allocated. -/
def getNextTable (entry : Nat) : KM Nat := do
  onlyIf (isEntryPresent (← readPmem entry) = false) (allocateTable entry)
  return (← readPmem entry) &&& frameMask

/-- The address of the page table entry of `vaddr` under the PML4 `root`. -/
def unsyncGetPageTableEntry (root vaddr : Nat) : KM Nat := do
  let pdpt ← getNextTable (entryAddr root (tableIndex vaddr 39))
  let pdt ← getNextTable (entryAddr pdpt (tableIndex vaddr 30))
  let pt ← getNextTable (entryAddr pdt (tableIndex vaddr 21))
  return entryAddr pt (tableIndex vaddr 12)

def writePte (root vaddr entry value : Nat) : KM Unit := do
  writePmem entry value
  modifyCpu fun c => { c with pteWrites := (root, vaddr / pageSize) :: c.pteWrites }

def pagingMap (pagingStructure vaddr paddr flags : Nat) : KM Unit := do
  let root ← readPmem pagingStructure
  let entry ← unsyncGetPageTableEntry root vaddr
  let flags := (flags ||| pagePresent) &&& 0xfff
  writePte root vaddr entry ((paddr &&& frameMask) ||| flags)

def invalidatePagingMapping (pagingStructure vaddr : Nat) : KM Unit := do
  let root ← readPmem pagingStructure
  let entry ← unsyncGetPageTableEntry root vaddr
  writePte root vaddr entry ((← readPmem entry) &&& (2 ^ 64 - 1 - pagePresent))

/-- The entries of the PML4 all point to tables from the start. The spinlock of the
`x64PagingStructure` is left out: no code takes it. -/
def createEmptyKernelPagingStructure : KM Nat := do
  let pml4 ← allocFrame
  modifyShared fun s => { s with pmem := fill s.pmem pml4 pageSize 0 }
  forRange (fun i => allocateTable (entryAddr pml4 i)) 512 0
  let pagingStructure ← allocFrame
  writePmem pagingStructure pml4
  return pagingStructure

structure PagingMapState where
  paddr : Nat
  flags : Nat
  mmapPresent : Bool
  deriving DecidableEq

/-- A physical address whose top bit 47 is set is made canonical. -/
def canonicalPaddr (paddr : Nat) : Nat :=
  if (paddr &&& 0x0000800000000000) ≠ 0 then paddr ||| 0xffff000000000000 else paddr

/-- `get_physical_address`, which never allocates a table. -/
def getPhysicalAddress (m : Mem) (pagingStructure vaddr : Nat) : PagingMapState :=
  let notPresent : PagingMapState := ⟨0, 0, false⟩
  let pml4e := load m (entryAddr (load m pagingStructure) (tableIndex vaddr 39))
  if isEntryPresent pml4e then
    let pdpte := load m (entryAddr (pml4e &&& frameMask) (tableIndex vaddr 30))
    if isEntryPresent pdpte then
      let pdte := load m (entryAddr (pdpte &&& frameMask) (tableIndex vaddr 21))
      if isEntryPresent pdte then
        let pte := load m (entryAddr (pdte &&& frameMask) (tableIndex vaddr 12))
        ⟨canonicalPaddr (pte &&& frameMask), pte &&& 0xfff, isEntryPresent pte⟩
      else notPresent
    else notPresent
  else notPresent

/-- One entry of `copy_paging_structure_mapping_no_page_invalidation`: the
flags are copied if `new_flags` is 0. -/
def copyPagingEntry (src dst vaddr newFlags : Nat) : KM Unit := do
  let srcRoot ← readPmem src
  let srcEntry ← unsyncGetPageTableEntry srcRoot vaddr
  let dstRoot ← readPmem dst
  let dstEntry ← unsyncGetPageTableEntry dstRoot vaddr
  let value ← readPmem srcEntry
  writePte dstRoot vaddr dstEntry
    (if newFlags = 0 then value else (value &&& frameMask) ||| newFlags)

/-- How often `for(uint64_t i = 0; i < size; i += PAGE_SIZE)` runs its body. -/
def pageCount (size : Nat) : Nat := (size + (pageSize - 1)) / pageSize

/-- That loop: the counter wraps before it reaches a size above `2^64 - PAGE_SIZE`,
and the loop never ends. -/
def forPages (size : Nat) (body : Nat → KM Unit) : KM Unit := do
  forRange body (pageCount size) 0
  check (size ≤ 2 ^ 64 - pageSize) .loops

def copyPagingStructureMappingNoPageInvalidation (src dst startVaddr sizeBytes newFlags : Nat) :
    KM Unit :=
  forPages sizeBytes fun i => copyPagingEntry src dst (add64 startVaddr (i * pageSize)) newFlags

end GarbageOS
