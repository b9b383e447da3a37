import GarbageOS.Lib.Bytes
import GarbageOS.Lib.Trace
import GarbageOS.Vmm.Code

/-!
# `acpi.c`: the root pointer and the root table

The firmware leaves a root pointer (`RSDP`, from revision 2 on `XSDP`) somewhere in the first KiB of
the extended BIOS data area (EBDA) or in the BIOS area; it has the address of a table of tables (`RSDT` or
`XSDT`). Both are read through the identity mapping, which leaves out the page of the NULL pointer.
-/

namespace GarbageOS

open Lib

/-- Memory as the kernel sees it: the page of the NULL pointer is not mapped, the other pages of the
identity mapped area are. -/
structure KernelView where
  bytes : Bytes
  mapped : Nat → Bool
  null : ∀ a < pageSize, mapped a = false
  identity : ∀ a, pageSize ≤ a → a < identityMapVmemEnd → mapped a = true
  word : ∀ a, mapped a = true → a < 2 ^ 64

/-- The static pointers of `acpi.c`; 0 is NULL. -/
structure AcpiCache where
  cachedRsdp : Nat
  cachedXsdp : Nat
  deriving DecidableEq

def rsdpSignature : Nat := 0x2052545020445352

def acpiRevision2 : Nat := 2
def sizeofRsdp : Nat := 20
def acpiHeaderSize : Nat := 36

namespace KernelView

/-- Memory with nothing mapped but the identity mapped area. -/
def ofBytes (bytes : Bytes) : KernelView where
  bytes := bytes
  mapped a := decide (pageSize ≤ a ∧ a < identityMapVmemEnd)
  null a ha := decide_eq_false fun h => absurd h.1 (Nat.not_le.2 ha)
  identity a hlo hhi := decide_eq_true ⟨hlo, hhi⟩
  word a h := Nat.lt_trans (of_decide_eq_true h).2 (by decide)

variable (v : KernelView)

/-- An access to `n` bytes. -/
def access (a n : Nat) : Except Stop Unit :=
  if v.mapped a && v.mapped (a + n - 1) then .ok ()
  else if a < pageSize then .error .nullAccess
  else .error (.panic .unrecoverablePageFault)

def read8 (a : Nat) : Except Stop Nat := do
  v.access a 1
  return v.bytes.get8 a

def read32 (a : Nat) : Except Stop Nat := do
  v.access a 4
  return v.bytes.get32 a

def read64 (a : Nat) : Except Stop Nat := do
  v.access a 8
  return v.bytes.get64 a

/-! ## The root pointer -/

/-- The search for the signature on 16-byte boundaries, at `slots` addresses from `addr` on. -/
def findSignature : (slots addr : Nat) → Except Stop Nat
  | 0, _ => .ok 0
  | slots + 1, addr => do
    if (← v.read64 addr) = rsdpSignature then return addr
    else findSignature slots (addr + 16)

/-- The address of the EBDA, aligned to 16 bytes. Its segment is read through a mapping of the first
page of its own. -/
def ebdaAddr : Nat :=
  let addr := v.bytes.get16 0x40E * 0x10 &&& 0x000FFFFF
  if addr % 16 ≠ 0 then addr + (16 - addr % 16) else addr

def biosRoStart : Nat := 0x0E0000
def biosRoEnd : Nat := 0x0FFFFF

def acpiRSDP : Except Stop Nat := do
  let rsdp ← v.findSignature (1 * KB / 16) v.ebdaAddr
  if rsdp = 0 then v.findSignature ((biosRoEnd + 1 - biosRoStart) / 16) biosRoStart
  else return rsdp

/-- The sum of `n` bytes, in a byte. -/
def checksum (a n : Nat) : Except Stop Nat :=
  (List.range n).foldlM (fun sum i => do return (sum + (← v.read8 (a + i))) % 2 ^ 8) 0

def checkRsdp (rsdp : Nat) : Except Stop Bool := do
  if (← v.read64 rsdp) ≠ rsdpSignature then return false
  return (← v.checksum rsdp sizeofRsdp) == 0

def checkXsdp (xsdp : Nat) : Except Stop Bool := v.checkRsdp xsdp

def acpiInit (cache : AcpiCache) : Except Stop (Bool × AcpiCache) := do
  let rsdp ← v.acpiRSDP
  let isAcpi2 := (← v.read8 (rsdp + 15)) == acpiRevision2
  let xsdp := if isAcpi2 then rsdp else cache.cachedXsdp
  let ok ← if isAcpi2 then v.checkXsdp xsdp else v.checkRsdp rsdp
  if ok then return (true, ⟨rsdp, xsdp⟩) else return (false, ⟨0, 0⟩)

/-! ## The root table -/

def getAcpiTableHeaderlessLenght (table : Nat) : Except Stop Nat := do
  return sub64 (← v.read32 (table + 4)) acpiHeaderSize

/-- The entry of the root table at an offset, with the offset as event. -/
def readEntry (table width offset : Nat) : Traced Stop Nat Nat :=
  ⟨[offset], if width = 8 then v.read64 (add64 table offset) else v.read32 (add64 table offset)⟩

/-- The loop of `get_table_header` from entry `i` on. -/
def findTable (signature table width : Nat) : (entries i : Nat) → Traced Stop Nat Nat
  | 0, _ => pure 0
  | entries + 1, i => do
    let header ← v.readEntry table width (acpiHeaderSize + i * width)
    let found ← (⟨[], v.read32 header⟩ : Traced Stop Nat Nat)
    if found = signature then return header else findTable signature table width entries (i + 1)

def getTableHeader (cache : AcpiCache) (signature : Nat) : Traced Stop Nat Nat :=
  let root (pointer : Except Stop Nat) (width : Nat) : Traced Stop Nat Nat := do
    let table ← (⟨[], pointer⟩ : Traced Stop Nat Nat)
    let lenght ← (⟨[], v.getAcpiTableHeaderlessLenght table⟩ : Traced Stop Nat Nat)
    v.findTable signature table width (lenght / width) 0
  if cache.cachedRsdp = 0 ∧ cache.cachedXsdp = 0 then .stop (.panic .failedAssert)
  else if cache.cachedXsdp ≠ 0 then root (v.read64 (cache.cachedXsdp + 24)) 8
  else root (v.read32 (cache.cachedRsdp + 16)) 4

end KernelView

end GarbageOS
