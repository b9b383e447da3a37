import GarbageOS.Lib.Memory
import GarbageOS.Lib.Exec

/-!
# Kernel constants and ways to stop

The constants of `kdefs.h` and `memory_defs.h`, the error codes `kpanic` is
called with, the spinlocks of the memory subsystem, and pointers to virtual
memory descriptors.
-/

namespace GarbageOS

open Lib

def pageSize : Nat := 4096
def KB : Nat := 1024
def MB : Nat := 1024 * 1024
def GB : Nat := MB * KB

def kernelHeapSize : Nat := 4 * MB
def kernelHeapVmmLowSecurityPadding : Nat := 16 * KB
def kernelHeapVmmMaxSize : Nat := 8 * GB
def kernelHeapGrowthStep : Nat := 16 * MB

/-- The general error codes used in `kpanic`. -/
inductive ErrorCode where
  | frameAllocatorError
  | vbeError
  | freeMemBootloaderError
  | kioError
  | failedAssert
  | stackSmashing
  | unrecoverableGpf
  | unrecoverablePageFault
  | heapOutOfMem
  | heapCorrupted
  | notImplementedError
  | vmmError
  | apicError
  | genericError
  deriving DecidableEq

/-- The spinlocks of the memory subsystem; each shootdown queue has its own. -/
inductive Lock where
  | kheap
  | vmm
  | frameAllocator
  | kernelData
  | queue (i : Nat)
  | pageFault
  deriving DecidableEq

inductive Stop where
  /-- `kpanic` (or a failed `KASSERT`), which halts the CPU. -/
  | panic (code : ErrorCode)
  /-- Spinning on a lock that this CPU holds. -/
  | deadlock (l : Lock)
  | nullAccess
  /-- A loop whose condition never becomes false. -/
  | loops
  deriving DecidableEq

def kassert {σ : Type} (b : Bool) : EStateM Stop σ Unit := check b (.panic .failedAssert)

def kpanic {σ α : Type} (code : ErrorCode) : EStateM Stop σ α := throw (.panic code)

theorem run_kassert_true {σ : Type} {b : Bool} {s : σ} (h : b = true) :
    (kassert b).run s = .ok () s := run_check_true h

theorem run_kassert_pos {σ α : Type} {b : Bool} {f : Unit → EStateM Stop σ α} {s : σ}
    (h : b = true) : (kassert b >>= f).run s = (f ()).run s := run_ok_bind (run_kassert_true h)

@[simp] theorem run_kassert_ok {σ : Type} {b : Bool} {s s' : σ} {u : Unit} :
    (kassert b).run s = .ok u s' ↔ b = true ∧ s' = s := run_check_ok

theorem run_kassert_bind {σ α : Type} {b : Bool} {f : Unit → EStateM Stop σ α} {s s' : σ}
    {a : α} : (kassert b >>= f).run s = .ok a s' ↔ b = true ∧ (f ()).run s = .ok a s' :=
  run_check_bind

@[simp] theorem run_kpanic_ok {σ α : Type} {code : ErrorCode} {s s' : σ} {a : α} :
    (kpanic code : EStateM Stop σ α).run s = .ok a s' ↔ False := run_throw_ok

/-- A pointer to a `VirtualMemoryDescriptor`: one of the statically allocated
early descriptors, or a block of the kernel heap. -/
inductive DescPtr where
  | null
  | early (i : Nat)
  | heap (a : Nat)
  deriving DecidableEq

/-- `VMemHandle`. There is one kernel `VirtualMemoryManager`, so a handle is
its descriptor pointer and the invalid handle is the null pointer. -/
abbrev VMemHandle := DescPtr

end GarbageOS
