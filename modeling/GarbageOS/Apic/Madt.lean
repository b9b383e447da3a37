import GarbageOS.Kernel.Defs
import GarbageOS.Lib.Fill
import GarbageOS.Lib.Tiling

/-!
# `madt.c`: walking the interrupt controller structures

The MADT is a run of bytes: a header, whose length field covers the whole table,
and then records (`ICS`, interrupt controller structures) that each start with a
type and a length byte. A walk goes from record to record by the length bytes
until it leaves the table. Record pointers are offsets from the table's start.
-/

namespace GarbageOS

open Lib

abbrev Madt := Nat → BitVec 8

namespace Madt

def read8 (t : Madt) (off : Nat) : Nat := (t off).toNat

def read16 (t : Madt) (off : Nat) : Nat := t.read8 off + t.read8 (off + 1) * 2 ^ 8

def read32 (t : Madt) (off : Nat) : Nat :=
  t.read8 off + t.read8 (off + 1) * 2 ^ 8 + t.read8 (off + 2) * 2 ^ 16 + t.read8 (off + 3) * 2 ^ 24

/-- `header.lenght`, in the `ACPI_description_header` the table starts with. -/
def length (t : Madt) : Nat := t.read32 4

/-- `sizeof(MADT)`: the description header, the controller address and the flags. -/
def size : Nat := 44

end Madt

def icsTypeProcessorLocalApic : Nat := 0
def icsTypeProcessorIoApic : Nat := 1
def icsTypeInterruptSourceOverride : Nat := 2
def icsTypeLocalApicNmi : Nat := 4

def localApicFlagEnabled : Nat := 1
def localApicFlagOnlineCapable : Nat := 1 <<< 1

def mpsIntiPolarityMask : Nat := 3
def mpsIntiPolarityBusConform : Nat := 0
def mpsIntiPolarityReserved : Nat := 2
def mpsIntiPolarityActiveLow : Nat := 3

def mpsIntiTriggerModeMask : Nat := 3 <<< 2
def mpsIntiTriggerModeBusConform : Nat := 0 <<< 2
def mpsIntiTriggerModeReserved : Nat := 2 <<< 2
def mpsIntiTriggerModeLevelTriggered : Nat := 3 <<< 2

namespace Madt

variable (t : Madt)
  {headers : List Nat}

/-! ## Fields of the records -/

def icsType (header : Nat) : Nat := t.read8 header

def icsLength (header : Nat) : Nat := t.read8 (header + 1)

/-- `ACPI_processor_UID`, at one place in `ICS_local_APIC` and `ICS_local_APIC_NMI`. -/
def processorUid (ics : Nat) : Nat := t.read8 (ics + 2)

def localApicId (ics : Nat) : Nat := t.read8 (ics + 3)

def localApicFlags (ics : Nat) : Nat := t.read32 (ics + 4)

def ioApicAddress (ics : Nat) : Nat := t.read32 (ics + 4)

def globalSystemInterruptBase (ics : Nat) : Nat := t.read32 (ics + 8)

def overrideBus (ics : Nat) : Nat := t.read8 (ics + 2)

def overrideSource (ics : Nat) : Nat := t.read8 (ics + 3)

def overrideInterrupt (ics : Nat) : Nat := t.read32 (ics + 4)

def overrideFlags (ics : Nat) : Nat := t.read16 (ics + 8)

def nmiFlags (ics : Nat) : Nat := t.read16 (ics + 3)

def nmiLint (ics : Nat) : Nat := t.read8 (ics + 5)

/-! ## The walk -/

def getFirstICSHeader : Option Nat := if size ≥ t.length then none else some size

def getNextICSHeader (header : Nat) : Option Nat :=
  let next := header + t.icsLength header
  if next ≥ t.length then none else some next

variable {α : Type}

/-- The loop over the records from `header` on. A record of length 0 is its own
successor; every other step advances by a byte at least, so a walk that is not
over after as many steps as the table has bytes never ends. -/
def forICSFrom (body : Nat → α → Except Stop (ForInStep α)) :
    (steps : Nat) → (header : Option Nat) → α → Except Stop α
  | _, none, a => .ok a
  | 0, some _, _ => .error .loops
  | steps + 1, some header, a => do
    match ← body header a with
    | .done a => .ok a
    | .yield a => forICSFrom body steps (t.getNextICSHeader header) a

/-- `for(header = get_first_ICS_header(madt); header != NULL; ...)`. -/
def forICS (a : α) (body : Nat → α → Except Stop (ForInStep α)) : Except Stop α :=
  t.forICSFrom body t.length t.getFirstICSHeader a

/-- A local APIC that is enabled or can be enabled. -/
def isUsableLapic (header : Nat) : Bool :=
  t.icsType header == icsTypeProcessorLocalApic &&
    t.localApicFlags header &&& (localApicFlagEnabled ||| localApicFlagOnlineCapable) != 0

def countNumberOfLocalApic : Except Stop Nat :=
  t.forICS 0 fun header count =>
    .ok (.yield (if t.isUsableLapic header then count + 1 else count))

/-! ## Well-formed tables -/

/-- The size of the structure that a record of a type holds; of the types without
a structure in `madt.h` the record header is all that is known. -/
def structSize : (type : Nat) → Nat
  | 0 => 8
  | 1 => 12
  | 2 => 10
  | 3 => 8
  | 4 => 6
  | 5 => 12
  | 9 => 16
  | 10 => 12
  | _ => 2

theorem two_le_structSize (type : Nat) : 2 ≤ structSize type := by
  unfold structSize; split <;> decide

/-- The records at `headers` tile the table behind its header, and each is long
enough for its structure. -/
structure HasRecords (headers : List Nat) : Prop where
  tiles : Tiles id (fun header => header + t.icsLength header) size headers t.length
  covers : ∀ header ∈ headers, structSize (t.icsType header) ≤ t.icsLength header

variable {t}

theorem HasRecords.two_le (h : t.HasRecords headers) :
    ∀ header ∈ headers, 2 ≤ t.icsLength header := fun header hmem =>
  Nat.le_trans (two_le_structSize _) (h.covers header hmem)

/-- From a record's start to the end of the table the walk visits the records in order. -/
theorem forICSFrom_tiles {body : Nat → α → Except Stop (ForInStep α)} {start steps : Nat} {a : α}
    (ht : Tiles id (fun header => header + t.icsLength header) start headers t.length)
    (hpos : ∀ header ∈ headers, 2 ≤ t.icsLength header) (hsteps : headers.length ≤ steps) :
    t.forICSFrom body steps (if start ≥ t.length then none else some start) a =
      forIn headers a body := by
  induction headers generalizing start steps a with
  | nil =>
    rw [if_pos (show start ≥ t.length from Nat.le_of_eq (tiles_nil.1 ht).symm)]
    cases steps <;> rfl
  | cons header rest ih =>
    obtain ⟨hstart, hrest⟩ := ht
    obtain rfl : header = start := hstart
    have hlen := hpos header List.mem_cons_self
    have hend : header + t.icsLength header ≤ t.length :=
      (hrest.bounds fun x _ => Nat.le_add_right x _).1
    rw [if_neg (by omega)]
    obtain ⟨steps, rfl⟩ : ∃ m, steps = m + 1 := ⟨steps - 1, by simp at hsteps; omega⟩
    rw [List.forIn_cons]
    show (body header a >>= _) = _
    apply bind_congr
    intro r
    cases r with
    | done b => rfl
    | yield b =>
      exact ih hrest (fun x hx => hpos x (List.mem_cons_of_mem _ hx)) (by simpa using hsteps)

/-- The walk of a well-formed table ends and visits its records in table order. -/
theorem HasRecords.forICS_eq (h : t.HasRecords headers) {a : α}
    {body : Nat → α → Except Stop (ForInStep α)} : t.forICS a body = forIn headers a body := by
  apply forICSFrom_tiles h.tiles h.two_le
  have := h.tiles.length_le (k := 2) fun x hx => Nat.add_le_add_left (h.two_le x hx) x
  omega

theorem HasRecords.countNumberOfLocalApic_eq (h : t.HasRecords headers) :
    t.countNumberOfLocalApic = .ok (headers.countP t.isUsableLapic) := by
  rw [countNumberOfLocalApic, h.forICS_eq]
  exact forIn_count headers

end Madt

end GarbageOS
