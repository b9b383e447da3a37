import GarbageOS.Kernel.Defs
import GarbageOS.Lib.Bytes
import Mathlib.Data.List.Defs
import Mathlib.Logic.Function.Basic

/-!
# `elf.c`

The segments of the kernel image that the boot loader has loaded. One function counts
them, another stores as many as a buffer has room for; each walks the program headers on
its own. `setup_virtual_memory` maps the segments from a buffer on its stack.
-/

namespace GarbageOS

open Lib Function

def ptLoad : Nat := 1

structure ElfLoadedSegment where
  executable : Bool
  writeable : Bool
  readable : Bool
  vaddr : Nat
  size : Nat

section

variable (mem : Bytes) (header : Nat)

def elfValidateHeader : Bool :=
  mem.get8 header == 0x7f && mem.get8 (header + 1) == 'E'.toNat &&
    mem.get8 (header + 2) == 'L'.toNat && mem.get8 (header + 3) == 'F'.toNat &&
    mem.get8 (header + 4) == 2 && mem.get8 (header + 5) == 1 && mem.get8 (header + 6) == 1 &&
    mem.get32 (header + 0x14) == 1

def ePhoff : Nat := mem.get64 (header + 0x20)
def ePhentsize : Nat := mem.get16 (header + 0x36)
def ePhnum : Nat := mem.get16 (header + 0x38)

/-- The segment of the program header at `pheader`. -/
def segmentAt (pheader : Nat) : ElfLoadedSegment where
  executable := mem.get32 (pheader + 4) &&& 1 != 0
  writeable := mem.get32 (pheader + 4) &&& 2 != 0
  readable := mem.get32 (pheader + 4) &&& 4 != 0
  vaddr := mem.get64 (pheader + 0x10)
  size := mem.get64 (pheader + 0x28)

/-- The loop of `elf_get_number_of_loaded_entries` over the headers that are left. -/
def countLoaded (phentsize : Nat) : (left pheader counter : Nat) → Nat
  | 0, _, counter => counter
  | left + 1, pheader, counter =>
    countLoaded phentsize left (add64 pheader phentsize)
      (if mem.get32 pheader = ptLoad then (counter + 1) % 2 ^ 16 else counter)

def elfGetNumberOfLoadedEntries : Nat :=
  countLoaded mem (ePhentsize mem header) (ePhnum mem header) (add64 header (ePhoff mem header)) 0

/-- The loop of `elf_get_loaded_entries`. A place that is `none` was never stored to. -/
def storeLoaded (phentsize bufferSize : Nat) : (left pheader bufferIndex : Nat) →
    (Nat → Option ElfLoadedSegment) → Nat → Option ElfLoadedSegment
  | 0, _, _, outBuffer => outBuffer
  | left + 1, pheader, bufferIndex, outBuffer =>
    if bufferIndex < bufferSize then
      if mem.get32 pheader = ptLoad then
        storeLoaded phentsize bufferSize left (add64 pheader phentsize) ((bufferIndex + 1) % 2 ^ 32)
          (update outBuffer bufferIndex (some (segmentAt mem pheader)))
      else storeLoaded phentsize bufferSize left (add64 pheader phentsize) bufferIndex outBuffer
    else outBuffer

def elfGetLoadedEntries (outBuffer : Nat → Option ElfLoadedSegment) (bufferSize : Nat) :
    Nat → Option ElfLoadedSegment :=
  storeLoaded mem (ePhentsize mem header) bufferSize (ePhnum mem header)
    (add64 header (ePhoff mem header)) 0 outBuffer

def maxSegments : Nat := 32

/-- The segments that the loop of `setup_virtual_memory` reads from its buffer, if its assertions
hold. -/
def segmentsRead : Option (List (Option ElfLoadedSegment)) :=
  if elfValidateHeader mem header ∧ elfGetNumberOfLoadedEntries mem header ≤ maxSegments then
    some ((List.range (elfGetNumberOfLoadedEntries mem header)).map
      (elfGetLoadedEntries mem header (fun _ => none) maxSegments))
  else none

/-! ## The segments -/

/-- The segments of `left` headers from `pheader` on. -/
def loadedFrom (phentsize left pheader : Nat) : List ElfLoadedSegment :=
  ((List.iterate (add64 · phentsize) pheader left).filter (mem.get32 · = ptLoad)).map
    (segmentAt mem)

/-- The segments of the `PT_LOAD` entries, in the order of the table. -/
def loadedSegments : List ElfLoadedSegment :=
  loadedFrom mem (ePhentsize mem header) (ePhnum mem header) (add64 header (ePhoff mem header))

end

variable {mem : Bytes} {header phentsize bufferSize left pheader counter bufferIndex : Nat}
  {outBuffer : Nat → Option ElfLoadedSegment}

theorem loadedFrom_succ : loadedFrom mem phentsize (left + 1) pheader =
    if mem.get32 pheader = ptLoad then
      segmentAt mem pheader :: loadedFrom mem phentsize left (add64 pheader phentsize)
    else loadedFrom mem phentsize left (add64 pheader phentsize) := by
  unfold loadedFrom
  rw [List.iterate, List.filter_cons]
  split
  · next h => rw [if_pos (of_decide_eq_true h), List.map_cons]
  · next h => rw [if_neg fun hload => h (decide_eq_true hload)]

theorem countLoaded_eq (h : counter + left < 2 ^ 16) :
    countLoaded mem phentsize left pheader counter =
      counter + (loadedFrom mem phentsize left pheader).length := by
  induction left generalizing pheader counter with
  | zero => rfl
  | succ left ih =>
    rw [countLoaded, loadedFrom_succ]
    split
    · rw [Nat.mod_eq_of_lt (by omega), ih (by omega), List.length_cons]
      omega
    · exact ih (by omega)

/-- The segments go to the places from `bufferIndex` on, as far as there is room. -/
theorem storeLoaded_eq (h : bufferIndex + left < 2 ^ 32) (i : Nat) :
    storeLoaded mem phentsize bufferSize left pheader bufferIndex outBuffer i =
      if bufferIndex ≤ i ∧ i < min bufferSize
          (bufferIndex + (loadedFrom mem phentsize left pheader).length) then
        (loadedFrom mem phentsize left pheader)[i - bufferIndex]?
      else outBuffer i := by
  induction left generalizing pheader bufferIndex outBuffer with
  | zero =>
    have hnone : loadedFrom mem phentsize 0 pheader = [] := rfl
    rw [if_neg (by rw [hnone, List.length_nil]; omega)]
    rfl
  | succ left ih =>
    rw [storeLoaded]
    by_cases hroom : bufferIndex < bufferSize
    · rw [if_pos hroom, loadedFrom_succ]
      by_cases hload : mem.get32 pheader = ptLoad
      · rw [if_pos hload, if_pos hload, Nat.mod_eq_of_lt (by omega), ih (by omega),
          List.length_cons]
        by_cases hi : i = bufferIndex
        · subst hi
          rw [if_neg (by omega), update_self, if_pos (by omega), Nat.sub_self]
          rfl
        · rw [update_of_ne hi]
          refine if_ctx_congr (by omega) (fun hin => ?_) fun _ => rfl
          rw [show i - bufferIndex = i - (bufferIndex + 1) + 1 by omega, List.getElem?_cons_succ]
      · rw [if_neg hload, if_neg hload]
        exact ih (by omega)
    · rw [if_neg hroom, if_neg (by omega)]

/-- Both loops select the `PT_LOAD` entries in the order of the table, nothing is stored behind
them, and `setup_virtual_memory` reads exactly them. -/
theorem loaded_entries_stored (mem : Bytes) (header : Nat) :
    elfGetNumberOfLoadedEntries mem header = (loadedSegments mem header).length ∧
    (∀ outBuffer bufferSize i, elfGetLoadedEntries mem header outBuffer bufferSize i =
      if i < min bufferSize (elfGetNumberOfLoadedEntries mem header) then
        (loadedSegments mem header)[i]?
      else outBuffer i) ∧
    segmentsRead mem header =
      if elfValidateHeader mem header ∧ elfGetNumberOfLoadedEntries mem header ≤ maxSegments then
        some ((loadedSegments mem header).map some)
      else none := by
  have hphnum : ePhnum mem header < 2 ^ 16 := Bytes.get16_lt
  have hcount : elfGetNumberOfLoadedEntries mem header = (loadedSegments mem header).length := by
    rw [elfGetNumberOfLoadedEntries, countLoaded_eq (by omega), Nat.zero_add]
    rfl
  have hstored : ∀ outBuffer bufferSize i, elfGetLoadedEntries mem header outBuffer bufferSize i =
      if i < min bufferSize (elfGetNumberOfLoadedEntries mem header) then
        (loadedSegments mem header)[i]?
      else outBuffer i := by
    intro outBuffer bufferSize i
    rw [elfGetLoadedEntries, storeLoaded_eq (by omega), hcount, Nat.zero_add, Nat.sub_zero]
    exact if_congr (by simp [loadedSegments]) rfl rfl
  refine ⟨hcount, hstored, if_ctx_congr Iff.rfl (fun hok => congrArg some ?_) fun _ => rfl⟩
  have hroom := hok.2
  rw [hcount] at hroom ⊢
  refine List.ext_getElem (by simp) fun i hi _ => ?_
  rw [List.length_map, List.length_range] at hi
  rw [List.getElem_map, List.getElem_map, List.getElem_range, hstored, hcount, if_pos (by omega),
    List.getElem?_eq_getElem hi]

end GarbageOS
