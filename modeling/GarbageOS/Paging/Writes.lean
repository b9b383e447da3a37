import GarbageOS.Lib.Log
import GarbageOS.Paging.Effects

/-!
# Which pages the paging code writes

`writtenPages` is the log of the pages whose leaf entry was written: mapping and
unmapping a page write its entry, and nothing else in the paging code or the
frame allocator does.
-/

namespace GarbageOS

open Lib

def writtenPages (k : Kernel) : List Nat := k.cpu.pteWrites.map Prod.snd

/-- A log of this CPU that holding a spinlock is not entered in. -/
class CpuLog {γ : Type} (log : Kernel → List γ) : Prop where
  shared (k : Kernel) (sh : Shared) : log { k with sh := sh } = log k
  locked (k : Kernel) (l : Lock) : log (k.locked l) = log k
  unlocked (k : Kernel) (l : Lock) (interrupts : Bool) : log (k.unlocked l interrupts) = log k

instance {γ : Type} {log : Kernel → List γ} [h : CpuLog log] : TableKeeps (SameLog log) where
  unlock hr := (h.unlocked ..).trans (Eq.trans hr (h.locked ..))
  frames _ _ := h.shared ..
  pmem _ _ := h.shared ..

instance : CpuLog writtenPages := ⟨fun _ _ => rfl, fun _ _ => rfl, fun _ _ _ => rfl⟩

instance (paddr : Nat) : Kept (SameLog writtenPages) (deallocFrame paddr) :=
  ⟨.bind (.modify fun _ => rfl) fun _ => Kept.keeps⟩

theorem writes_writePte (root vaddr entry value : Nat) :
    Emits writtenPages (writePte root vaddr entry value) [vaddr / pageSize] :=
  .bind .silent fun _ => .modify fun _ => rfl

theorem writes_pagingMap (ps vaddr paddr flags : Nat) :
    Emits writtenPages (pagingMap ps vaddr paddr flags) [vaddr / pageSize] := by
  unfold pagingMap
  exact .bind .silent fun _ => .bind .silent fun _ => writes_writePte _ _ _ _

theorem writes_invalidatePagingMapping (ps vaddr : Nat) :
    Emits writtenPages (invalidatePagingMapping ps vaddr) [vaddr / pageSize] := by
  unfold invalidatePagingMapping
  exact .bind .silent fun _ => .bind .silent fun _ => .bind .silent fun _ => writes_writePte _ _ _ _

theorem writes_copyPagingEntry (src dst vaddr newFlags : Nat) :
    Emits writtenPages (copyPagingEntry src dst vaddr newFlags) [vaddr / pageSize] := by
  unfold copyPagingEntry
  exact .bind .silent fun _ => .bind .silent fun _ => .bind .silent fun _ => .bind .silent fun _ =>
    .bind .silent fun _ => writes_writePte _ _ _ _

theorem writes_forPages {size : Nat} {body : Nat → KM Unit} {page : Nat → Nat}
    (h : ∀ i, Emits writtenPages (body i) [page i]) :
    Emits writtenPages (forPages size body) ((List.range (pageCount size)).map page) := by
  unfold forPages
  rw [List.range_eq_range', ← List.append_nil (List.map _ _)]
  exact .bind (Emits.forRange h _ _) fun _ => .silent

end GarbageOS
