import GarbageOS.Lib.Bytes

/-!
# The first stage of the boot loader

`first_stage_boot.asm` looks for the first partition entry that is marked bootable, in the
copy of the MBR that it has made at `0x600`. The end of the table is the offset of the MBR's
magic number, which the pointer into the copy meets only after it has gone once around the
segment.
-/

namespace GarbageOS.FirstStage

open Lib

def firstPartitionEntryOffset : Nat := 446
def magicNumberOffset : Nat := 510
def relocationAddress : Nat := 0x600
/-- The code and its data end here (`times 440-($-$$) db 0`). -/
def codeSize : Nat := 440

inductive Outcome
  | load (lba : Nat)
  | error
  | running

/-- The bytes that were compared with `0x80`, and how the search ended. -/
structure Search where
  inspected : List Nat
  outcome : Outcome

section

variable (mem : Bytes) (dapLowerLba : Nat)

/-- `load_entry`: the LBA in the packet for the BIOS. -/
def loadEntry (si : Nat) : Nat :=
  let mem := mem.put16 dapLowerLba (mem.get16 ((si + 8) % 2 ^ 16))
  let mem := mem.put16 (dapLowerLba + 2) (mem.get16 ((si + 8 + 2) % 2 ^ 16))
  mem.get32 dapLowerLba

def findEntry : (steps si : Nat) → Search
  | 0, _ => ⟨[], .running⟩
  | steps + 1, si =>
    if mem si = 0x80 then ⟨[si], .load (loadEntry mem dapLowerLba si)⟩
    else
      let next := (si + 16) % 2 ^ 16
      if next ≠ magicNumberOffset then
        let rest := findEntry steps next
        ⟨si :: rest.inspected, rest.outcome⟩
      else ⟨[si], .error⟩

/-- The search from the first entry on, which ends before it comes to the same entry again. -/
def search : Search :=
  findEntry mem dapLowerLba 4096 (firstPartitionEntryOffset + relocationAddress)

end

def entry (i : Nat) : Nat := relocationAddress + firstPartitionEntryOffset + 16 * i

def Marked (mem : Bytes) (i : Nat) : Prop := mem (entry i) = 0x80

instance (mem : Bytes) (i : Nat) : Decidable (Marked mem i) := inferInstanceAs (Decidable (_ = _))

/-- Only the table is inspected, and its first marked entry is loaded. -/
structure ChoosesPartition (mem : Bytes) (dapLowerLba : Nat) : Prop where
  inspected : ∀ a ∈ (search mem dapLowerLba).inspected, ∃ i < 4, a = entry i
  outcome : (search mem dapLowerLba).outcome =
    match (List.range 4).find? (Marked mem ·) with
    | some i => .load (mem.get32 (entry i + 8))
    | none => .error

variable {mem : Bytes} {dapLowerLba steps si i : Nat}

theorem findEntry_marked (h : mem si = 0x80) : findEntry mem dapLowerLba (steps + 1) si =
    ⟨[si], .load (loadEntry mem dapLowerLba si)⟩ := if_pos h

theorem findEntry_next (h : mem si ≠ 0x80) (hend : (si + 16) % 2 ^ 16 ≠ magicNumberOffset) :
    findEntry mem dapLowerLba (steps + 1) si =
      ⟨si :: (findEntry mem dapLowerLba steps ((si + 16) % 2 ^ 16)).inspected,
        (findEntry mem dapLowerLba steps ((si + 16) % 2 ^ 16)).outcome⟩ := by
  rw [findEntry, if_neg h]
  exact if_pos hend

theorem findEntry_end (h : mem si ≠ 0x80) (hend : (si + 16) % 2 ^ 16 = magicNumberOffset) :
    findEntry mem dapLowerLba (steps + 1) si = ⟨[si], .error⟩ := by
  rw [findEntry, if_neg h]
  exact if_neg fun hne => hne hend

/-- The search always ends: the pointer meets the offset after at most 4096 entries. -/
theorem findEntry_ends : ∀ {steps si : Nat}, si % 16 = 14 → si < 2 ^ 16 →
    (magicNumberOffset + 2 ^ 16 - si - 1) % 2 ^ 16 < 16 * steps →
    (findEntry mem dapLowerLba steps si).outcome ≠ .running
  | 0, _, _, _, h => absurd h (Nat.not_lt_zero _)
  | steps + 1, si, hmod, hlt, h => by
    by_cases hmark : mem si = 0x80
    · rw [findEntry_marked hmark]
      nofun
    · by_cases hend : (si + 16) % 2 ^ 16 = magicNumberOffset
      · rw [findEntry_end hmark hend]
        nofun
      · rw [findEntry_next hmark hend]
        unfold magicNumberOffset at h hend
        exact findEntry_ends (by omega) (by omega) (by unfold magicNumberOffset; omega)

theorem search_ends : (search mem dapLowerLba).outcome ≠ .running :=
  findEntry_ends (by decide) (by decide) (by decide)

theorem mem_inspected : si ∈ (findEntry mem dapLowerLba (steps + 1) si).inspected := by
  rw [findEntry]
  split
  · exact List.mem_singleton_self si
  · dsimp only
    split
    · exact List.mem_cons_self
    · exact List.mem_singleton_self si

theorem findEntry_entry (h : ¬ Marked mem i) (hi : i < 4) :
    findEntry mem dapLowerLba (steps + 1) (entry i) =
      ⟨entry i :: (findEntry mem dapLowerLba steps (entry (i + 1))).inspected,
        (findEntry mem dapLowerLba steps (entry (i + 1))).outcome⟩ := by
  have hnext : (entry i + 16) % 2 ^ 16 = entry (i + 1) := by
    unfold entry relocationAddress firstPartitionEntryOffset
    omega
  have hend : (entry i + 16) % 2 ^ 16 ≠ magicNumberOffset := by
    rw [hnext]
    unfold entry relocationAddress firstPartitionEntryOffset magicNumberOffset
    omega
  rw [findEntry_next h hend, hnext]

theorem findEntry_from : ∀ {n i steps : Nat}, i + n ≤ 4 →
    (∀ j, i ≤ j → j < i + n → ¬ Marked mem j) →
    findEntry mem dapLowerLba (steps + n) (entry i) =
      ⟨(List.range' i n).map entry ++ (findEntry mem dapLowerLba steps (entry (i + n))).inspected,
        (findEntry mem dapLowerLba steps (entry (i + n))).outcome⟩
  | 0, _, _, _, _ => rfl
  | n + 1, i, steps, hn, h => by
    have hrest := @findEntry_from n (i + 1) steps (by omega) fun j hlo hhi =>
      h j (by omega) (by omega)
    rw [← Nat.add_assoc, findEntry_entry (h i (Nat.le_refl _) (by omega)) (by omega), hrest,
      show i + 1 + n = i + (n + 1) by omega]
    rfl

section

variable (hdap : dapLowerLba + 4 ≤ relocationAddress + codeSize)

include hdap

theorem loadEntry_entry (hi : i < 4) :
    loadEntry mem dapLowerLba (entry i) = mem.get32 (entry i + 8) := by
  have hbehind : dapLowerLba + 4 ≤ entry i := by
    unfold entry relocationAddress firstPartitionEntryOffset
    unfold relocationAddress codeSize at hdap
    omega
  have hsmall : entry i + 10 < 2 ^ 16 := by
    unfold entry relocationAddress firstPartitionEntryOffset
    omega
  unfold loadEntry
  dsimp only
  rw [Nat.mod_eq_of_lt (by omega), Nat.mod_eq_of_lt hsmall, Bytes.get32, Bytes.get16_put16_self,
    Bytes.get16_congr fun j _ => Bytes.put16_out (by omega), Bytes.get16_put16_self,
    Bytes.get16_congr fun j _ => Bytes.put16_out (by omega),
    Nat.mod_eq_of_lt Bytes.get16_lt, Nat.mod_eq_of_lt Bytes.get16_lt]
  rfl

theorem choosesPartition_of_find (hfind : (List.range 4).find? (Marked mem ·) = some i) :
    ChoosesPartition mem dapLowerLba := by
  obtain ⟨hmark, hi, hfirst⟩ := List.find?_range_eq_some.1 hfind
  have hi : i < 4 := List.mem_range.1 hi
  have hfrom := @findEntry_from mem dapLowerLba i 0 (4096 - i - 1 + 1) (by omega)
    fun j _ hj => by simpa using hfirst j (by omega)
  rw [show 4096 - i - 1 + 1 + i = 4096 by omega, Nat.zero_add,
    findEntry_marked (of_decide_eq_true hmark), loadEntry_entry hdap hi] at hfrom
  refine ⟨fun a ha => ?_, ?_⟩
  · rw [show search mem dapLowerLba = _ from hfrom, ← List.map_singleton, ← List.map_append] at ha
    obtain ⟨j, hj, rfl⟩ := List.mem_map.1 ha
    rw [List.mem_append, List.mem_range'_1, List.mem_singleton] at hj
    exact ⟨j, by omega, rfl⟩
  · rw [hfind, show search mem dapLowerLba = _ from hfrom]

/-- The partition is chosen rightly exactly if one of the four entries is marked. -/
theorem choosesPartition_iff : ChoosesPartition mem dapLowerLba ↔ ∃ i < 4, Marked mem i := by
  cases hfind : (List.range 4).find? (Marked mem ·) with
  | some i =>
    obtain ⟨hmark, hi, -⟩ := List.find?_range_eq_some.1 hfind
    exact iff_of_true (choosesPartition_of_find hdap hfind)
      ⟨i, List.mem_range.1 hi, of_decide_eq_true hmark⟩
  | none =>
    have hnone : ∀ j < 4, ¬ Marked mem j := by simpa using hfind
    refine iff_of_false (fun h => ?_) fun ⟨j, hj, hmark⟩ => hnone j hj hmark
    -- the byte behind the table is inspected
    have hfrom := @findEntry_from mem dapLowerLba 4 0 4092 (by decide)
      fun j _ hj => hnone j (by omega)
    have hfifth : entry 4 ∈ (search mem dapLowerLba).inspected := by
      rw [show search mem dapLowerLba = _ from hfrom]
      exact List.mem_append_right _ mem_inspected
    obtain ⟨i, hi, he⟩ := h.inspected _ hfifth
    unfold entry at he
    omega

end

/-- An MBR whose second entry is marked and starts at sector 2048. -/
def secondMarked : Bytes := (Bytes.put8 (fun _ => 0) (entry 1) 0x80).put32 (entry 1 + 8) 2048

theorem choosesPartition_secondMarked : ChoosesPartition secondMarked 0x700 :=
  (choosesPartition_iff (by decide)).2 ⟨1, by decide, by decide⟩

/-- Without a marked entry the search goes on behind the signature, and loads what it finds there. -/
theorem exists_entry_behind_table : ∃ mem, mem.get16 (entry 4) = 0xaa55 ∧ (∀ i < 4, ¬ Marked mem i) ∧
    (∃ lba, (search mem 0x700).outcome = .load lba) ∧ ¬ ChoosesPartition mem 0x700 := by
  refine ⟨(Bytes.put16 (fun _ => 0) (entry 4) 0xaa55).put8 (entry 5) 0x80, by decide, by decide,
    ⟨_, rfl⟩, fun h => ?_⟩
  obtain ⟨i, hi, he⟩ := h.inspected (entry 5) (by decide)
  unfold entry at he
  omega

end GarbageOS.FirstStage
