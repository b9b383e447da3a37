import GarbageOS.Boot.Ranges
import GarbageOS.Vmm.Runs

/-!
# Which pages the identity mapping loads

`setup_virtual_memory` loads every range of RAM without comparing it with the
identity partition. For each usable item the pages that are loaded are known
exactly; they leave the partition when the item goes past its end, and when an
item at the very end of the address space is rounded to address 0.
-/

namespace GarbageOS

open Lib

/-- The pages that `load_identity_map_pages` maps for a range. -/
def loadedPages (range : PhysicalMemoryRange) : List Nat :=
  (List.range (addressPageCount range.startAddress (add64 range.startAddress range.size))).map
    fun i => add64 range.startAddress (i * pageSize)

def ramPages (range : PhysicalMemoryRange) : List Nat :=
  match identityLoad range with
  | some r => loadedPages r
  | none => []

/-- The pages that `setup_virtual_memory` loads through `get_ram_space`. -/
def identityPages (boot : BootLoaderData) : List Nat :=
  match getRamSpace boot with
  | .ok ranges => ranges.flatMap ramPages
  | .error _ => []

theorem mem_loadedPages {a n p : Nat} (ha : a % pageSize = 0) (hn : n % pageSize = 0) :
    p ∈ loadedPages ⟨a, n⟩ ↔ p % pageSize = 0 ∧ a ≤ p ∧ p + pageSize ≤ add64 a n := by
  have hend : add64 a n % pageSize = 0 := by
    unfold add64; simp only [pageSize] at ha hn ⊢; omega
  have hlt := add64_lt a n
  simp only [loadedPages, List.mem_map, List.mem_range, addressPageCount, pageCount]
  generalize add64 a n = e at hend hlt ⊢
  simp only [pageSize] at ha hend ⊢
  split
  · constructor
    · rintro ⟨i, hi, rfl⟩
      rw [add64_eq (by omega)]
      omega
    · rintro ⟨hp, hle, hpe⟩
      refine ⟨(p - a) / 4096, by omega, ?_⟩
      rw [add64_eq (by omega)]
      omega
  · constructor
    · rintro ⟨i, hi, -⟩
      omega
    · omega

/-- The pages loaded for a range of whole pages: never page 0. -/
theorem mem_ramPages {a n p : Nat} (ha : a % pageSize = 0) (hn : n % pageSize = 0)
    (hw : n < 2 ^ 64) :
    p ∈ ramPages ⟨a, n⟩ ↔ n ≠ 0 ∧ p % pageSize = 0 ∧ a ≤ p ∧ pageSize ≤ p ∧
      p + pageSize ≤ add64 a n := by
  unfold ramPages identityLoad
  simp only
  by_cases h0 : n = 0
  · simp [h0]
  · rw [if_neg h0]
    by_cases ha0 : a = 0
    · subst ha0
      have hsub : sub64 n pageSize = n - pageSize := by
        simp only [pageSize] at hn ⊢; unfold sub64; omega
      have hend : add64 pageSize (n - pageSize) = add64 0 n := by
        simp only [pageSize] at hn ⊢; unfold add64; omega
      rw [if_pos rfl]
      simp only
      rw [hsub, mem_loadedPages (Nat.mod_self _) (by simp only [pageSize] at hn ⊢; omega), hend]
      simp only [pageSize] at hn ⊢
      omega
    · rw [if_neg ha0]
      simp only
      rw [mem_loadedPages ha hn]
      simp only [pageSize] at ha ⊢
      omega

/-! ## The pages of one item -/

/-- The item covers an address; addresses wrap at `2^64`. -/
def MemoryMapItem.Covers (item : MemoryMapItem) (addr : Nat) : Prop :=
  sub64 addr item.baseAddr < item.size

/-- The page at `p` lies in the identity partition and inside a usable item. -/
def LoadedSoundly (boot : BootLoaderData) (p : Nat) : Prop :=
  (pageSize ≤ p ∧ p + pageSize ≤ identityMapVmemEnd) ∧
    ∃ item ∈ boot.mapItems, item.isUsable = true ∧
      ∀ addr, p ≤ addr → addr < p + pageSize → item.Covers addr

/-- The whole pages of an item end inside the identity partition, or there are
none below the end of the address space. An item that starts in the last page
goes on at address 0; it has to reach it and end inside the partition. -/
def StaysInPartition (item : MemoryMapItem) : Prop :=
  (pageUp item.baseAddr < 2 ^ 64 → pageDown item.stop ≤ pageUp item.baseAddr ∨
    2 ^ 64 ≤ pageDown item.stop ∨ pageDown item.stop ≤ identityMapVmemEnd) ∧
  (pageUp item.baseAddr = 2 ^ 64 → pageUp item.baseAddr ≤ item.stop ∧
    pageDown item.stop ≤ 2 ^ 64 + identityMapVmemEnd)

section

variable {item : MemoryMapItem} {p : Nat}

theorem mem_itemPages_of_le (hu : item.isUsable = true) (hb : item.baseAddr < 2 ^ 64)
    (hs : item.size < 2 ^ 64) (hroom : pageUp item.baseAddr ≤ item.stop) :
    p ∈ ramPages (alignRange item.range) ↔ p % pageSize = 0 ∧ pageSize ≤ p ∧
      pageUp item.baseAddr % 2 ^ 64 ≤ p ∧ p + pageSize ≤ pageDown item.stop % 2 ^ 64 ∧
      pageUp item.baseAddr < pageDown item.stop := by
  have hsize := item.isUsable_size hu
  have halign := @alignRange_of_le item.range (by simp only [MemoryMapItem.range]; omega) hb hs hroom
  simp only [MemoryMapItem.range] at halign
  change alignRange item.range = ⟨_, pageDown item.stop - _⟩ at halign
  rw [halign, mem_ramPages]
  all_goals
    simp only [pageUp, pageDown, MemoryMapItem.stop, pageSize] at hroom ⊢
  · have hend : add64 ((item.baseAddr + (4096 - 1)) / 4096 * 4096 % 2 ^ 64)
        ((item.baseAddr + item.size) / 4096 * 4096 - (item.baseAddr + (4096 - 1)) / 4096 * 4096) =
        (item.baseAddr + item.size) / 4096 * 4096 % 2 ^ 64 := by
      unfold add64; omega
    rw [hend]
    omega
  all_goals omega

/-- An item that ends before the next page boundary gets no pages, unless that
boundary is the end of the address space. -/
theorem mem_itemPages_of_lt (hu : item.isUsable = true) (hb : item.baseAddr < 2 ^ 64)
    (hroom : item.stop < pageUp item.baseAddr) :
    p ∈ ramPages (alignRange item.range) ↔ p % pageSize = 0 ∧ pageSize ≤ p ∧
      p + pageSize ≤ 2 ^ 64 - pageSize ∧ pageUp item.baseAddr = 2 ^ 64 := by
  have hsize := item.isUsable_size hu
  have halign := @alignRange_of_lt item.range (by simp only [MemoryMapItem.range]; omega) hroom hb
  rw [halign, mem_ramPages]
  all_goals
    simp only [pageUp, MemoryMapItem.range, MemoryMapItem.stop, pageSize] at hroom ⊢
  · unfold add64
    omega
  all_goals omega

theorem itemPages_sound {boot : BootLoaderData} (hi : item ∈ boot.mapItems)
    (hu : item.isUsable = true) (hb : item.baseAddr < 2 ^ 64) (hs : item.size < 2 ^ 64)
    (h : StaysInPartition item) (hp : p ∈ ramPages (alignRange item.range)) :
    LoadedSoundly boot p := by
  have hsize := item.isUsable_size hu
  obtain ⟨hlow, hwrap⟩ := h
  have hend : identityMapVmemEnd = 549755813888 := rfl
  by_cases hroom : pageUp item.baseAddr ≤ item.stop
  · obtain ⟨-, hp0, hle, hpe, hne⟩ := (mem_itemPages_of_le hu hb hs hroom).1 hp
    refine ⟨⟨hp0, ?_⟩, item, hi, hu, fun addr h1 h2 => ?_⟩
    · rw [hend] at hlow hwrap ⊢
      simp only [pageUp, pageDown, MemoryMapItem.stop, pageSize] at hlow hwrap hle hpe hne hroom ⊢
      omega
    · simp only [pageUp, pageDown, MemoryMapItem.stop, pageSize] at hle hpe hne hroom h2
      unfold MemoryMapItem.Covers sub64
      omega
  · obtain ⟨-, -, -, hup⟩ := (mem_itemPages_of_lt hu hb (by omega)).1 hp
    exact absurd (hwrap hup).1 hroom

theorem exists_page_outside (hu : item.isUsable = true) (hb : item.baseAddr < 2 ^ 64)
    (hs : item.size < 2 ^ 64) (h : ¬ StaysInPartition item) :
    ∃ p ∈ ramPages (alignRange item.range), identityMapVmemEnd < p + pageSize := by
  have hsize := item.isUsable_size hu
  have hend : identityMapVmemEnd = 549755813888 := rfl
  unfold StaysInPartition at h
  by_cases hroom : pageUp item.baseAddr ≤ item.stop
  · -- the last page of the item
    refine ⟨pageDown item.stop % 2 ^ 64 - pageSize, (mem_itemPages_of_le hu hb hs hroom).2 ?_, ?_⟩
    all_goals
      rw [hend] at h
      simp only [pageUp, pageDown, MemoryMapItem.stop, pageSize] at h hroom ⊢
      omega
  · refine ⟨2 ^ 64 - 2 * pageSize, (mem_itemPages_of_lt hu hb (by omega)).2 ?_, by decide⟩
    simp only [pageUp, pageDown, MemoryMapItem.stop, pageSize] at h hroom ⊢
    omega

end

/-! ## All pages -/

def WordItems (boot : BootLoaderData) : Prop :=
  ∀ item ∈ boot.mapItems, item.baseAddr < 2 ^ 64 ∧ item.size < 2 ^ 64

theorem getRamSpace_eq (boot : BootLoaderData) :
    getRamSpace boot =
      if (usableItems boot.mapItems).length ≤ maxPhysicalMemoryRanges then
        .ok ((sortedRanges boot.mapItems).map alignRange)
      else .error (.panic .freeMemBootloaderError) := by
  rw [getRamSpace, fillRanges_eq (Nat.zero_le _), Nat.zero_add]
  split <;> rfl

theorem mem_identityPages {boot : BootLoaderData} {p : Nat} :
    p ∈ identityPages boot ↔ (usableItems boot.mapItems).length ≤ maxPhysicalMemoryRanges ∧
      ∃ item ∈ boot.mapItems, item.isUsable = true ∧ p ∈ ramPages (alignRange item.range) := by
  rw [identityPages, getRamSpace_eq]
  by_cases hfew : (usableItems boot.mapItems).length ≤ maxPhysicalMemoryRanges
  · rw [if_pos hfew]
    simp only [List.mem_flatMap, List.mem_map, exists_exists_and_eq_and, mem_sortedRanges]
    constructor
    · rintro ⟨_, ⟨item, hi, hu, rfl⟩, hp⟩
      exact ⟨hfew, item, hi, hu, hp⟩
    · rintro ⟨-, item, hi, hu, hp⟩
      exact ⟨_, ⟨item, hi, hu, rfl⟩, hp⟩
  · rw [if_neg hfew]
    simp [hfew]

/-- The condition on the memory map: there are too many usable items, or each of
them stays in the identity partition. -/
def MapStaysInPartition (boot : BootLoaderData) : Prop :=
  (usableItems boot.mapItems).length ≤ maxPhysicalMemoryRanges →
    ∀ item ∈ boot.mapItems, item.isUsable = true → StaysInPartition item

/-! ## The code loads these pages -/

section

variable {k k' : Kernel} {u : Unit} {handle : VMemHandle}

/-- Before the shootdown subsystem is initialised, loading a range maps its pages
and changes no other part of the kernel. -/
theorem loadIdentityMapPages_ok {r : PhysicalMemoryRange} (hq : k.sh.queueArray = 0)
    (h : (loadIdentityMapPages r.startAddress r.size handle).run k = .ok u k') :
    PagingEffect k k' ∧
      writtenPages k' = ((loadedPages r).map (· / pageSize)).reverse ++ writtenPages k := by
  obtain ⟨-, hmap⟩ := run_loadIdentityMapPages_ok hq h
  refine ⟨.of_run hmap, ?_⟩
  rw [writes_mapIdentityPages _ _ hmap, loadedPages, List.map_map]
  rfl

theorem loadRam_ok {ranges : List PhysicalMemoryRange} (hq : k.sh.queueArray = 0)
    (h : (loadRam handle ranges).run k = .ok u k') :
    writtenPages k' = ((ranges.flatMap ramPages).map (· / pageSize)).reverse ++ writtenPages k := by
  induction ranges generalizing k with
  | nil =>
    cases h
    rfl
  | cons range ranges ih =>
    rw [loadRam] at h
    rw [List.flatMap_cons, List.map_append, List.reverse_append, List.append_assoc, ramPages]
    cases hload : identityLoad range with
    | none =>
      rw [hload] at h
      exact ih hq h
    | some r =>
      rw [hload] at h
      obtain ⟨_, k₁, h₁, h⟩ := run_bind_ok.1 h
      obtain ⟨heff, hw⟩ := loadIdentityMapPages_ok hq h₁
      have hq₁ : k₁.sh.queueArray = 0 := by rw [heff.eq]; exact hq
      rw [ih hq₁ h, hw]

end

/-- The pages that are loaded are sound exactly when the memory map stays in the
identity partition, and the loop of `setup_virtual_memory` writes the entries of
these pages and no others. -/
theorem identityPages_sound_iff {boot : BootLoaderData} (hw : WordItems boot) :
    ((∀ p ∈ identityPages boot, LoadedSoundly boot p) ↔ MapStaysInPartition boot) ∧
      ∀ ranges k k' handle, getRamSpace boot = .ok ranges → k.sh.queueArray = 0 →
        (loadRam handle ranges).run k = .ok () k' →
        writtenPages k' = ((identityPages boot).map (· / pageSize)).reverse ++ writtenPages k := by
  refine ⟨⟨fun h hfew item hi hu => ?_, fun h p hp => ?_⟩, fun ranges k k' handle hram hq hrun => ?_⟩
  · obtain ⟨hb, hs⟩ := hw item hi
    by_contra hout
    obtain ⟨p, hp, hgt⟩ := exists_page_outside hu hb hs hout
    have := (h p (mem_identityPages.2 ⟨hfew, item, hi, hu, hp⟩)).1.2
    omega
  · obtain ⟨hfew, item, hi, hu, hp⟩ := mem_identityPages.1 hp
    obtain ⟨hb, hs⟩ := hw item hi
    exact itemPages_sound hi hu hb hs (h hfew item hi hu) hp
  · rw [identityPages, hram]
    exact loadRam_ok hq hrun

/-- Two pages of RAM at 1 MiB, and a second usable item. -/
def ramAnd (base size : Nat) : BootLoaderData :=
  ⟨[⟨MB, 2 * pageSize, 1, 1⟩, ⟨base, size, 1, 1⟩], ⟨MB, 2 * pageSize, 1, 1⟩, MB⟩

theorem forall_ramAnd {base size : Nat} {P : MemoryMapItem → Prop}
    (hlow : P ⟨MB, 2 * pageSize, 1, 1⟩) (h : P ⟨base, size, 1, 1⟩) :
    ∀ item ∈ (ramAnd base size).mapItems, P item :=
  List.forall_mem_cons.2 ⟨hlow, List.forall_mem_singleton.2 h⟩

theorem identityPages_sound_small :
    (∀ p ∈ identityPages (ramAnd (2 * MB) pageSize),
      LoadedSoundly (ramAnd (2 * MB) pageSize) p) ∧
    ∃ ranges k', getRamSpace (ramAnd (2 * MB) pageSize) = .ok ranges ∧
      (loadRam (.early 0) ranges).run newSpace = .ok () k' ∧ writtenPages k' = [512, 257, 256] := by
  have h := @identityPages_sound_iff (ramAnd (2 * MB) pageSize)
    (forall_ramAnd (by decide) (by decide))
  refine ⟨h.1.2 fun _ => forall_ramAnd (fun _ => ?_) fun _ => ?_, _, _, rfl,
    eq_of_returned (by decide +kernel), ?_⟩
  · show _ ∧ _
    decide
  · show _ ∧ _
    decide
  · exact (h.2 _ _ _ _ rfl rfl (eq_of_returned (by decide +kernel))).trans (by decide +kernel)

/-- Four gigabytes of RAM above 511 GiB: the page at 512 GiB is loaded, which
belongs to the user partition. -/
theorem exists_page_outside_partition :
    WordItems (ramAnd (511 * GB) (4 * GB)) ∧
      ∃ p ∈ identityPages (ramAnd (511 * GB) (4 * GB)), userVmemStart ≤ p ∧
        ¬ LoadedSoundly (ramAnd (511 * GB) (4 * GB)) p := by
  refine ⟨forall_ramAnd (by decide) (by decide), identityMapVmemEnd, ?_, le_refl _, fun h => ?_⟩
  · refine mem_identityPages.2
      ⟨by decide, _, List.mem_cons_of_mem _ List.mem_cons_self, by decide, ?_⟩
    refine (mem_itemPages_of_le (by decide) (by decide) (by decide) (by decide)).2 ?_
    decide
  · have := h.1.2
    simp only [pageSize] at this
    omega

end GarbageOS
