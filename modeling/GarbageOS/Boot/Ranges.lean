import GarbageOS.Boot.Code
import GarbageOS.Frames.Partition

/-!
# The ranges made from the memory map

`free_mem_bootloader` patches each usable item of the map on its own, so what it
returns is read off one item at a time; sorting first puts the items in address
order. Rounding a start up can skip past the end of a small item, and its size
then wraps: the ranges are sound exactly when no item is that small.
-/

namespace GarbageOS

variable {items : List MemoryMapItem} {r : PhysicalMemoryRange}

open Lib

/-! ## The usable items -/

def MemoryMapItem.range (item : MemoryMapItem) : PhysicalMemoryRange := ⟨item.baseAddr, item.size⟩

def MemoryMapItem.stop (item : MemoryMapItem) : Nat := item.baseAddr + item.size

def usableItems (items : List MemoryMapItem) : List MemoryMapItem :=
  items.filter MemoryMapItem.isUsable

theorem mem_usableItems {item : MemoryMapItem} :
    item ∈ usableItems items ↔ item ∈ items ∧ item.isUsable = true := List.mem_filter

theorem MemoryMapItem.isUsable_size {item : MemoryMapItem} (h : item.isUsable = true) :
    0 < item.size := by
  simp only [isUsable, Bool.and_eq_true, bne_iff_ne] at h
  omega

theorem fillRanges_eq {n : Nat} (hn : n ≤ maxPhysicalMemoryRanges) :
    fillRanges items n =
      if n + (usableItems items).length ≤ maxPhysicalMemoryRanges then
        .ok ((usableItems items).map MemoryMapItem.range)
      else .error (.panic .freeMemBootloaderError) := by
  induction items generalizing n with
  | nil =>
    rw [fillRanges, usableItems, List.filter_nil, List.length_nil, Nat.add_zero, if_pos hn]
    rfl
  | cons item items ih =>
    rw [fillRanges]
    by_cases hu : item.isUsable = true
    · have hcons : usableItems (item :: items) = item :: usableItems items := List.filter_cons_of_pos hu
      rw [if_pos hu, hcons, List.length_cons]
      by_cases hfull : n = maxPhysicalMemoryRanges
      · rw [if_pos hfull, if_neg (by omega)]
      · rw [if_neg hfull, ih (by omega)]
        by_cases hfit : n + 1 + (usableItems items).length ≤ maxPhysicalMemoryRanges
        · rw [if_pos hfit, if_pos (by omega)]
          rfl
        · rw [if_neg hfit, if_neg (by omega)]
          rfl
    · have hskip : usableItems (item :: items) = usableItems items := List.filter_cons_of_neg hu
      rw [if_neg hu, hskip]
      exact ih hn

/-! ## One item -/

def pageUp (addr : Nat) : Nat := (addr + (pageSize - 1)) / pageSize * pageSize

def pageDown (addr : Nat) : Nat := addr / pageSize * pageSize

theorem alignStart_eq (hstart : r.startAddress < 2 ^ 64) (hsize : r.size < 2 ^ 64) :
    alignStart r = ⟨pageUp r.startAddress % 2 ^ 64,
      sub64 r.size (pageUp r.startAddress - r.startAddress)⟩ := by
  unfold alignStart
  by_cases h : r.startAddress % pageSize = 0
  · have hup : pageUp r.startAddress = r.startAddress := by
      simp only [pageUp, pageSize] at h ⊢
      omega
    rw [if_neg (not_not.2 h), hup, Nat.mod_eq_of_lt hstart, Nat.sub_self,
      sub64_eq (Nat.zero_le _) hsize, Nat.sub_zero]
  · have hup : pageUp r.startAddress = r.startAddress + (pageSize - r.startAddress % pageSize) := by
      simp only [pageUp, pageSize] at h ⊢
      omega
    rw [if_pos h, hup, Nat.add_sub_cancel_left]
    rfl

theorem alignRange_of_le (hsize : r.size ≠ 0) (hstart : r.startAddress < 2 ^ 64)
    (hword : r.size < 2 ^ 64) (hroom : pageUp r.startAddress ≤ r.startAddress + r.size) :
    alignRange r = ⟨pageUp r.startAddress % 2 ^ 64,
      pageDown (r.startAddress + r.size) - pageUp r.startAddress⟩ := by
  rw [alignRange, if_neg hsize, alignStart_eq hstart hword, PhysicalMemoryRange.mk.injEq]
  refine ⟨rfl, ?_⟩
  simp only [pageUp, pageDown, pageSize, sub64] at hroom ⊢
  omega

/-- A range that ends before the next page boundary gets a size that wraps. -/
theorem alignRange_of_lt (hsize : r.size ≠ 0)
    (hlt : r.startAddress + r.size < pageUp r.startAddress) (hstart : r.startAddress < 2 ^ 64) :
    alignRange r = ⟨pageUp r.startAddress % 2 ^ 64, 2 ^ 64 - pageSize⟩ := by
  have hsmall : r.size < 2 ^ 64 := by simp only [pageUp, pageSize] at hlt; omega
  rw [alignRange, if_neg hsize, alignStart_eq hstart hsmall, PhysicalMemoryRange.mk.injEq]
  refine ⟨rfl, ?_⟩
  simp only [pageUp, pageSize, sub64] at hlt ⊢
  omega

/-! ## What `free_mem_bootloader` keeps of an item -/

/-- Sound data of the boot loader: items that do not wrap and share no
address, few enough of them usable, and a frame allocator inside its item. -/
structure WellFormedBoot (boot : BootLoaderData) : Prop where
  words : ∀ item ∈ boot.mapItems, item.stop < 2 ^ 64
  disjoint : boot.mapItems.Pairwise fun a b => ∀ x, ¬ (a.range.Contains x ∧ b.range.Contains x)
  few : (usableItems boot.mapItems).length ≤ maxPhysicalMemoryRanges
  named : boot.frameAllocMapItem ∈ boot.mapItems
  inside : boot.frameAllocMapItem.range.Contains boot.firstFrameAddress

/-- The first address of an item that the boot loader's frame allocator did not use. -/
def firstUnused (boot : BootLoaderData) (item : MemoryMapItem) : Nat :=
  if boot.frameAllocMapItem.baseAddr = item.baseAddr then boot.firstFrameAddress else item.baseAddr

/-- The range `free_mem_bootloader` makes of an item. -/
def freeRange (boot : BootLoaderData) (item : MemoryMapItem) : PhysicalMemoryRange :=
  alignRange (cutFirstMB (patchBootRange boot item.range))

/-- The part of an item above the first megabyte that is not used reaches the next
page boundary. -/
def ReachesPage (boot : BootLoaderData) (item : MemoryMapItem) : Prop :=
  1 * MB < item.stop → pageUp (max (firstUnused boot item) (1 * MB)) ≤ item.stop

section

variable {boot : BootLoaderData} {item : MemoryMapItem}

theorem WellFormedBoot.eq_of_contains {a b : MemoryMapItem} {x : Nat} (h : WellFormedBoot boot)
    (ha : a ∈ boot.mapItems) (hb : b ∈ boot.mapItems) (hax : a.range.Contains x)
    (hbx : b.range.Contains x) : a = b := by
  obtain ⟨xs, ys, hsplit⟩ := List.append_of_mem ha
  have hdis := h.disjoint
  rw [hsplit] at hdis hb
  obtain ⟨-, hrest, hcross⟩ := List.pairwise_append.1 hdis
  rcases List.mem_append.1 hb with hb | hb
  · exact (hcross b hb a List.mem_cons_self x ⟨hbx, hax⟩).elim
  · rcases List.mem_cons.1 hb with rfl | hb
    · rfl
    · exact ((List.pairwise_cons.1 hrest).1 b hb x ⟨hax, hbx⟩).elim

theorem MemoryMapItem.contains_base (hu : item.isUsable = true) :
    item.range.Contains item.baseAddr := by
  have := item.isUsable_size hu
  show item.baseAddr ≤ item.baseAddr ∧ item.baseAddr < item.baseAddr + item.size
  omega

section

variable (h : WellFormedBoot boot) (hi : item ∈ boot.mapItems) (hu : item.isUsable = true)

include h hi hu

theorem WellFormedBoot.eq_of_base (hb : boot.frameAllocMapItem.baseAddr = item.baseAddr) :
    item = boot.frameAllocMapItem := by
  refine h.eq_of_contains hi h.named (item.contains_base hu) ?_
  obtain ⟨hlo, hhi⟩ := h.inside
  simp only [MemoryMapItem.range] at hlo hhi
  show _ ≤ _ ∧ _ < boot.frameAllocMapItem.baseAddr + boot.frameAllocMapItem.size
  simp only [MemoryMapItem.range]
  omega

theorem WellFormedBoot.firstUnused_spec :
    item.baseAddr ≤ firstUnused boot item ∧ firstUnused boot item < item.stop ∧
      patchBootRange boot item.range =
        ⟨firstUnused boot item, item.stop - firstUnused boot item⟩ := by
  have hsize := item.isUsable_size hu
  have hword := h.words item hi
  by_cases hb : boot.frameAllocMapItem.baseAddr = item.baseAddr
  · obtain ⟨hlo, hhi⟩ := h.inside
    rw [← h.eq_of_base hi hu hb] at hlo hhi
    have hunused : firstUnused boot item = boot.firstFrameAddress := if_pos hb
    have hpatch : patchBootRange boot item.range = ⟨boot.firstFrameAddress,
      sub64 item.size (sub64 boot.firstFrameAddress item.baseAddr)⟩ := if_pos hb
    rw [hunused, hpatch]
    simp only [MemoryMapItem.range, MemoryMapItem.stop] at hlo hhi hword ⊢
    refine ⟨hlo, hhi, congrArg _ ?_⟩
    unfold sub64
    omega
  · have hunused : firstUnused boot item = item.baseAddr := if_neg hb
    have hpatch : patchBootRange boot item.range = ⟨item.baseAddr, item.size⟩ := if_neg hb
    rw [hunused, hpatch, MemoryMapItem.stop]
    exact ⟨le_refl _, by omega, congrArg _ (by omega)⟩

/-- Above the first megabyte an item is cut to its unused part and aligned. -/
theorem WellFormedBoot.freeRange_high (hhigh : 1 * MB < item.stop) :
    freeRange boot item = alignRange ⟨max (firstUnused boot item) (1 * MB),
      item.stop - max (firstUnused boot item) (1 * MB)⟩ := by
  obtain ⟨-, hlt, hpatch⟩ := h.firstUnused_spec hi hu
  have hword := h.words item hi
  rw [freeRange, hpatch, cutFirstMB]
  simp only
  by_cases hs : firstUnused boot item < 1 * MB
  · have hsum : add64 (firstUnused boot item) (item.stop - firstUnused boot item) = item.stop := by
      unfold add64; omega
    rw [if_pos hs, hsum, if_pos hhigh, Nat.max_eq_right hs.le]
    refine congrArg alignRange (congrArg _ ?_)
    unfold sub64
    omega
  · rw [if_neg hs, Nat.max_eq_left (by omega)]

theorem WellFormedBoot.freeRange_low (hlow : item.stop ≤ 1 * MB) :
    freeRange boot item = ⟨firstUnused boot item, 0⟩ := by
  obtain ⟨-, hlt, hpatch⟩ := h.firstUnused_spec hi hu
  have hword := h.words item hi
  have hsum : add64 (firstUnused boot item) (item.stop - firstUnused boot item) = item.stop := by
    unfold add64; omega
  rw [freeRange, hpatch, cutFirstMB]
  simp only
  rw [if_pos (by omega), hsum, if_neg (by omega), alignRange]
  exact if_pos rfl

/-- The range of an item that reaches a page boundary lies inside the item. -/
theorem WellFormedBoot.freeRange_spec (hr : ReachesPage boot item) :
    item.baseAddr ≤ (freeRange boot item).startAddress ∧
      (freeRange boot item).startAddress + (freeRange boot item).size ≤ item.stop ∧
      ((freeRange boot item).size ≠ 0 → (freeRange boot item).startAddress % pageSize = 0 ∧
        (freeRange boot item).size % pageSize = 0 ∧
        1 * MB ≤ (freeRange boot item).startAddress ∧
        firstUnused boot item ≤ (freeRange boot item).startAddress) := by
  obtain ⟨hbase, hlt, -⟩ := h.firstUnused_spec hi hu
  have hword := h.words item hi
  by_cases hhigh : 1 * MB < item.stop
  · have hroom := hr hhigh
    have hmax : max (firstUnused boot item) (1 * MB) < item.stop := by omega
    have hle := Nat.le_max_left (firstUnused boot item) (1 * MB)
    have hle' := Nat.le_max_right (firstUnused boot item) (1 * MB)
    rw [h.freeRange_high hi hu hhigh]
    generalize max (firstUnused boot item) (1 * MB) = s at hroom hmax hle hle'
    generalize 1 * MB = mb at hle'
    have hend : s + (item.stop - s) = item.stop := by omega
    rw [alignRange_of_le (by simp only; omega) (by simp only; omega) (by simp only; omega)
      (by simp only; omega)]
    simp only [hend]
    simp only [pageUp, pageDown, pageSize] at hroom ⊢
    omega
  · rw [h.freeRange_low hi hu (by omega)]
    exact ⟨hbase, by simp only; omega, fun hne => absurd rfl hne⟩

theorem WellFormedBoot.freeRange_wraps (hr : ¬ ReachesPage boot item) :
    (freeRange boot item).size = 2 ^ 64 - pageSize := by
  obtain ⟨hbase, hlt, -⟩ := h.firstUnused_spec hi hu
  have hword := h.words item hi
  obtain ⟨hhigh, hroom⟩ := Classical.not_imp.1 hr
  rw [h.freeRange_high hi hu hhigh]
  have hmax : max (firstUnused boot item) (1 * MB) < item.stop := by omega
  generalize max (firstUnused boot item) (1 * MB) = s at hroom hmax
  rw [alignRange_of_lt (by simp only; omega) (by simp only; omega) (by simp only; omega)]

end

end

/-! ## The list of ranges -/

def sortedRanges (items : List MemoryMapItem) : List PhysicalMemoryRange :=
  bubbleSort PhysicalMemoryRange.startAddress ((usableItems items).map MemoryMapItem.range)

theorem mem_sortedRanges :
    r ∈ sortedRanges items ↔ ∃ item ∈ items, item.isUsable = true ∧ item.range = r := by
  rw [sortedRanges, (bubbleSort_perm _).mem_iff, List.mem_map]
  simp only [mem_usableItems, and_assoc]

section

variable {boot : BootLoaderData}

theorem WellFormedBoot.sortedRanges_apart (h : WellFormedBoot boot) :
    (sortedRanges boot.mapItems).Pairwise fun r r' => r.startAddress + r.size ≤ r'.startAddress := by
  have hdis : ((usableItems boot.mapItems).map MemoryMapItem.range).Pairwise fun r r' =>
      ∀ x, ¬ (r.Contains x ∧ r'.Contains x) :=
    List.pairwise_map.2 (h.disjoint.sublist List.filter_sublist)
  have hdis' : (sortedRanges boot.mapItems).Pairwise fun r r' =>
      ∀ x, ¬ (r.Contains x ∧ r'.Contains x) :=
    ((bubbleSort_perm _).pairwise_iff fun hd x hx => hd x hx.symm).2 hdis
  refine (List.Pairwise.and (bubbleSort_sorted _) hdis').imp_of_mem
    fun {r r'} hr hr' ⟨hle, hd⟩ => ?_
  obtain ⟨item', -, hu', rfl⟩ := mem_sortedRanges.1 hr'
  have hbase := item'.contains_base hu'
  by_contra hlt
  exact hd item'.baseAddr ⟨⟨hle, by simp only [MemoryMapItem.range] at hlt; omega⟩, hbase⟩

theorem WellFormedBoot.freeMemBootloader_eq (h : WellFormedBoot boot) :
    freeMemBootloader boot = .ok ((sortedRanges boot.mapItems).map fun r =>
      alignRange (cutFirstMB (patchBootRange boot r))) := by
  have hfew : 0 + (usableItems boot.mapItems).length ≤ maxPhysicalMemoryRanges := by
    rw [Nat.zero_add]; exact h.few
  rw [freeMemBootloader, fillRanges_eq (Nat.zero_le _), if_pos hfew]
  show Except.ok _ = Except.ok _
  rw [List.map_map, List.map_map]
  rfl

end

/-- What the frame allocator relies on: sorted, disjoint ranges of whole pages in
usable memory that neither the boot loader nor anything below 1 MiB uses. -/
structure GoodRanges (boot : BootLoaderData) (ranges : List PhysicalMemoryRange) : Prop where
  sorted : ranges.Pairwise fun r r' => r.startAddress ≤ r'.startAddress
  aligned : ∀ r ∈ ranges, r.size ≠ 0 → r.startAddress % pageSize = 0 ∧ r.size % pageSize = 0
  inside : ∀ r ∈ ranges, r.size ≠ 0 → ∃ item ∈ boot.mapItems, item.isUsable = true ∧
    item.baseAddr ≤ r.startAddress ∧ r.startAddress + r.size ≤ item.stop ∧
    (item = boot.frameAllocMapItem → boot.firstFrameAddress ≤ r.startAddress)
  high : ∀ r ∈ ranges, r.size ≠ 0 → 1 * MB ≤ r.startAddress
  disjoint : ranges.Pairwise fun r r' => ∀ x, ¬ (r.Contains x ∧ r'.Contains x)

def ItemsReachPage (boot : BootLoaderData) : Prop :=
  ∀ item ∈ boot.mapItems, item.isUsable = true → ReachesPage boot item

theorem WellFormedBoot.goodRanges {boot : BootLoaderData} (h : WellFormedBoot boot)
    (hr : ItemsReachPage boot) :
    GoodRanges boot ((sortedRanges boot.mapItems).map fun r =>
      alignRange (cutFirstMB (patchBootRange boot r))) := by
  have hspec : ∀ r ∈ sortedRanges boot.mapItems, ∃ item ∈ boot.mapItems, item.isUsable = true ∧
      item.range = r ∧ alignRange (cutFirstMB (patchBootRange boot r)) = freeRange boot item := by
    intro r hr
    obtain ⟨item, hi, hu, rfl⟩ := mem_sortedRanges.1 hr
    exact ⟨item, hi, hu, rfl, rfl⟩
  -- the ranges stay where their items are
  have hapart : (sortedRanges boot.mapItems).Pairwise fun r r' =>
      (alignRange (cutFirstMB (patchBootRange boot r))).startAddress +
        (alignRange (cutFirstMB (patchBootRange boot r))).size ≤
      (alignRange (cutFirstMB (patchBootRange boot r'))).startAddress := by
    refine h.sortedRanges_apart.imp_of_mem fun {r r'} hm hm' hle => ?_
    obtain ⟨item, hi, hu, rfl, he⟩ := hspec r hm
    obtain ⟨item', hi', hu', rfl, he'⟩ := hspec r' hm'
    rw [he, he']
    calc (freeRange boot item).startAddress + (freeRange boot item).size
        ≤ item.stop := (h.freeRange_spec hi hu (hr item hi hu)).2.1
      _ ≤ item'.baseAddr := hle
      _ ≤ (freeRange boot item').startAddress := (h.freeRange_spec hi' hu' (hr item' hi' hu')).1
  have hmem : ∀ r ∈ (sortedRanges boot.mapItems).map fun r =>
      alignRange (cutFirstMB (patchBootRange boot r)), ∃ item ∈ boot.mapItems,
        item.isUsable = true ∧ freeRange boot item = r := by
    intro r hm
    obtain ⟨r₀, hm₀, rfl⟩ := List.mem_map.1 hm
    obtain ⟨item, hi, hu, rfl, he⟩ := hspec r₀ hm₀
    exact ⟨item, hi, hu, he.symm⟩
  constructor
  · exact List.pairwise_map.2 (hapart.imp fun hle => (Nat.le_add_right _ _).trans hle)
  · intro r hm hne
    obtain ⟨item, hi, hu, rfl⟩ := hmem r hm
    obtain ⟨h1, h2, -⟩ := (h.freeRange_spec hi hu (hr item hi hu)).2.2 hne
    exact ⟨h1, h2⟩
  · intro r hm hne
    obtain ⟨item, hi, hu, rfl⟩ := hmem r hm
    obtain ⟨hlo, hhi, hrest⟩ := h.freeRange_spec hi hu (hr item hi hu)
    refine ⟨item, hi, hu, hlo, hhi, fun he => ?_⟩
    have hunused : firstUnused boot item = boot.firstFrameAddress := if_pos (by rw [he])
    exact hunused ▸ (hrest hne).2.2.2
  · intro r hm hne
    obtain ⟨item, hi, hu, rfl⟩ := hmem r hm
    exact ((h.freeRange_spec hi hu (hr item hi hu)).2.2 hne).2.2.1
  · refine List.pairwise_map.2 (hapart.imp fun hle x hx => ?_)
    exact absurd (hx.1.2.trans_le (hle.trans hx.2.1)) (lt_irrefl _)

/-- `free_mem_bootloader` returns sound ranges exactly when every usable item
reaches a page boundary. -/
theorem freeMemBootloader_good_iff {boot : BootLoaderData} (h : WellFormedBoot boot) :
    ∃ ranges, freeMemBootloader boot = .ok ranges ∧ (GoodRanges boot ranges ↔ ItemsReachPage boot) := by
  refine ⟨_, h.freeMemBootloader_eq, fun hgood item hi hu => ?_, h.goodRanges⟩
  by_contra hr
  -- the range of the item is almost the whole address space, which fits in no item
  have hsize := h.freeRange_wraps hi hu hr
  have hmem : freeRange boot item ∈ (sortedRanges boot.mapItems).map fun r =>
      alignRange (cutFirstMB (patchBootRange boot r)) :=
    List.mem_map.2 ⟨item.range, mem_sortedRanges.2 ⟨item, hi, hu, rfl⟩, rfl⟩
  have hne : (freeRange boot item).size ≠ 0 := by rw [hsize]; decide
  obtain ⟨item', hi', -, -, hstop, -⟩ := hgood.inside _ hmem hne
  have hhigh := hgood.high _ hmem hne
  have hword := h.words item' hi'
  rw [hsize] at hstop
  simp only [pageSize, MB] at hstop hhigh
  omega

/-- The boot loader's item of one megabyte, and an item of the given size just
above 1 MiB. -/
def twoItemBoot (size : Nat) : BootLoaderData where
  mapItems := [⟨2 * MB, MB, 1, 1⟩, ⟨1 * MB + 16, size, 1, 1⟩]
  frameAllocMapItem := ⟨2 * MB, MB, 1, 1⟩
  firstFrameAddress := 2 * MB + 100

theorem twoItemBoot_wellFormed {size : Nat} (hsize : size < MB - 16) :
    WellFormedBoot (twoItemBoot size) where
  words item hi := by
    rcases List.mem_pair.1 hi with rfl | rfl
    · decide
    · simp only [MemoryMapItem.stop, MB] at hsize ⊢
      omega
  disjoint := by
    refine List.pairwise_pair.2 fun x hx => ?_
    simp only [MemoryMapItem.range, PhysicalMemoryRange.Contains, MB] at hx hsize
    omega
  few := (List.length_filter_le _ _).trans (by simp [twoItemBoot, maxPhysicalMemoryRanges])
  named := List.mem_cons_self
  inside := show 2 * MB ≤ 2 * MB + 100 ∧ 2 * MB + 100 < 2 * MB + MB by decide

theorem freeMemBootloader_twoItemBoot :
    ∃ ranges, freeMemBootloader (twoItemBoot 8192) = .ok ranges ∧
      GoodRanges (twoItemBoot 8192) ranges := by
  have hreach : ItemsReachPage (twoItemBoot 8192) := by
    intro item hi _ _
    rcases List.mem_pair.1 hi with rfl | rfl <;> decide
  obtain ⟨ranges, hok, hiff⟩ := freeMemBootloader_good_iff
    (twoItemBoot_wellFormed (show 8192 < MB - 16 by decide))
  exact ⟨ranges, hok, hiff.2 hreach⟩

/-- An item of 16 bytes that does not reach a page boundary becomes a range of
almost the whole address space. -/
theorem exists_wrapped_range :
    WellFormedBoot (twoItemBoot 16) ∧
      freeMemBootloader (twoItemBoot 16) =
        .ok [⟨1 * MB + pageSize, 2 ^ 64 - pageSize⟩, ⟨2 * MB + pageSize, MB - pageSize⟩] ∧
      ¬ GoodRanges (twoItemBoot 16)
        [⟨1 * MB + pageSize, 2 ^ 64 - pageSize⟩, ⟨2 * MB + pageSize, MB - pageSize⟩] := by
  refine ⟨twoItemBoot_wellFormed (by decide), rfl, fun h => ?_⟩
  refine List.pairwise_pair.1 h.disjoint (2 * MB + pageSize) ⟨?_, ?_⟩
  · show _ ∧ _
    decide
  · show _ ∧ _
    decide

end GarbageOS
