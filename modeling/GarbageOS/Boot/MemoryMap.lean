import GarbageOS.Boot.Code
import Mathlib.Data.Nat.Bitwise

/-!
# `get_memory_map`

The first call translates the entries of the BIOS into `memory_map_buff`, sorts them there and
remembers their number; later calls return what is there. The loop that fills the buffer runs over
all entries that the boot loader counted, and the buffer has 128 places.
-/

namespace GarbageOS

open Lib

inductive MemoryMapType where
  | usable
  | reserved
  | nonVolatile
  | bad
  | acpiTable
  | acpiNvs
deriving DecidableEq

structure MemoryMapRange where
  startAddress : Nat
  size : Nat
  type : MemoryMapType
deriving DecidableEq

def biosMemTypeUsable : Nat := 1

def biosMemTypeBad : Nat := 5

/-- `type_mapping`, for the types from usable to bad. -/
def typeMapping : Nat → MemoryMapType
  | 1 => .usable
  | 2 => .reserved
  | 3 => .acpiTable
  | 4 => .acpiNvs
  | 5 => .bad
  | _ => .reserved

/-- One round of the loop: the range made from an entry. -/
def MemoryMapItem.translate (item : MemoryMapItem) : MemoryMapRange :=
  let type := if biosMemTypeUsable ≤ item.type ∧ item.type ≤ biosMemTypeBad
    then typeMapping item.type else .reserved
  let type := if item.acpi &&& 1 = 0 then .reserved else type
  let type := if item.acpi &&& 2 ≠ 0 then .nonVolatile else type
  ⟨item.baseAddr, item.size, type⟩

/-- The static variables. `ranges` is the memory from `memory_map_buff` on, of which the first
`maxPhysicalMemoryRanges` places are the array; `stores` are the places stored to so far. -/
structure MemoryMapBuffer where
  ranges : Nat → MemoryMapRange
  countBuff : Nat
  buffered : Bool
  stores : List Nat

abbrev MapM := EStateM Stop MemoryMapBuffer

def MemoryMapBuffer.store (s : MemoryMapBuffer) (i : Nat) (range : MemoryMapRange) :
    MemoryMapBuffer :=
  { s with ranges := fun j => if j = i then range else s.ranges j
           stores := s.stores ++ [i] }

def MemoryMapBuffer.list (s : MemoryMapBuffer) (n : Nat) : List MemoryMapRange :=
  (List.range' 0 n).map s.ranges

def storeRange (i : Nat) (range : MemoryMapRange) : MapM Unit := modify fun s => s.store i range

def fillMemoryMap : (items : List MemoryMapItem) → (i : Nat) → MapM Unit
  | [], _ => pure ()
  | item :: items, i => do
    storeRange i item.translate
    fillMemoryMap items (i + 1)

def compareSwap (j : Nat) : MapM Unit := do
  let s ← get
  onlyIf ((s.ranges j).startAddress > (s.ranges (j + 1)).startAddress) do
    let temp := s.ranges (j + 1)
    storeRange (j + 1) (s.ranges j)
    storeRange j temp

def sortMemoryMap (numberOfRanges : Nat) : MapM Unit :=
  forRange (fun i => forRange compareSwap (numberOfRanges - 1 - i) 0) numberOfRanges 0

/-- `get_memory_map`; the list is what the returned pointer and number describe. -/
def getMemoryMap (boot : BootLoaderData) : MapM (List MemoryMapRange) := do
  let s ← get
  if s.buffered then return s.list s.countBuff
  else do
    let numberOfRanges := boot.mapItems.length
    fillMemoryMap boot.mapItems 0
    sortMemoryMap numberOfRanges
    modify fun s => { s with countBuff := numberOfRanges, buffered := true }
    let s ← get
    return s.list numberOfRanges

/-! ## What a loop stores -/

/-- Only the places in `[start, stop)` are stored to. -/
structure StoresIn (start stop : Nat) (s s' : MemoryMapBuffer) : Prop where
  ranges_eq : ∀ i, i < start ∨ stop ≤ i → s'.ranges i = s.ranges i
  stores_eq : ∃ new, s'.stores = s.stores ++ new ∧ ∀ i ∈ new, start ≤ i ∧ i < stop

namespace StoresIn

variable {start stop : Nat} {s t u : MemoryMapBuffer}

theorem refl (start stop : Nat) (s : MemoryMapBuffer) : StoresIn start stop s s :=
  ⟨fun _ _ => rfl, [], (List.append_nil _).symm, fun _ h => absurd h List.not_mem_nil⟩

theorem trans (h : StoresIn start stop s t) (h' : StoresIn start stop t u) :
    StoresIn start stop s u := by
  obtain ⟨new, hnew, hin⟩ := h.stores_eq
  obtain ⟨new', hnew', hin'⟩ := h'.stores_eq
  refine ⟨fun i hi => (h'.ranges_eq i hi).trans (h.ranges_eq i hi), new ++ new', ?_, ?_⟩
  · rw [hnew', hnew, List.append_assoc]
  · exact fun i hi => (List.mem_append.1 hi).elim (hin i) (hin' i)

theorem mono {start' stop' : Nat} (h : StoresIn start stop s t) (hstart : start' ≤ start)
    (hstop : stop ≤ stop') : StoresIn start' stop' s t := by
  obtain ⟨new, hnew, hin⟩ := h.stores_eq
  refine ⟨fun i hi => h.ranges_eq i (by omega), new, hnew, fun i hi => ?_⟩
  have := hin i hi
  omega

theorem store {i : Nat} (hstart : start ≤ i) (hstop : i < stop) (range : MemoryMapRange) :
    StoresIn start stop s (s.store i range) := by
  refine ⟨fun j hj => if_neg (by omega), [i], rfl, fun j hj => ?_⟩
  obtain rfl := List.mem_singleton.1 hj
  exact ⟨hstart, hstop⟩

end StoresIn

theorem map_ranges_congr {s t : MemoryMapBuffer} {start n : Nat}
    (h : ∀ i, start ≤ i → i < start + n → t.ranges i = s.ranges i) :
    (List.range' start n).map t.ranges = (List.range' start n).map s.ranges := by
  refine List.map_congr_left fun i hi => ?_
  obtain ⟨k, hk, rfl⟩ := List.mem_range'.1 hi
  exact h _ (by omega) (by omega)

/-! ## The loops -/

theorem run_fillMemoryMap (items : List MemoryMapItem) (start : Nat) (s : MemoryMapBuffer) :
    ∃ s', (fillMemoryMap items start).run s = .ok () s' ∧
      (List.range' start items.length).map s'.ranges = items.map MemoryMapItem.translate ∧
      (∀ i < start, s'.ranges i = s.ranges i) ∧
      s'.stores = s.stores ++ List.range' start items.length := by
  induction items generalizing start s with
  | nil => exact ⟨s, rfl, rfl, fun _ _ => rfl, (List.append_nil _).symm⟩
  | cons item items ih =>
    obtain ⟨s', hrun, hlist, hbelow, hstores⟩ := ih (start + 1) (s.store start item.translate)
    refine ⟨s', ?_, ?_, fun i hi => ?_, ?_⟩
    · rw [fillMemoryMap, storeRange, run_modify_bind, hrun]
    · rw [List.length_cons, List.range'_succ, List.map_cons, hlist, List.map_cons,
        hbelow start (Nat.lt_succ_self start)]
      exact congrArg (· :: _) (if_pos rfl)
    · rw [hbelow i (by omega)]
      exact if_neg (by omega)
    · rw [hstores, List.length_cons, List.range'_succ]
      exact List.append_assoc _ _ _

theorem run_compareSwap (j : Nat) (s : MemoryMapBuffer) :
    ∃ s', (compareSwap j).run s = .ok () s' ∧ StoresIn j (j + 2) s s' ∧
      (s'.ranges j, s'.ranges (j + 1)) =
        if (s.ranges j).startAddress > (s.ranges (j + 1)).startAddress then
          (s.ranges (j + 1), s.ranges j) else (s.ranges j, s.ranges (j + 1)) := by
  rw [compareSwap, run_get_bind]
  by_cases hgt : (s.ranges j).startAddress > (s.ranges (j + 1)).startAddress
  · refine ⟨(s.store (j + 1) (s.ranges j)).store j (s.ranges (j + 1)), ?_, ?_, ?_⟩
    · rw [onlyIf_pos hgt]
      rfl
    · exact (StoresIn.store (by omega) (by omega) _).trans (.store (by omega) (by omega) _)
    · rw [if_pos hgt]
      refine Prod.ext (if_pos rfl) ?_
      show (if j + 1 = j then _ else if j + 1 = j + 1 then _ else _) = _
      rw [if_neg (by omega), if_pos rfl]
  · exact ⟨s, by rw [onlyIf_neg hgt]; rfl, .refl _ _ s, (if_neg hgt).symm⟩

theorem run_pass (count start : Nat) {n : Nat} (hn : count < n) (s : MemoryMapBuffer) :
    ∃ s', (forRange compareSwap count start).run s = .ok () s' ∧ StoresIn start (start + n) s s' ∧
      (List.range' start n).map s'.ranges =
        bubblePass MemoryMapRange.startAddress count ((List.range' start n).map s.ranges) := by
  induction count generalizing start n s with
  | zero =>
    refine ⟨s, rfl, .refl _ _ s, ?_⟩
    rw [bubblePass]
    intro _ _ _ _ h
    cases h
  | succ count ih =>
    obtain ⟨m, rfl⟩ : ∃ m, n = m + 2 := Nat.exists_eq_add_of_le' (by omega)
    obtain ⟨t, hstep, hin, hpair⟩ := run_compareSwap start s
    obtain ⟨s', hrest, hin', hlist⟩ := ih (start + 1) (n := m + 1) (by omega) t
    refine ⟨s', run_bind_ok.2 ⟨(), t, hstep, hrest⟩,
      (hin.mono (by omega) (by omega)).trans (hin'.mono (by omega) (by omega)), ?_⟩
    have hfirst : s'.ranges start = t.ranges start := hin'.ranges_eq start (by omega)
    have htail : (List.range' (start + 1 + 1) m).map t.ranges =
        (List.range' (start + 1 + 1) m).map s.ranges :=
      map_ranges_congr fun i hi _ => hin.ranges_eq i (by omega)
    rw [List.range'_succ, List.map_cons, hlist, hfirst]
    simp only [List.range'_succ, List.map_cons, htail]
    -- the pass goes on with the larger of the two
    rw [bubblePass]
    split at hpair
    · rename_i hgt
      rw [if_pos hgt, (Prod.mk.inj hpair).1, (Prod.mk.inj hpair).2]
    · rename_i hgt
      rw [if_neg hgt, (Prod.mk.inj hpair).1, (Prod.mk.inj hpair).2]

theorem run_rounds {n : Nat} (rounds : Nat) (hrounds : rounds ≤ n) (s : MemoryMapBuffer) :
    ∃ s', (forRange (fun i => forRange compareSwap (n - 1 - i) 0) rounds (n - rounds)).run s =
        .ok () s' ∧ StoresIn 0 n s s' ∧
      s'.list n = bubbleRounds MemoryMapRange.startAddress rounds (s.list n) := by
  induction rounds generalizing s with
  | zero => exact ⟨s, rfl, .refl _ _ s, rfl⟩
  | succ rounds ih =>
    have hcount : n - 1 - (n - (rounds + 1)) = rounds := by omega
    have hnext : n - (rounds + 1) + 1 = n - rounds := by omega
    obtain ⟨t, hpass, hin, hlist⟩ := run_pass rounds 0 (n := n) (by omega) s
    obtain ⟨s', hrest, hin', hlist'⟩ := ih (by omega) t
    refine ⟨s', ?_, (hin.mono (by omega) (by omega)).trans hin', ?_⟩
    · rw [forRange, hcount, hnext]
      exact run_bind_ok.2 ⟨(), t, hpass, hrest⟩
    · rw [hlist', bubbleRounds]
      exact congrArg _ hlist

theorem run_sortMemoryMap (n : Nat) (s : MemoryMapBuffer) :
    ∃ s', (sortMemoryMap n).run s = .ok () s' ∧ StoresIn 0 n s s' ∧
      s'.list n = bubbleRounds MemoryMapRange.startAddress n (s.list n) := by
  have h := run_rounds n (Nat.le_refl n) s
  rwa [Nat.sub_self] at h

/-! ## The calls -/

section

variable (boot : BootLoaderData) {s : MemoryMapBuffer}

theorem run_getMemoryMap_first (hs : s.buffered = false) :
    ∃ l s', (getMemoryMap boot).run s = .ok l s' ∧
      l = bubbleSort MemoryMapRange.startAddress (boot.mapItems.map MemoryMapItem.translate) ∧
      (∃ new, s'.stores = s.stores ++ List.range' 0 boot.mapItems.length ++ new ∧
        ∀ i ∈ new, i < boot.mapItems.length) ∧
      s'.buffered = true ∧ s'.list s'.countBuff = l := by
  obtain ⟨t, hfill, hlist, -, hstores⟩ := run_fillMemoryMap boot.mapItems 0 s
  obtain ⟨u, hsort, hin, hsorted⟩ := run_sortMemoryMap boot.mapItems.length t
  obtain ⟨new, hnew, hlt⟩ := hin.stores_eq
  refine ⟨u.list boot.mapItems.length,
    { u with countBuff := boot.mapItems.length, buffered := true }, ?_, ?_, ⟨new, ?_, ?_⟩, rfl, rfl⟩
  · rw [getMemoryMap, run_get_bind, if_neg (by rw [hs]; decide), run_ok_bind hfill,
      run_ok_bind hsort, run_modify_bind, run_get_bind]
    rfl
  · rw [hsorted, bubbleSort, List.length_map]
    exact congrArg _ hlist
  · rw [← hstores]
    exact hnew
  · exact fun i hi => (hlt i hi).2

theorem run_getMemoryMap_later (hs : s.buffered = true) :
    (getMemoryMap boot).run s = .ok (s.list s.countBuff) s := by
  rw [getMemoryMap, run_get_bind, if_pos hs]
  rfl

end

def MemoryMapItem.reported (item : MemoryMapItem) : MemoryMapRange where
  startAddress := item.baseAddr
  size := item.size
  type :=
    if item.acpi.testBit 1 then .nonVolatile
    else if item.acpi.testBit 0 then typeMapping item.type
    else .reserved

theorem ite_typeMapping (type : Nat) :
    (if biosMemTypeUsable ≤ type ∧ type ≤ biosMemTypeBad then typeMapping type else .reserved) =
      typeMapping type := by
  split
  · rfl
  · rename_i hout
    simp only [biosMemTypeUsable, biosMemTypeBad] at hout
    rcases Nat.eq_zero_or_pos type with rfl | hpos
    · rfl
    · obtain ⟨k, rfl⟩ : ∃ k, type = k + 6 := Nat.exists_eq_add_of_le' (by omega)
      rfl

theorem MemoryMapItem.translate_eq_reported (item : MemoryMapItem) :
    item.translate = item.reported := by
  have hbit : ∀ i, item.acpi &&& 2 ^ i = 0 ↔ item.acpi.testBit i = false := by
    intro i
    rw [Nat.and_two_pow]
    cases item.acpi.testBit i <;> simp
  have htype := ite_typeMapping item.type
  have h0 := hbit 0
  have h1 := hbit 1
  simp only [Nat.pow_zero, Nat.pow_one] at h0 h1
  simp only [translate, reported, htype, h0, h1, ne_eq]
  cases item.acpi.testBit 0 <;> cases item.acpi.testBit 1 <;> rfl

/-- The map is right and stays in its buffer exactly for at most 128 entries. -/
theorem getMemoryMap_right_iff (boot : BootLoaderData) (ranges : Nat → MemoryMapRange)
    (count : Nat) :
    (∃ l s', (getMemoryMap boot).run ⟨ranges, count, false, []⟩ = .ok l s' ∧
        (∀ i ∈ s'.stores, i < maxPhysicalMemoryRanges) ∧
        SortedBy MemoryMapRange.startAddress l ∧
        l.Perm (boot.mapItems.map MemoryMapItem.reported) ∧
        (getMemoryMap boot).run s' = .ok l s') ↔
      boot.mapItems.length ≤ maxPhysicalMemoryRanges := by
  obtain ⟨l, s', hrun, hl, ⟨new, hstores, hnew⟩, hbuffered, hlist⟩ :=
    run_getMemoryMap_first (s := ⟨ranges, count, false, []⟩) boot rfl
  rw [List.nil_append] at hstores
  constructor
  · rintro ⟨l₂, s₂, hrun₂, hin, -⟩
    obtain rfl : s' = s₂ := by
      rw [hrun] at hrun₂
      injection hrun₂
    by_contra hlong
    -- the loop has stored behind the last place
    have hmem : maxPhysicalMemoryRanges ∈ s'.stores := by
      rw [hstores]
      refine List.mem_append_left _ (List.mem_range'.2 ⟨maxPhysicalMemoryRanges, ?_, ?_⟩) <;> omega
    exact Nat.lt_irrefl _ (hin _ hmem)
  · intro hle
    refine ⟨l, s', hrun, fun i hi => ?_, ?_, ?_, ?_⟩
    · rw [hstores] at hi
      rcases List.mem_append.1 hi with hi | hi
      · obtain ⟨k, hk, rfl⟩ := List.mem_range'.1 hi
        omega
      · exact Nat.lt_of_lt_of_le (hnew i hi) hle
    · rw [hl]
      exact bubbleSort_sorted _
    · have hmap : boot.mapItems.map MemoryMapItem.reported =
          boot.mapItems.map MemoryMapItem.translate :=
        List.map_congr_left fun item _ => item.translate_eq_reported.symm
      rw [hl, hmap]
      exact bubbleSort_perm _
    · rw [run_getMemoryMap_later boot hbuffered, hlist]

def longMap : BootLoaderData := ⟨List.replicate 129 ⟨0, 4096, 1, 1⟩, ⟨0, 4096, 1, 1⟩, 0⟩

theorem getMemoryMap_stores_outside :
    ∃ l s', (getMemoryMap longMap).run ⟨fun _ => ⟨0, 0, .reserved⟩, 0, false, []⟩ = .ok l s' ∧
      maxPhysicalMemoryRanges ∈ s'.stores := by
  obtain ⟨l, s', hrun, -, ⟨new, hstores, -⟩, -⟩ := run_getMemoryMap_first longMap
    (s := ⟨fun _ => ⟨0, 0, .reserved⟩, 0, false, []⟩) rfl
  refine ⟨l, s', hrun, ?_⟩
  have hlength : longMap.mapItems.length = 129 := List.length_replicate
  have hmem : maxPhysicalMemoryRanges ∈ List.range' 0 longMap.mapItems.length := by
    rw [hlength]
    exact List.mem_range'.2 ⟨128, by decide, rfl⟩
  rw [hstores]
  exact List.mem_append_left _ (List.mem_append_right _ hmem)

end GarbageOS
