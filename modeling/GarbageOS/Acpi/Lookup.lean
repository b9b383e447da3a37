import GarbageOS.Acpi.Code
import Mathlib.Order.Basic

/-!
# Looking up a table

The root table is a header of 36 bytes, whose length field covers the whole table, and then the
addresses of the tables. `get_table_header` takes the size of the header off the length without
looking whether it is that long.
-/

namespace GarbageOS.KernelView

open Lib

/-! ## What the table holds -/

def entryWidth (cache : AcpiCache) : Nat := if cache.cachedXsdp ≠ 0 then 8 else 4

section

variable (v : KernelView) (cache : AcpiCache)

def rootTable : Nat :=
  if cache.cachedXsdp ≠ 0 then v.bytes.get64 (cache.cachedXsdp + 24)
  else v.bytes.get32 (cache.cachedRsdp + 16)

def rootLength : Nat := v.bytes.get32 (v.rootTable cache + 4)

def entryAt (i : Nat) : Nat :=
  let a := v.rootTable cache + (acpiHeaderSize + i * entryWidth cache)
  if entryWidth cache = 8 then v.bytes.get64 a else v.bytes.get32 a

/-- The entries that lie wholly inside the table. -/
def entries : Nat := (v.rootLength cache - acpiHeaderSize) / entryWidth cache

/-- The root pointer and the root table are there. -/
structure HasRootTable : Prop where
  cached : cache.cachedRsdp ≠ 0 ∨ cache.cachedXsdp ≠ 0
  pointer : if cache.cachedXsdp ≠ 0 then ∀ i < 8, v.mapped (cache.cachedXsdp + 24 + i) = true
    else ∀ i < 4, v.mapped (cache.cachedRsdp + 16 + i) = true
  table : ∀ o, o < acpiHeaderSize ∨ o < v.rootLength cache →
    v.mapped (v.rootTable cache + o) = true

/-- Only slots of the table are read, and the first table with the signature is returned, or NULL. -/
def LooksUpTable (signature : Nat) : Prop :=
  (∀ offset ∈ (v.getTableHeader cache signature).trace,
    acpiHeaderSize ≤ offset ∧ offset + entryWidth cache ≤ v.rootLength cache) ∧
  (v.getTableHeader cache signature).result =
    .ok ((((List.range (v.entries cache)).map (v.entryAt cache)).find? fun header =>
      v.bytes.get32 header == signature).getD 0)

def HeaderMapped (header : Nat) : Prop := v.mapped header = true ∧ v.mapped (header + 3) = true

end

variable {v : KernelView} {cache : AcpiCache} {signature a : Nat}

/-! ## The loop -/

theorem read32_of_mapped (h : v.HeaderMapped a) : v.read32 a = .ok (v.bytes.get32 a) := by
  rw [read32, access, h.1, show a + 4 - 1 = a + 3 from rfl, h.2]
  rfl

theorem read32_of_unmapped (h : ¬ v.HeaderMapped a) : ∃ e, v.read32 a = .error e := by
  have hno : (v.mapped a && v.mapped (a + 4 - 1)) = false := by
    rw [Bool.eq_false_iff]
    exact fun hb => h (Bool.and_eq_true_iff.1 hb)
  rw [read32, access, hno, if_neg (by decide)]
  split <;> exact ⟨_, rfl⟩

theorem read64_of_mapped (h : v.mapped a = true) (h' : v.mapped (a + 7) = true) :
    v.read64 a = .ok (v.bytes.get64 a) := by
  rw [read64, access, h, show a + 8 - 1 = a + 7 from rfl, h']
  rfl

/-- Every slot that the loop reads is one of the next `n`. -/
theorem mem_trace_findTable {table width n i : Nat} :
    ∀ offset ∈ (v.findTable signature table width n i).trace,
      ∃ j, i ≤ j ∧ j < i + n ∧ offset = acpiHeaderSize + j * width := by
  induction n generalizing i with
  | zero => exact fun _ h => absurd h List.not_mem_nil
  | succ n ih =>
    rw [findTable, Traced.forall_mem_bind_trace]
    refine ⟨fun offset hmem => ⟨i, Nat.le_refl i, by omega, List.mem_singleton.1 hmem⟩, fun header _ => ?_⟩
    rw [Traced.forall_mem_bind_trace]
    refine ⟨fun _ h => absurd h List.not_mem_nil, fun found _ => ?_⟩
    split
    · exact fun _ h => absurd h List.not_mem_nil
    · intro offset hmem
      obtain ⟨j, hlo, hhi, rfl⟩ := ih offset hmem
      exact ⟨j, by omega, by omega, rfl⟩

theorem findTable_result {table width n i : Nat} (entry : Nat → Nat)
    (hslots : ∀ j, i ≤ j → j < i + n →
      (v.readEntry table width (acpiHeaderSize + j * width)).result = .ok (entry j))
    (r : Nat) :
    (v.findTable signature table width n i).result = .ok r ↔
      (∀ j, i ≤ j → j < i + n → (∀ k, i ≤ k → k < j → v.bytes.get32 (entry k) ≠ signature) →
        v.HeaderMapped (entry j)) ∧
      r = (((List.range' i n).map entry).find? fun header => v.bytes.get32 header == signature).getD 0 := by
  induction n generalizing i with
  | zero =>
    refine ⟨fun h => ⟨fun j hlo hhi => by omega, (Except.ok.inj h).symm⟩, fun h => ?_⟩
    rw [h.2]
    rfl
  | succ n ih =>
    rw [findTable, Traced.bind_result, hslots i (Nat.le_refl i) (by omega), ok_bind, Traced.bind_result]
    by_cases hmapped : v.HeaderMapped (entry i)
    · rw [read32_of_mapped hmapped, ok_bind, List.range'_succ, List.map_cons, List.find?_cons]
      cases hmatch : v.bytes.get32 (entry i) == signature with
      | true =>
        rw [if_pos (beq_iff_eq.1 hmatch)]
        refine ⟨fun h => ⟨fun j hlo hhi hno => ?_, (Except.ok.inj h).symm⟩, fun h => ?_⟩
        · rcases Nat.eq_or_lt_of_le hlo with rfl | hlt
          · exact hmapped
          · exact absurd (beq_iff_eq.1 hmatch) (hno i (Nat.le_refl i) hlt)
        · rw [h.2]
          rfl
      | false =>
        have hne := beq_eq_false_iff_ne.1 hmatch
        rw [if_neg hne, ih fun j hlo hhi => hslots j (by omega) (by omega)]
        refine and_congr_left fun _ => ⟨fun h j hlo hhi hno => ?_, fun h j hlo hhi hno => ?_⟩
        · rcases Nat.eq_or_lt_of_le hlo with rfl | hlt
          · exact hmapped
          · exact h j hlt (by omega) fun k hk => hno k (by omega)
        · refine h j (by omega) (by omega) fun k hk hkj => ?_
          rcases Nat.eq_or_lt_of_le hk with rfl | hlt
          · exact hne
          · exact hno k hlt hkj
    · obtain ⟨e, he⟩ := read32_of_unmapped hmapped
      rw [he]
      refine iff_of_false (fun h => ?_) fun h => hmapped ?_
      · cases h
      · exact h.1 i (Nat.le_refl i) (by omega) fun k hk hki => by omega

/-! ## The lookup -/

theorem entryWidth_cases (cache : AcpiCache) : entryWidth cache = 8 ∨ entryWidth cache = 4 := by
  unfold entryWidth
  split
  · exact .inl rfl
  · exact .inr rfl

/-- The length of the table decides how many slots are read. -/
theorem HasRootTable.getTableHeader_eq (h : v.HasRootTable cache) :
    v.getTableHeader cache signature =
      v.findTable signature (v.rootTable cache) (entryWidth cache)
        (sub64 (v.rootLength cache) acpiHeaderSize / entryWidth cache) 0 := by
  have hlength : v.getAcpiTableHeaderlessLenght (v.rootTable cache) =
      .ok (sub64 (v.rootLength cache) acpiHeaderSize) := by
    rw [getAcpiTableHeaderlessLenght, read32_of_mapped]
    · rfl
    · exact ⟨h.table 4 (.inl (by decide)), h.table 7 (.inl (by decide))⟩
  have hcached : ¬ (cache.cachedRsdp = 0 ∧ cache.cachedXsdp = 0) := fun hnull =>
    h.cached.elim (fun hr => hr hnull.1) fun hx => hx hnull.2
  have hpointer := h.pointer
  unfold getTableHeader
  rw [if_neg hcached]
  by_cases hx : cache.cachedXsdp ≠ 0
  · rw [if_pos hx] at hpointer
    have hroot : v.read64 (cache.cachedXsdp + 24) = .ok (v.rootTable cache) := by
      rw [read64_of_mapped (hpointer 0 (by decide)) (hpointer 7 (by decide)), rootTable, if_pos hx]
    rw [if_pos hx, hroot, show entryWidth cache = 8 from if_pos hx]
    dsimp only
    rw [Traced.mk_ok_bind, hlength, Traced.mk_ok_bind]
  · rw [if_neg hx] at hpointer
    have hroot : v.read32 (cache.cachedRsdp + 16) = .ok (v.rootTable cache) := by
      rw [read32_of_mapped ⟨hpointer 0 (by decide), hpointer 3 (by decide)⟩, rootTable, if_neg hx]
    rw [if_neg hx, hroot, show entryWidth cache = 4 from if_neg hx]
    dsimp only
    rw [Traced.mk_ok_bind, hlength, Traced.mk_ok_bind]

theorem HasRootTable.readEntry_eq (h : v.HasRootTable cache) {i : Nat}
    (hi : acpiHeaderSize + i * entryWidth cache + entryWidth cache ≤ v.rootLength cache) :
    (v.readEntry (v.rootTable cache) (entryWidth cache)
      (acpiHeaderSize + i * entryWidth cache)).result = .ok (v.entryAt cache i) := by
  generalize hoff : acpiHeaderSize + i * entryWidth cache = offset at hi
  have hmapped : ∀ k < entryWidth cache, v.mapped (v.rootTable cache + offset + k) = true := by
    intro k hk
    rw [Nat.add_assoc]
    exact h.table _ (.inr (by omega))
  have hpos : 0 < entryWidth cache := by rcases entryWidth_cases cache with hw | hw <;> omega
  have hword : v.rootTable cache + offset < 2 ^ 64 := v.word _ (hmapped 0 hpos)
  unfold readEntry entryAt
  rw [hoff]
  dsimp only
  rw [add64_eq hword]
  rcases entryWidth_cases cache with hw | hw
  · rw [hw] at hmapped ⊢
    rw [if_pos rfl, if_pos rfl]
    exact read64_of_mapped (hmapped 0 (by decide)) (hmapped 7 (by decide))
  · rw [hw] at hmapped ⊢
    rw [if_neg (by decide), if_neg (by decide)]
    exact read32_of_mapped ⟨hmapped 0 (by decide), hmapped 3 (by decide)⟩

theorem slot_inside {length width i : Nat} (hwidth : 0 < width)
    (hi : i < (length - acpiHeaderSize) / width) : acpiHeaderSize + i * width + width ≤ length := by
  have hmul := Nat.div_mul_le_self (length - acpiHeaderSize) width
  have hle := Nat.mul_le_mul_right width (Nat.succ_le_of_lt hi)
  rw [Nat.succ_mul] at hle
  have hpos : 0 < (length - acpiHeaderSize) / width := by omega
  have := Nat.div_pos_iff.1 hpos
  omega

/-- The lookup is exact if and only if the table is as long as its header, and the entries up to the
first match have the addresses of mapped tables. -/
theorem looksUpTable_iff {v : KernelView} {cache : AcpiCache} (h : v.HasRootTable cache)
    (signature : Nat) :
    v.LooksUpTable cache signature ↔ acpiHeaderSize ≤ v.rootLength cache ∧
      ∀ i < v.entries cache, (∀ j < i, v.bytes.get32 (v.entryAt cache j) ≠ signature) →
        v.HeaderMapped (v.entryAt cache i) := by
  have hpos : 0 < entryWidth cache := by rcases entryWidth_cases cache with hw | hw <;> omega
  have hword : v.rootLength cache < 2 ^ 32 := Bytes.get32_lt
  unfold LooksUpTable
  rw [h.getTableHeader_eq]
  by_cases hlong : acpiHeaderSize ≤ v.rootLength cache
  · rw [sub64_eq hlong (by omega)]
    change (∀ offset ∈ (v.findTable signature (v.rootTable cache) (entryWidth cache) (v.entries cache)
      0).trace, _) ∧ (v.findTable signature (v.rootTable cache) (entryWidth cache) (v.entries cache)
      0).result = _ ↔ _
    have htrace : ∀ offset ∈ (v.findTable signature (v.rootTable cache) (entryWidth cache)
        (v.entries cache) 0).trace, acpiHeaderSize ≤ offset ∧
          offset + entryWidth cache ≤ v.rootLength cache := by
      intro offset hmem
      obtain ⟨j, -, hj, rfl⟩ := mem_trace_findTable offset hmem
      rw [Nat.zero_add] at hj
      exact ⟨Nat.le_add_right _ _, slot_inside hpos hj⟩
    rw [findTable_result (v.entryAt cache), List.range_eq_range']
    · simp only [hlong, true_and, and_true, Nat.zero_le, Nat.zero_add, true_implies]
      exact ⟨fun hh => hh.2, fun hh => ⟨htrace, hh⟩⟩
    · intro j _ hj
      rw [Nat.zero_add] at hj
      exact h.readEntry_eq (slot_inside hpos hj)
  · -- the difference wraps, and the first slot is read
    refine iff_of_false (fun hl => ?_) fun hl => hlong hl.1
    have hmany : 0 < sub64 (v.rootLength cache) acpiHeaderSize / entryWidth cache := by
      refine Nat.div_pos ?_ hpos
      simp only [acpiHeaderSize, sub64] at hlong ⊢
      rcases entryWidth_cases cache with hw | hw <;> omega
    obtain ⟨n, hn⟩ := Nat.exists_eq_add_one.2 hmany
    rw [hn] at hl
    have hmem : acpiHeaderSize ∈ (v.findTable signature (v.rootTable cache)
        (entryWidth cache) (n + 1) 0).trace := by
      rw [findTable]
      refine Traced.mem_bind_trace_left (List.mem_singleton.2 ?_)
      rw [Nat.zero_mul, Nat.add_zero]
    have := (hl.1 _ hmem).2
    omega

/-- A root pointer at 1 MiB, an `RSDT` of some length at 2 MiB with tables at 3 and 4 MiB in its
first slots. -/
def twoTables (length : Nat) : KernelView :=
  ofBytes ((((((Bytes.put32 (fun _ => 0) (MB + 16) (2 * MB)).put32 (2 * MB + 4) length).put32
    (2 * MB + 36) (3 * MB)).put32 (2 * MB + 40) (4 * MB)).put32 (3 * MB) 0x43495041).put32 (4 * MB)
    0x50434146)

def twoTablesCache : AcpiCache := ⟨MB, 0⟩

theorem twoTables_hasRootTable : (twoTables 44).HasRootTable twoTablesCache where
  cached := .inl (by decide)
  pointer := by decide
  table o ho := by
    have hlength : (twoTables 44).rootLength twoTablesCache = 44 := by decide
    have hroot : (twoTables 44).rootTable twoTablesCache = 2097152 := by decide
    rw [hlength, acpiHeaderSize] at ho
    refine decide_eq_true ⟨?_, ?_⟩
    · rw [hroot]
      simp only [pageSize]
      omega
    · rw [hroot]
      simp only [identityMapVmemEnd, GB, MB, KB]
      omega

theorem looksUpTable_twoTables : (twoTables 44).LooksUpTable twoTablesCache 0x50434146 := by
  refine (looksUpTable_iff twoTables_hasRootTable _).2 ⟨by decide, fun i hi _ => ?_⟩
  have hentries : (twoTables 44).entries twoTablesCache = 2 := by decide
  obtain rfl | rfl : i = 0 ∨ i = 1 := by omega
  · exact ⟨by decide, by decide⟩
  · exact ⟨by decide, by decide⟩

/-- In a table of 35 bytes, which has no slots, the bytes behind it are taken for one. -/
theorem exists_slot_outside : (twoTables 35).rootLength twoTablesCache = 35 ∧
    ((twoTables 35).getTableHeader twoTablesCache 0x43495041).trace = [36] ∧
    ((twoTables 35).getTableHeader twoTablesCache 0x43495041).result = .ok (3 * MB) :=
  ⟨by decide, by decide +kernel, by decide +kernel⟩

end GarbageOS.KernelView
