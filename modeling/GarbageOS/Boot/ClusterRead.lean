import GarbageOS.Boot.Fat32Driver
import Mathlib.Data.List.Basic
import Mathlib.Logic.Function.Iterate

/-!
# Reading a cluster

Sector by sector: where the sector number and the place in memory stand after each round
of the loop, which sectors were read, and what is in memory. A round always returns; only
the step to the next cluster may not, when the quotient of its division does not fit.
-/

namespace GarbageOS.Fat32Driver

open Lib

variable {disk : Disk} {m m' : Machine} {size n : Nat}

/-! ## Filled memory -/

/-- The sectors are in memory one after the other from `edi` on, and nothing else has
changed but the buffer. -/
structure Filled (disk : Disk) (buffer edi : Nat) (sectors : List Nat) (mem mem' : Bytes) :
    Prop where
  written : ∀ (k : Nat) (hk : k < sectors.length), ∀ j < disk.sectorSize,
    mem' (edi + k * disk.sectorSize + j) = disk.sector (sectors[k]) j
  frame : ∀ a, (a < edi ∨ edi + sectors.length * disk.sectorSize ≤ a) →
    (a < buffer ∨ buffer + disk.sectorSize ≤ a) → mem' a = mem a

theorem Filled.append {buffer edi : Nat} {l₁ l₂ : List Nat} {mem mem₁ mem₂ : Bytes}
    (hbuffer : buffer + disk.sectorSize ≤ edi) (h₁ : Filled disk buffer edi l₁ mem mem₁)
    (h₂ : Filled disk buffer (edi + l₁.length * disk.sectorSize) l₂ mem₁ mem₂) :
    Filled disk buffer edi (l₁ ++ l₂) mem mem₂ where
  written k hk j hj := by
    rw [List.length_append] at hk
    by_cases hlt : k < l₁.length
    · -- the later sectors are behind
      have hk' := Nat.mul_le_mul_right disk.sectorSize (Nat.succ_le_of_lt hlt)
      rw [Nat.succ_mul] at hk'
      rw [List.getElem_append_left hlt, ← h₁.written k hlt j hj]
      exact h₂.frame _ (.inl (by omega)) (.inr (by omega))
    · rw [List.getElem_append_right (Nat.le_of_not_lt hlt),
        ← h₂.written (k - l₁.length) (by omega) j hj]
      congr 1
      rw [Nat.sub_mul]
      have := Nat.mul_le_mul_right disk.sectorSize (Nat.le_of_not_lt hlt)
      omega
  frame a ha hb := by
    rw [List.length_append, Nat.add_mul] at ha
    rw [h₂.frame a (by omega) hb, h₁.frame a (by omega) hb]

theorem Filled.of_buffer {buffer edi : Nat} {l : List Nat} {mem mem₁ mem₂ : Bytes}
    (h : Filled disk buffer edi l mem mem₁) (hbuffer : buffer + disk.sectorSize ≤ edi)
    (hmem : ∀ a, (a < buffer ∨ buffer + disk.sectorSize ≤ a) → mem₂ a = mem₁ a) :
    Filled disk buffer edi l mem mem₂ where
  written k hk j hj := by
    rw [hmem _ (.inr (by omega))]
    exact h.written k hk j hj
  frame a ha hb := (hmem a hb).trans (h.frame a ha hb)

/-! ## One sector -/

/-- What `.lfim_copy` does to the machine. -/
structure Copied (m m' : Machine) : Prop where
  ecx : m'.ecx = m.ecx
  edx : m'.edx = m.edx
  edi : m'.edi = m.edi
  vars : m'.vars = m.vars
  reads : m'.reads = m.reads
  mem : m.edi + m.vars.sectorSize ≤ 2 ^ 32 → m.esi + m.vars.sectorSize ≤ m.edi → ∀ a, m'.mem a =
    if m.edi + m.ebx ≤ a ∧ a < m.edi + m.vars.sectorSize then m.mem (m.esi + (a - m.edi))
    else m.mem a

def Machine.copyWord (m : Machine) : Machine :=
  let word := m.mem.get32 ((m.esi + m.ebx) % 2 ^ 32)
  { m with
    eax := word
    mem := m.mem.put32 ((m.edi + m.ebx) % 2 ^ 32) word
    ebx := (m.ebx + 4) % 2 ^ 32
    cf := (m.ebx + 4) % 2 ^ 32 < m.vars.sectorSize }

theorem run_lfimCopy_succ {steps : Nat} : (lfimCopy (steps + 1)).run m =
    if (m.ebx + 4) % 2 ^ 32 < m.vars.sectorSize then (lfimCopy steps).run m.copyWord
    else .ok () m.copyWord := by
  rw [lfimCopy, run_modify_bind, run_modify_bind, run_modify_bind, run_get_bind]
  dsimp only
  by_cases h : (m.ebx + 4) % 2 ^ 32 < m.vars.sectorSize
  · rw [if_pos h, decide_eq_true h, if_pos rfl]
    unfold Machine.copyWord
    rw [decide_eq_true h]
  · rw [if_neg h, decide_eq_false h, if_neg Bool.false_ne_true]
    unfold Machine.copyWord
    rw [decide_eq_false h]
    rfl

theorem copyWord_mem (hfit : m.edi + m.vars.sectorSize ≤ 2 ^ 32)
    (hbelow : m.esi + m.vars.sectorSize ≤ m.edi) (hword : m.ebx + 4 ≤ m.vars.sectorSize) (a : Nat) :
    m.copyWord.mem a = if m.edi + m.ebx ≤ a ∧ a < m.edi + (m.ebx + 4) then
      m.mem (m.esi + (a - m.edi)) else m.mem a := by
  unfold Machine.copyWord
  dsimp only
  rw [Nat.mod_eq_of_lt (show m.esi + m.ebx < 2 ^ 32 by omega),
    Nat.mod_eq_of_lt (show m.edi + m.ebx < 2 ^ 32 by omega)]
  split
  · next h =>
    obtain ⟨i, rfl⟩ := Nat.exists_eq_add_of_le h.1
    rw [Bytes.put32_get32 (by omega)]
    congr 1
    omega
  · exact Bytes.put32_out (by omega)

theorem lfimCopy_ok : ∀ {rounds steps : Nat} {m : Machine}, rounds < steps →
    m.ebx + 4 * (rounds + 1) = m.vars.sectorSize → m.vars.sectorSize < 2 ^ 32 →
    ∃ m', (lfimCopy steps).run m = .ok () m' ∧ Copied m m' := by
  intro rounds
  induction rounds with
  | zero =>
    intro steps m hsteps hebx hsize
    obtain ⟨steps, rfl⟩ := Nat.exists_eq_add_one.2 (Nat.zero_lt_of_lt hsteps)
    refine ⟨m.copyWord, ?_, rfl, rfl, rfl, rfl, rfl, fun hfit hbelow a => ?_⟩
    · rw [run_lfimCopy_succ, if_neg (by omega)]
    · rw [copyWord_mem hfit hbelow (by omega), ← hebx]
  | succ rounds ih =>
    intro steps m hsteps hebx hsize
    obtain ⟨steps, rfl⟩ := Nat.exists_eq_add_one.2 (Nat.zero_lt_of_lt hsteps)
    have hnext : m.copyWord.ebx = m.ebx + 4 := Nat.mod_eq_of_lt (by omega)
    obtain ⟨m', hrun, hcopied⟩ := ih (m := m.copyWord) (show rounds < steps by omega)
      (show m.copyWord.ebx + 4 * (rounds + 1) = m.vars.sectorSize by omega) hsize
    refine ⟨m', ?_, hcopied.ecx, hcopied.edx, hcopied.edi, hcopied.vars, hcopied.reads,
      fun hfit hbelow a => ?_⟩
    · rw [run_lfimCopy_succ, if_pos (by omega), hrun]
    · rw [hcopied.mem hfit hbelow a, hnext]
      show (if m.edi + (m.ebx + 4) ≤ a ∧ a < m.edi + m.vars.sectorSize then
        m.copyWord.mem (m.esi + (a - m.edi)) else m.copyWord.mem a) = _
      have hword : m.ebx + 4 ≤ m.vars.sectorSize := by omega
      by_cases hhigh : m.edi + (m.ebx + 4) ≤ a ∧ a < m.edi + m.vars.sectorSize
      · rw [if_pos hhigh, if_pos (by omega), copyWord_mem hfit hbelow hword, if_neg (by omega)]
      · rw [if_neg hhigh, copyWord_mem hfit hbelow hword]
        by_cases hlow : m.edi + m.ebx ≤ a ∧ a < m.edi + (m.ebx + 4)
        · rw [if_pos hlow, if_pos (by omega)]
        · rw [if_neg hlow, if_neg (by omega)]

/-- Where the loop over the sectors stands: the next sector is `edx:eax` and goes to `edi`. -/
structure Cursor where
  eax : Nat
  edx : Nat
  edi : Nat

def Machine.cursor (m : Machine) : Cursor := ⟨m.eax, m.edx, m.edi⟩

def Cursor.lba (c : Cursor) : Nat := c.eax + 2 ^ 32 * (c.edx % 2 ^ 16)

/-- One sector further. The carry into `edx` is the one of `edi`. -/
def Cursor.next (size : Nat) (c : Cursor) : Cursor where
  eax := (c.eax + 1) % 2 ^ 32
  edx := if 2 ^ 32 ≤ c.edi + size then (c.edx + 1) % 2 ^ 32 else c.edx
  edi := (c.edi + size) % 2 ^ 32

variable {c : Cursor}

/-- As long as `edi` does not wrap around, nothing is carried into `edx`. -/
theorem Cursor.iterate_next (heax : c.eax < 2 ^ 32) :
    ∀ {j : Nat}, c.edi + j * size < 2 ^ 32 →
      (Cursor.next size)^[j] c = ⟨(c.eax + j) % 2 ^ 32, c.edx, c.edi + j * size⟩ := by
  intro j
  induction j with
  | zero =>
    intro _
    rw [Function.iterate_zero_apply, Nat.add_zero, Nat.mod_eq_of_lt heax, Nat.zero_mul,
      Nat.add_zero]
  | succ j ih =>
    intro h
    rw [Nat.succ_mul] at h ⊢
    rw [Function.iterate_succ_apply', ih (by omega)]
    unfold Cursor.next
    dsimp only
    rw [if_neg (by omega), Nat.mod_add_mod, Nat.mod_eq_of_lt (a := c.edi + j * size + size)
      (by omega), Nat.add_assoc, Nat.add_assoc]

/-- The driver's variables belong to a FAT32 volume on the disk. The first two equations are
what `init_fat32_driver` establishes. -/
structure Volume (disk : Disk) (v : Vars) : Prop where
  sectorSize : v.sectorSize = disk.sectorSize
  dataAreaStart : v.dataAreaStart = (v.fatStart + v.numberOfFats * v.fatSize) % 2 ^ 32
  aligned : disk.sectorSize % 4 = 0
  sectorSize_pos : 0 < disk.sectorSize
  sectorSize_lt : disk.sectorSize < 2 ^ 16
  sectorsPerCluster_pos : 0 < v.sectorsPerCluster
  sectorsPerCluster_lt : v.sectorsPerCluster < 2 ^ 8
  fatStart_pos : 0 < v.fatStart
  numberOfFats_pos : 0 < v.numberOfFats
  /-- The buffer is one sector of the first 64 KiB. -/
  buffer : v.bufferOffset + disk.sectorSize ≤ 2 ^ 16

/-- What one round of `.lfim_parse_sector` does. -/
structure SectorRead (disk : Disk) (m m' : Machine) : Prop where
  reads : m'.reads = m.reads ++ [m.cursor.lba]
  vars : m'.vars = m.vars
  ecx : m'.ecx = m.ecx
  cursor : m'.cursor = m.cursor.next disk.sectorSize
  mem : m.edi + disk.sectorSize ≤ 2 ^ 32 → m.vars.bufferOffset + disk.sectorSize ≤ m.edi →
    Filled disk m.vars.bufferOffset m.edi [m.cursor.lba] m.mem m'.mem

def Machine.withSector (disk : Disk) (m : Machine) : Machine :=
  { m with
    cf := false
    mem := m.mem.copy m.vars.bufferOffset (disk.sector m.lba) disk.sectorSize
    reads := m.reads ++ [m.lba]
    esi := m.vars.bufferOffset
    ebx := 0 }

def Machine.advance (m saved : Machine) : Machine :=
  { m with
    edi := (m.edi + m.vars.sectorSize) % 2 ^ 32
    cf := 2 ^ 32 ≤ m.edi + m.vars.sectorSize
    eax := (saved.eax + 1) % 2 ^ 32
    ebx := saved.ebx
    edx := if 2 ^ 32 ≤ m.edi + m.vars.sectorSize then (m.edx + 1) % 2 ^ 32 else m.edx }

theorem run_lfimParseSector (hbuffer : m.vars.bufferOffset < 2 ^ 16)
    (h : (lfimCopy (2 ^ 30)).run (m.withSector disk) = .ok () m') :
    (lfimParseSector disk).run m = .ok () (m'.advance m) := by
  have hplace : setLow16 m.edi m.vars.bufferOffset % 2 ^ 16 = m.vars.bufferOffset := by
    unfold setLow16
    omega
  unfold lfimParseSector readSector
  rw [run_get_bind, run_modify_bind, run_modify_bind, run_modify_bind]
  dsimp only
  rw [hplace]
  refine (run_ok_bind h).trans ?_
  rw [run_modify_bind, run_modify_bind, EStateM.run_modify]
  unfold Machine.advance
  simp only [decide_eq_true_eq]

theorem lfimParseSector_ok (hvol : Volume disk m.vars) :
    ∃ m', (lfimParseSector disk).run m = .ok () m' ∧ SectorRead disk m m' := by
  have hsize := hvol.sectorSize
  have haligned := hvol.aligned
  have hpos := hvol.sectorSize_pos
  have hlt := hvol.sectorSize_lt
  have hbuffer := hvol.buffer
  obtain ⟨t, hcopy, hcopied⟩ := lfimCopy_ok (m := m.withSector disk)
    (show disk.sectorSize / 4 - 1 < 2 ^ 30 by omega)
    (show 0 + 4 * (disk.sectorSize / 4 - 1 + 1) = m.vars.sectorSize by omega)
    (show m.vars.sectorSize < 2 ^ 32 by omega)
  have hvars : t.vars = m.vars := hcopied.vars
  have hedi : t.edi = m.edi := hcopied.edi
  have hedx : t.edx = m.edx := hcopied.edx
  refine ⟨t.advance m, run_lfimParseSector (by omega) hcopy, hcopied.reads, hvars, hcopied.ecx,
    ?_, fun hfit hbelow => ⟨fun k hk j hj => ?_, fun a ha hb => ?_⟩⟩
  · unfold Machine.cursor Machine.advance Cursor.next
    rw [hvars, hedi, hedx, hsize]
  · obtain rfl := Nat.lt_one_iff.1 hk
    rw [Nat.zero_mul, Nat.add_zero]
    have hmem := hcopied.mem (show m.edi + m.vars.sectorSize ≤ 2 ^ 32 by omega)
      (show m.vars.bufferOffset + m.vars.sectorSize ≤ m.edi by omega) (m.edi + j)
    rw [if_pos ⟨Nat.le_add_right _ _, show m.edi + j < m.edi + m.vars.sectorSize by omega⟩] at hmem
    refine hmem.trans ?_
    show m.mem.copy m.vars.bufferOffset (disk.sector m.lba) disk.sectorSize
      (m.vars.bufferOffset + (m.edi + j - m.edi)) = disk.sector m.lba j
    rw [Nat.add_sub_cancel_left, Bytes.copy_in hj]
  · rw [List.length_singleton, Nat.one_mul] at ha
    have hmem := hcopied.mem (show m.edi + m.vars.sectorSize ≤ 2 ^ 32 by omega)
      (show m.vars.bufferOffset + m.vars.sectorSize ≤ m.edi by omega) a
    refine (hmem.trans (if_neg ?_)).trans (Bytes.copy_out hb)
    show ¬ (m.edi + 0 ≤ a ∧ a < m.edi + m.vars.sectorSize)
    omega

/-! ## The sectors of a cluster -/

/-- The sectors that `n` rounds read. -/
def Cursor.sectors (size : Nat) (c : Cursor) (n : Nat) : List Nat :=
  (List.range n).map fun j => ((Cursor.next size)^[j] c).lba

theorem Cursor.sectors_succ : c.sectors size (n + 1) = c.lba :: (c.next size).sectors size n := by
  unfold Cursor.sectors
  rw [List.range_succ_eq_map, List.map_cons, List.map_map]
  rfl

theorem Cursor.length_sectors : (c.sectors size n).length = n := by
  unfold Cursor.sectors
  rw [List.length_map, List.length_range]

/-- What `n` rounds of `.lfim_parse_sector` do. -/
structure SectorsRead (disk : Disk) (n : Nat) (m m' : Machine) : Prop where
  reads : m'.reads = m.reads ++ m.cursor.sectors disk.sectorSize n
  vars : m'.vars = m.vars
  ecx : m'.ecx % 2 ^ 16 = 0
  cursor : m'.cursor = (Cursor.next disk.sectorSize)^[n] m.cursor
  mem : m.edi + n * disk.sectorSize ≤ 2 ^ 32 →
    m.vars.bufferOffset + disk.sectorSize ≤ m.edi →
      Filled disk m.vars.bufferOffset m.edi (m.cursor.sectors disk.sectorSize n) m.mem m'.mem

theorem run_lfimParseSectors_succ {steps : Nat} {t : Machine}
    (h : (lfimParseSector disk).run m = .ok () t) : (lfimParseSectors disk (steps + 1)).run m =
      if t.countDown.ecx % 2 ^ 16 ≠ 0 then (lfimParseSectors disk steps).run t.countDown
      else .ok () t.countDown := by
  rw [lfimParseSectors, run_ok_bind h, run_modify_bind, run_get_bind]
  split
  · rfl
  · rfl

theorem countDown_ecx (h : m.ecx % 2 ^ 16 = n + 1) : m.countDown.ecx % 2 ^ 16 = n := by
  unfold Machine.countDown setLow16
  dsimp only
  omega

@[simp] theorem countDown_reads : m.countDown.reads = m.reads := by unfold Machine.countDown; rfl
@[simp] theorem countDown_vars : m.countDown.vars = m.vars := by unfold Machine.countDown; rfl
@[simp] theorem countDown_mem : m.countDown.mem = m.mem := by unfold Machine.countDown; rfl
@[simp] theorem countDown_edi : m.countDown.edi = m.edi := by unfold Machine.countDown; rfl
@[simp] theorem countDown_cursor : m.countDown.cursor = m.cursor := by
  unfold Machine.cursor Machine.countDown; rfl

theorem lfimParseSectors_ok : ∀ {n steps : Nat} {m : Machine}, n < steps →
    m.ecx % 2 ^ 16 = n + 1 → Volume disk m.vars →
    ∃ m', (lfimParseSectors disk steps).run m = .ok () m' ∧ SectorsRead disk (n + 1) m m' := by
  intro n
  induction n with
  | zero =>
    intro steps m hsteps hecx hvol
    obtain ⟨steps, rfl⟩ := Nat.exists_eq_add_one.2 (Nat.zero_lt_of_lt hsteps)
    obtain ⟨t, hrun, hread⟩ := lfimParseSector_ok hvol
    have hzero : t.countDown.ecx % 2 ^ 16 = 0 := countDown_ecx (by rw [hread.ecx, hecx])
    refine ⟨t.countDown, ?_, ?_, ?_, hzero, ?_, fun hfit hbelow => ?_⟩
    · rw [run_lfimParseSectors_succ hrun, if_neg (not_not_intro hzero)]
    · rw [countDown_reads, hread.reads]
      rfl
    · rw [countDown_vars, hread.vars]
    · rw [countDown_cursor, hread.cursor]
      rfl
    · rw [countDown_mem]
      exact hread.mem (by omega) hbelow
  | succ n ih =>
    intro steps m hsteps hecx hvol
    obtain ⟨steps, rfl⟩ := Nat.exists_eq_add_one.2 (Nat.zero_lt_of_lt hsteps)
    obtain ⟨t, hrun, hread⟩ := lfimParseSector_ok hvol
    have hcount : t.countDown.ecx % 2 ^ 16 = n + 1 := countDown_ecx (by rw [hread.ecx, hecx])
    obtain ⟨m', hrun', hreads⟩ := ih (show n < steps by omega) hcount (by
      rw [countDown_vars, hread.vars]
      exact hvol)
    have hcursor : t.countDown.cursor = m.cursor.next disk.sectorSize := by
      rw [countDown_cursor, hread.cursor]
    refine ⟨m', ?_, ?_, ?_, hreads.ecx, ?_, fun hfit hbelow => ?_⟩
    · rw [run_lfimParseSectors_succ hrun, if_pos (by omega), hrun']
    · rw [Cursor.sectors_succ, ← hcursor, hreads.reads, countDown_reads, hread.reads,
        List.append_assoc, List.singleton_append]
    · rw [hreads.vars, countDown_vars, hread.vars]
    · rw [Function.iterate_succ_apply, ← hcursor]
      exact hreads.cursor
    · rw [Nat.succ_mul, Nat.succ_mul] at hfit
      have hsize := hvol.sectorSize_pos
      have hedi : t.edi = m.edi + disk.sectorSize := by
        rw [show t.edi = t.cursor.edi from rfl, hread.cursor]
        exact Nat.mod_eq_of_lt (show m.edi + disk.sectorSize < 2 ^ 32 by omega)
      have hrest := hreads.mem
      rw [countDown_edi, countDown_vars, countDown_mem, hcursor, hread.vars, hedi,
        Nat.succ_mul] at hrest
      rw [Cursor.sectors_succ, ← List.singleton_append]
      refine (hread.mem (by omega) hbelow).append hbelow ?_
      rw [List.length_singleton, Nat.one_mul]
      exact hrest (by omega) (by omega)

section

variable (v : Vars) (cluster : Nat)

def Vars.dataArea : Nat := v.partitionOffset + (v.fatStart + v.numberOfFats * v.fatSize)

def Vars.firstSector : Nat := v.dataArea + (cluster - 2) * v.sectorsPerCluster

def Vars.clusterSectors : List Nat :=
  (List.range v.sectorsPerCluster).map (v.firstSector cluster + ·)

/-- The first sector as the driver computes it: the start of the data area is 32 bits. -/
def Vars.computedSector : Nat :=
  (cluster - 2) * v.sectorsPerCluster + v.dataArea % 2 ^ 32

end

def Machine.atCluster (m : Machine) : Machine :=
  let m := { m with eax := m.vars.lfimClus }.firstSectorOfCluster
  { m with ecx := setLow8 m.ecx m.vars.sectorsPerCluster }

theorem run_lfimLoadCluster :
    (lfimLoadCluster disk).run m = (lfimParseSectors disk (2 ^ 16)).run m.atCluster := by
  unfold lfimLoadCluster fat32GetFirstSectorOfCluster
  rw [run_modify_bind, run_modify_bind, run_modify_bind]
  rfl

theorem atCluster_reads : m.atCluster.reads = m.reads := by
  unfold Machine.atCluster Machine.firstSectorOfCluster; rfl

theorem atCluster_vars : m.atCluster.vars = m.vars := by
  unfold Machine.atCluster Machine.firstSectorOfCluster; rfl

theorem atCluster_mem : m.atCluster.mem = m.mem := by
  unfold Machine.atCluster Machine.firstSectorOfCluster; rfl

theorem atCluster_edi : m.atCluster.edi = m.edi := by
  unfold Machine.atCluster Machine.firstSectorOfCluster; rfl

section

variable (hvol : Volume disk m.vars)

include hvol

theorem atCluster_ecx :
    m.atCluster.ecx % 2 ^ 16 = m.ecx / 2 ^ 8 % 2 ^ 8 * 2 ^ 8 + m.vars.sectorsPerCluster := by
  have := hvol.sectorsPerCluster_lt
  unfold Machine.atCluster Machine.firstSectorOfCluster setLow8
  dsimp only
  omega

theorem atCluster_cursor (hcluster : 2 ≤ m.vars.lfimClus) (hcluster' : m.vars.lfimClus < 2 ^ 28) :
    m.atCluster.cursor =
      ⟨m.vars.computedSector m.vars.lfimClus % 2 ^ 32,
        m.vars.computedSector m.vars.lfimClus / 2 ^ 32, m.edi⟩ := by
  have hproduct : (m.vars.lfimClus - 2) * m.vars.sectorsPerCluster < 2 ^ 28 * 2 ^ 8 :=
    Nat.mul_lt_mul'' (by omega) hvol.sectorsPerCluster_lt
  have hbase : (m.vars.partitionOffset + m.vars.dataAreaStart) % 2 ^ 32 =
      m.vars.dataArea % 2 ^ 32 := by
    rw [hvol.dataAreaStart, Nat.add_mod_mod]
    rfl
  have hsub : (m.vars.lfimClus + (2 ^ 32 - 2)) % 2 ^ 32 = m.vars.lfimClus - 2 := by omega
  unfold Machine.cursor Machine.atCluster Machine.firstSectorOfCluster Vars.computedSector
  dsimp only
  rw [hbase, hsub]
  generalize (m.vars.lfimClus - 2) * m.vars.sectorsPerCluster = product at *
  have hlt : m.vars.dataArea % 2 ^ 32 < 2 ^ 32 := Nat.mod_lt _ (by decide)
  generalize m.vars.dataArea % 2 ^ 32 = base at *
  rw [Cursor.mk.injEq]
  refine ⟨by omega, ?_, rfl⟩
  split
  · omega
  · omega

/-- The cluster is loaded from the sector the driver computes, `256 * ch` sectors too many. -/
theorem lfimLoadCluster_ok :
    ∃ m', (lfimLoadCluster disk).run m = .ok () m' ∧
      SectorsRead disk (m.ecx / 2 ^ 8 % 2 ^ 8 * 2 ^ 8 + m.vars.sectorsPerCluster) m.atCluster m' := by
  have hecx := atCluster_ecx hvol
  have hpos := hvol.sectorsPerCluster_pos
  have hlt : m.atCluster.ecx % 2 ^ 16 < 2 ^ 16 := Nat.mod_lt _ (by decide)
  rw [run_lfimLoadCluster, ← hecx]
  obtain ⟨n, hn⟩ := Nat.exists_eq_succ_of_ne_zero (show m.atCluster.ecx % 2 ^ 16 ≠ 0 by omega)
  rw [hn]
  exact lfimParseSectors_ok (by omega) hn (by rw [atCluster_vars]; exact hvol)

/-! ## The entry of a cluster -/

def Vars.entrySector (disk : Disk) (v : Vars) (cluster : Nat) : Nat :=
  v.partitionOffset + v.fatStart + 4 * cluster / disk.sectorSize

/-- The entry of a cluster in the first table, all 32 bits of it. -/
def fatEntry (disk : Disk) (v : Vars) (cluster : Nat) : Nat :=
  (disk.sector (v.entrySector disk cluster)).get32 (4 * cluster % disk.sectorSize)

/-- The machine when the entry is in `eax`. -/
def Machine.withEntry (disk : Disk) (m : Machine) : Machine :=
  let sector := m.vars.entrySector disk m.vars.lfimClus
  { m with
    eax := fatEntry disk m.vars m.vars.lfimClus
    ebp := sector
    cf := false
    mem := m.mem.copy m.vars.bufferOffset (disk.sector sector) disk.sectorSize
    vars := { m.vars with lfimClus := fatEntry disk m.vars m.vars.lfimClus }
    reads := m.reads ++ [sector] }

theorem run_lfimNextCluster_ok (h : (lfimNextCluster disk).run m = .ok () m') :
    (m.vars.lfimClus < 2 ^ 28 → 4 * m.vars.lfimClus / disk.sectorSize < 2 ^ 16) ∧
      (∃ entry, m'.vars = { m.vars with lfimClus := entry }) ∧ m.reads <+: m'.reads := by
  unfold lfimNextCluster getFatEntry readSector at h
  rw [run_modify_bind] at h
  obtain ⟨_, t, h, h'⟩ := run_bind_ok.1 h
  rw [run_get_bind] at h
  obtain ⟨hdiv, h⟩ := run_check_bind.1 h
  rw [run_modify_bind, run_modify_bind, EStateM.run_modify] at h
  cases h
  cases h'
  refine ⟨fun hcluster => ?_, ⟨_, rfl⟩, List.prefix_append ..⟩
  have hdiv := of_decide_eq_true (Bool.and_eq_true .. ▸ hdiv).2
  dsimp only at hdiv
  rwa [hvol.sectorSize, Nat.mod_eq_of_lt (show 4 * m.vars.lfimClus < 2 ^ 32 by omega),
    Nat.mod_eq_of_lt hvol.sectorSize_lt] at hdiv

theorem fatEntry_eq {cluster : Nat} :
    (m.mem.copy m.vars.bufferOffset (disk.sector (m.vars.entrySector disk cluster))
      disk.sectorSize).get32 ((4 * cluster % disk.sectorSize + m.vars.bufferOffset) % 2 ^ 16) =
        fatEntry disk m.vars cluster := by
  have hpos := hvol.sectorSize_pos
  have hbuffer := hvol.buffer
  have hmod : 4 * cluster % disk.sectorSize < disk.sectorSize := Nat.mod_lt _ hpos
  have haligned : 4 * cluster % disk.sectorSize % 4 = 0 := by
    rw [Nat.mod_mod_of_dvd _ (Nat.dvd_of_mod_eq_zero hvol.aligned), Nat.mul_mod_right]
  have hsize := hvol.aligned
  rw [Nat.mod_eq_of_lt (by omega), Nat.add_comm]
  unfold fatEntry
  refine Bytes.get32_congr fun i hi => ?_
  rw [Nat.add_assoc]
  exact Bytes.copy_in (by omega)

theorem run_lfimNextCluster (hcluster : m.vars.lfimClus < 2 ^ 28)
    (hquotient : 4 * m.vars.lfimClus / disk.sectorSize < 2 ^ 16)
    (hsector : m.vars.entrySector disk m.vars.lfimClus < 2 ^ 32) :
    (lfimNextCluster disk).run m = .ok () (m.withEntry disk) := by
  have hlt := hvol.sectorSize_lt
  have hpos := hvol.sectorSize_pos
  have hbuffer := hvol.buffer
  have hplace : setLow16 m.edi m.vars.bufferOffset % 2 ^ 16 = m.vars.bufferOffset := by
    unfold setLow16
    omega
  have hsum : (4 * m.vars.lfimClus / disk.sectorSize + m.vars.fatStart + m.vars.partitionOffset) %
      2 ^ 32 = m.vars.entrySector disk m.vars.lfimClus := by
    unfold Vars.entrySector at hsector ⊢
    rw [Nat.mod_eq_of_lt (by omega)]
    omega
  unfold lfimNextCluster
  rw [run_modify_bind]
  refine (run_ok_bind (t := { m.withEntry disk with vars := m.vars }) (a := ()) ?_).trans rfl
  unfold getFatEntry readSector
  rw [run_get_bind]
  dsimp only
  rw [hvol.sectorSize, Nat.mod_eq_of_lt (show 4 * m.vars.lfimClus < 2 ^ 32 by omega),
    Nat.mod_eq_of_lt hlt]
  refine run_check_bind.2 ⟨?_, ?_⟩
  · rw [Bool.and_eq_true, bne_iff_ne, decide_eq_true_eq]
    exact ⟨by omega, hquotient⟩
  · rw [run_modify_bind, run_modify_bind, EStateM.run_modify]
    unfold Machine.lba Machine.withEntry
    dsimp only
    rw [hplace, hsum, Nat.zero_mod, Nat.mul_zero, Nat.add_zero, fatEntry_eq hvol]

end

end GarbageOS.Fat32Driver
