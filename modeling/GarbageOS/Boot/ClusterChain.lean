import GarbageOS.Boot.ClusterRead

/-!
# Loading a file along its cluster chain

`load_file_in_memory` follows the chain in the first table. A run that loads the file has
read each cluster and its entry in order, and from what it has read the conditions follow
under which the loop works, one cluster after the other.
-/

namespace GarbageOS.Fat32Driver

open Lib

variable {disk : Disk} {m m' : Machine}

/-! ## The chain of a file -/

structure IsCluster (disk : Disk) (v : Vars) (cluster : Nat) : Prop where
  two_le : 2 ≤ cluster
  lt_endOfChain : cluster < fat32EndOfChain
  /-- The table has an entry for it. -/
  hasEntry : 4 * cluster / disk.sectorSize < v.fatSize

/-- The clusters of a file. Only the lower 28 bits of an entry count. -/
inductive Chain (disk : Disk) (v : Vars) : List Nat → Prop where
  | last {c : Nat} : IsCluster disk v c → fat32EndOfChain ≤ fatEntry disk v c % 2 ^ 28 →
      Chain disk v [c]
  | next {c d : Nat} {rest : List Nat} : IsCluster disk v c → fatEntry disk v c % 2 ^ 28 = d →
      Chain disk v (d :: rest) → Chain disk v (c :: d :: rest)

def Vars.fileSectors (v : Vars) (chain : List Nat) : List Nat := chain.flatMap v.clusterSectors

/-- The sectors to be read: those of each cluster, and then the one with its entry. -/
def Vars.trace (disk : Disk) (v : Vars) (chain : List Nat) : List Nat :=
  chain.flatMap fun c => v.clusterSectors c ++ [v.entrySector disk c]

variable {v : Vars} {c : Nat}

theorem Volume.atCluster (h : Volume disk v) (c : Nat) : Volume disk { v with lfimClus := c } :=
  ⟨h.sectorSize, h.dataAreaStart, h.aligned, h.sectorSize_pos, h.sectorSize_lt,
    h.sectorsPerCluster_pos, h.sectorsPerCluster_lt, h.fatStart_pos, h.numberOfFats_pos, h.buffer⟩

theorem IsCluster.lt (h : IsCluster disk v c) : c < 2 ^ 28 :=
  Nat.lt_trans h.lt_endOfChain (by decide)

theorem computedSector_lt (hvol : Volume disk v) (hc : IsCluster disk v c) :
    v.computedSector c < 2 ^ 40 := by
  have hproduct : (c - 2) * v.sectorsPerCluster < 2 ^ 28 * 2 ^ 8 :=
    Nat.mul_lt_mul'' (by have := hc.lt; omega) hvol.sectorsPerCluster_lt
  unfold Vars.computedSector
  omega

theorem entrySector_lt (hvol : Volume disk v) (hc : IsCluster disk v c) :
    0 < v.entrySector disk c ∧ v.entrySector disk c < v.dataArea := by
  have hentry := hc.hasEntry
  have hstart := hvol.fatStart_pos
  have hfats := Nat.le_mul_of_pos_left v.fatSize hvol.numberOfFats_pos
  unfold Vars.entrySector Vars.dataArea
  generalize 4 * c / disk.sectorSize = q at *
  omega

theorem length_clusterSectors : (v.clusterSectors c).length = v.sectorsPerCluster := by
  unfold Vars.clusterSectors
  rw [List.length_map, List.length_range]

theorem getElem?_clusterSectors {j : Nat} (h : j < v.sectorsPerCluster) :
    (v.clusterSectors c)[j]? = some (v.firstSector c + j) := by
  unfold Vars.clusterSectors
  rw [List.getElem?_map, List.getElem?_range h]
  rfl

theorem Cursor.getElem?_sectors {size n j : Nat} {k : Cursor} (h : j < n) :
    (k.sectors size n)[j]? = some ((Cursor.next size)^[j] k).lba := by
  unfold Cursor.sectors
  rw [List.getElem?_map, List.getElem?_range h]
  rfl

/-- No sector number of the cluster is carried over 32 bits. -/
structure NoCarry (v : Vars) (c : Nat) : Prop where
  dataArea : v.dataArea < 2 ^ 32
  sectors : v.firstSector c % 2 ^ 32 + v.sectorsPerCluster ≤ 2 ^ 32

def Vars.start (v : Vars) (c edi : Nat) : Cursor :=
  ⟨v.computedSector c % 2 ^ 32, v.computedSector c / 2 ^ 32, edi⟩

section

variable {edi : Nat} (hvol : Volume disk v) (hc : IsCluster disk v c)
  (hfit : edi + v.sectorsPerCluster * disk.sectorSize ≤ 2 ^ 32)

include hvol hfit

theorem iterate_start {j : Nat} (hj : j < v.sectorsPerCluster) :
    (Cursor.next disk.sectorSize)^[j] (v.start c edi) =
      ⟨(v.computedSector c % 2 ^ 32 + j) % 2 ^ 32, v.computedSector c / 2 ^ 32,
        edi + j * disk.sectorSize⟩ := by
  have hle := Nat.mul_le_mul_right disk.sectorSize (Nat.succ_le_of_lt hj)
  have hpos := hvol.sectorSize_pos
  rw [Nat.succ_mul] at hle
  exact Cursor.iterate_next (Nat.mod_lt _ (by decide)) (show edi + j * disk.sectorSize < 2 ^ 32 by omega)

include hc

theorem lba_iterate_start {j : Nat} (hj : j < v.sectorsPerCluster) :
    ((Cursor.next disk.sectorSize)^[j] (v.start c edi)).lba =
      (v.computedSector c % 2 ^ 32 + j) % 2 ^ 32 + v.computedSector c / 2 ^ 32 * 2 ^ 32 := by
  have hlt := computedSector_lt hvol hc
  rw [iterate_start hvol hfit hj]
  unfold Cursor.lba
  dsimp only
  omega

theorem sectors_start_iff : (∀ j < v.sectorsPerCluster,
    ((Cursor.next disk.sectorSize)^[j] (v.start c edi)).lba = v.firstSector c + j) ↔
      NoCarry v c := by
  have hpos := hvol.sectorsPerCluster_pos
  have hlt := hvol.sectorsPerCluster_lt
  have hcomputed : v.computedSector c + v.dataArea = v.firstSector c + v.dataArea % 2 ^ 32 := by
    unfold Vars.computedSector Vars.firstSector
    omega
  constructor
  · intro h
    have hfirst := h 0 hpos
    have hlast := h (v.sectorsPerCluster - 1) (by omega)
    rw [lba_iterate_start hvol hc hfit hpos] at hfirst
    rw [lba_iterate_start hvol hc hfit (by omega)] at hlast
    constructor
    · omega
    · omega
  · rintro ⟨hbase, hcarry⟩ j hj
    rw [lba_iterate_start hvol hc hfit hj]
    omega

theorem lba_overrun_ne (h : NoCarry v c) :
    ((Cursor.next disk.sectorSize)^[v.sectorsPerCluster] (v.start c edi)).lba ≠
      v.entrySector disk c := by
  have hcomputed : v.computedSector c = v.firstSector c := by
    unfold Vars.computedSector Vars.firstSector
    rw [Nat.mod_eq_of_lt h.dataArea, Nat.add_comm]
  have hdata : v.dataArea ≤ v.firstSector c := Nat.le_add_right _ _
  have hlt := computedSector_lt hvol hc
  obtain ⟨hpos, hentry⟩ := entrySector_lt hvol hc
  obtain ⟨n, hn⟩ := Nat.exists_eq_add_one.2 hvol.sectorsPerCluster_pos
  have hcarry := h.sectors
  have hbase := h.dataArea
  rw [hn, Function.iterate_succ_apply', iterate_start hvol hfit (by omega), hcomputed]
  rw [hcomputed] at hlt
  rw [hn] at hcarry
  unfold Cursor.next Cursor.lba
  dsimp only
  split
  · omega
  · omega

end

/-! ## One cluster -/

section

variable {m₁ : Machine} (hvol : Volume disk v) (hc : IsCluster disk v c)
  (hvars : m.vars = { v with lfimClus := c })
  (hfit : m.edi + v.sectorsPerCluster * disk.sectorSize ≤ 2 ^ 32)

include hvol hc hvars

theorem atCluster_cursor_eq : m.atCluster.cursor = v.start c m.edi := by
  have hvol' : Volume disk m.vars := hvars ▸ hvol.atCluster c
  have hclus : m.vars.lfimClus = c := by rw [hvars]
  rw [atCluster_cursor hvol' (by rw [hclus]; exact hc.two_le) (by rw [hclus]; exact hc.lt), hclus,
    hvars]
  rfl

include hfit

/-- If the sectors that are read start as they should, the count was right and no sector number
was carried. -/
theorem conditions_of_reads {tail : List Nat} (h₁ : (lfimLoadCluster disk).run m = .ok () m₁)
    (hreads : m₁.reads <+: m.reads ++ (v.clusterSectors c ++ v.entrySector disk c :: tail)) :
    m.ecx / 2 ^ 8 % 2 ^ 8 = 0 ∧ NoCarry v c := by
  have hvol' : Volume disk m.vars := hvars ▸ hvol.atCluster c
  obtain ⟨t, ht, hread⟩ := lfimLoadCluster_ok hvol'
  rw [h₁] at ht
  cases ht
  have hspc : m.vars.sectorsPerCluster = v.sectorsPerCluster := by rw [hvars]
  rw [hread.reads, atCluster_reads, atCluster_cursor_eq hvol hc hvars,
    List.prefix_append_right_inj, hspc] at hreads
  obtain ⟨rest, hrest⟩ := hreads
  have hget {j : Nat} (hj : j < m.ecx / 2 ^ 8 % 2 ^ 8 * 2 ^ 8 + v.sectorsPerCluster) :
      (v.clusterSectors c ++ v.entrySector disk c :: tail)[j]? =
        some ((Cursor.next disk.sectorSize)^[j] (v.start c m.edi)).lba := by
    rw [← hrest, List.getElem?_append_left (by rw [Cursor.length_sectors]; exact hj),
      Cursor.getElem?_sectors hj]
  have hcarry : NoCarry v c := by
    refine (sectors_start_iff hvol hc hfit).1 fun j hj => ?_
    have := hget (j := j) (by omega)
    rw [List.getElem?_append_left (by rw [length_clusterSectors]; exact hj),
      getElem?_clusterSectors hj] at this
    exact (Option.some.inj this).symm
  refine ⟨?_, hcarry⟩
  by_contra hch
  have := hget (j := v.sectorsPerCluster) (by omega)
  rw [List.getElem?_append_right (Nat.le_of_eq length_clusterSectors), length_clusterSectors,
    Nat.sub_self] at this
  exact lba_overrun_ne hvol hc hfit hcarry (Option.some.inj this).symm

theorem loadCluster_ok (hch : m.ecx / 2 ^ 8 % 2 ^ 8 = 0) (hcarry : NoCarry v c) :
    ∃ m₁, (lfimLoadCluster disk).run m = .ok () m₁ ∧ m₁.vars = m.vars ∧
      m₁.reads = m.reads ++ v.clusterSectors c ∧ m₁.ecx % 2 ^ 16 = 0 ∧
      m₁.edi = (m.edi + v.sectorsPerCluster * disk.sectorSize) % 2 ^ 32 ∧
      (v.bufferOffset + disk.sectorSize ≤ m.edi →
        Filled disk v.bufferOffset m.edi (v.clusterSectors c) m.mem m₁.mem) := by
  have hvol' : Volume disk m.vars := hvars ▸ hvol.atCluster c
  obtain ⟨m₁, h₁, hread⟩ := lfimLoadCluster_ok hvol'
  have hspc : m.vars.sectorsPerCluster = v.sectorsPerCluster := by rw [hvars]
  have hbuffer : m.vars.bufferOffset = v.bufferOffset := by rw [hvars]
  rw [hch, Nat.zero_mul, Nat.zero_add, hspc] at hread
  have hsectors : (v.start c m.edi).sectors disk.sectorSize v.sectorsPerCluster =
      v.clusterSectors c := by
    unfold Cursor.sectors Vars.clusterSectors
    exact List.map_congr_left fun j hj =>
      (sectors_start_iff hvol hc hfit).2 hcarry j (List.mem_range.1 hj)
  have hreads := hread.reads
  have hcursor := hread.cursor
  have hmem := hread.mem
  rw [atCluster_reads, atCluster_cursor_eq hvol hc hvars, hsectors] at hreads
  rw [atCluster_edi, atCluster_vars, atCluster_mem, atCluster_cursor_eq hvol hc hvars, hsectors,
    hbuffer] at hmem
  refine ⟨m₁, h₁, hread.vars.trans atCluster_vars, hreads, hread.ecx, ?_, hmem hfit⟩
  obtain ⟨n, hn⟩ := Nat.exists_eq_add_one.2 hvol.sectorsPerCluster_pos
  rw [show m₁.edi = m₁.cursor.edi from rfl, hcursor, atCluster_cursor_eq hvol hc hvars, hn,
    Function.iterate_succ_apply', iterate_start hvol hfit (by omega), Nat.succ_mul, ← Nat.add_assoc]
  rfl

end

theorem nextCluster_ok (hvol : Volume disk v) (hc : IsCluster disk v c)
    (hvars : m.vars = { v with lfimClus := c }) (hdata : v.dataArea < 2 ^ 32)
    (hquotient : 4 * c / disk.sectorSize < 2 ^ 16) :
    ∃ m₂, (lfimNextCluster disk).run m = .ok () m₂ ∧
      m₂.vars = { v with lfimClus := fatEntry disk v c } ∧
      m₂.reads = m.reads ++ [v.entrySector disk c] ∧ m₂.ecx = m.ecx ∧ m₂.edi = m.edi ∧
      ∀ a, (a < v.bufferOffset ∨ v.bufferOffset + disk.sectorSize ≤ a) → m₂.mem a = m.mem a := by
  have hvol' : Volume disk m.vars := hvars ▸ hvol.atCluster c
  have hclus : m.vars.lfimClus = c := by rw [hvars]
  have hentry : m.vars.entrySector disk c = v.entrySector disk c := by rw [hvars]; rfl
  have hvalue : fatEntry disk m.vars c = fatEntry disk v c := by rw [hvars]; rfl
  refine ⟨m.withEntry disk, ?_, ?_, ?_, rfl, rfl, fun a ha => ?_⟩
  · refine run_lfimNextCluster hvol' (by rw [hclus]; exact hc.lt) (by rw [hclus]; exact hquotient) ?_
    rw [hclus, hentry]
    exact Nat.lt_trans (entrySector_lt hvol hc).2 hdata
  · unfold Machine.withEntry
    rw [hclus, hvalue, hvars]
  · unfold Machine.withEntry
    rw [hclus, hentry]
  · unfold Machine.withEntry
    rw [hvars]
    exact Bytes.copy_out ha

/-! ## The whole file -/

/-- The file is in memory at `edi`, and exactly its sectors and entries were read. -/
structure Loaded (disk : Disk) (v : Vars) (chain : List Nat) (m m' : Machine) : Prop where
  reads : m'.reads = m.reads ++ v.trace disk chain
  mem : Filled disk v.bufferOffset m.edi (v.fileSectors chain) m.mem m'.mem

/-- With enough steps the routine returns and has loaded the file. -/
def LoadsFile (disk : Disk) (m : Machine) (chain : List Nat) : Prop :=
  ∃ steps m', (loadFileInMemory disk steps).run m = .ok () m' ∧ Loaded disk m.vars chain m m'

structure Loadable (disk : Disk) (v : Vars) (chain : List Nat) : Prop where
  /-- The entries that lead to a further cluster have nothing in their upper four bits. -/
  entries : ∀ c ∈ chain.dropLast, fatEntry disk v c < 2 ^ 28
  /-- The quotient of the division is one of 16 bits. -/
  quotients : ∀ c ∈ chain, 4 * c / disk.sectorSize < 2 ^ 16
  noCarry : ∀ c ∈ chain, NoCarry v c

theorem run_lfimParseCluster_succ {steps : Nat} {m₁ m₂ : Machine}
    (h₁ : (lfimLoadCluster disk).run m = .ok () m₁)
    (h₂ : (lfimNextCluster disk).run m₁ = .ok () m₂) :
    (lfimParseCluster disk (steps + 1)).run m =
      if m₂.vars.lfimClus < fat32EndOfChain then (lfimParseCluster disk steps).run m₂
      else .ok () m₂ := by
  rw [lfimParseCluster, run_ok_bind h₁, run_ok_bind h₂, run_get_bind]
  split
  · rfl
  · rfl

theorem Chain.last_ge {c : Nat} (h : fat32EndOfChain ≤ fatEntry disk v c % 2 ^ 28) :
    ¬ fatEntry disk v c < fat32EndOfChain :=
  Nat.not_lt.2 (Nat.le_trans h (Nat.mod_le _ _))

theorem length_fileSectors (chain : List Nat) :
    (v.fileSectors chain).length = chain.length * v.sectorsPerCluster := by
  induction chain with
  | nil => rw [List.length_nil, Nat.zero_mul]; rfl
  | cons c rest ih =>
    unfold Vars.fileSectors at ih ⊢
    rw [List.flatMap_cons, List.length_append, length_clusterSectors, ih, List.length_cons,
      Nat.succ_mul, Nat.add_comm]

theorem Vars.trace_cons (v : Vars) (c : Nat) (rest : List Nat) :
    v.trace disk (c :: rest) =
      (v.clusterSectors c ++ [v.entrySector disk c]) ++ v.trace disk rest := rfl

theorem Vars.fileSectors_cons (v : Vars) (c : Nat) (rest : List Nat) :
    v.fileSectors (c :: rest) = v.clusterSectors c ++ v.fileSectors rest := rfl

theorem Volume.fileSectors_pos (hvol : Volume disk v) (c : Nat) (rest : List Nat) :
    0 < (v.fileSectors (c :: rest)).length * disk.sectorSize := by
  rw [Vars.fileSectors_cons, List.length_append, length_clusterSectors]
  exact Nat.mul_pos (Nat.add_pos_left hvol.sectorsPerCluster_pos _) hvol.sectorSize_pos

theorem Loadable.tail {d : Nat} {rest : List Nat} (h : Loadable disk v (c :: d :: rest)) :
    Loadable disk v (d :: rest) where
  entries e he := h.entries e (List.mem_cons_of_mem c he)
  quotients e he := h.quotients e (List.mem_cons_of_mem c he)
  noCarry e he := h.noCarry e (List.mem_cons_of_mem c he)

theorem run_lfimParseCluster_ok {steps : Nat} (h : (lfimParseCluster disk steps).run m = .ok () m') :
    ∃ n m₁ m₂, steps = n + 1 ∧ (lfimLoadCluster disk).run m = .ok () m₁ ∧
      (lfimNextCluster disk).run m₁ = .ok () m₂ ∧
      (m₂.vars.lfimClus < fat32EndOfChain ∧ (lfimParseCluster disk n).run m₂ = .ok () m' ∨
        ¬ m₂.vars.lfimClus < fat32EndOfChain ∧ m' = m₂) := by
  cases steps with
  | zero => exact (run_throw_ok.1 h).elim
  | succ n =>
    have h' := h
    rw [lfimParseCluster] at h'
    obtain ⟨⟨⟩, m₁, h₁, h'⟩ := run_bind_ok.1 h'
    obtain ⟨⟨⟩, m₂, h₂, -⟩ := run_bind_ok.1 h'
    refine ⟨n, m₁, m₂, rfl, h₁, h₂, ?_⟩
    rw [run_lfimParseCluster_succ h₁ h₂] at h
    by_cases hlt : m₂.vars.lfimClus < fat32EndOfChain
    · rw [if_pos hlt] at h
      exact .inl ⟨hlt, h⟩
    · rw [if_neg hlt] at h
      cases h
      exact .inr ⟨hlt, rfl⟩

theorem reads_parseCluster {steps : Nat} (hvol : Volume disk m.vars)
    (h : (lfimParseCluster disk steps).run m = .ok () m') : m.reads <+: m'.reads := by
  induction steps generalizing m with
  | zero => exact (run_throw_ok.1 h).elim
  | succ steps ih =>
    obtain ⟨_, m₁, m₂, ⟨⟩, h₁, h₂, hend⟩ := run_lfimParseCluster_ok h
    obtain ⟨t, ht, hread⟩ := lfimLoadCluster_ok hvol
    rw [h₁] at ht
    cases ht
    have hvars₁ : m₁.vars = m.vars := hread.vars.trans atCluster_vars
    obtain ⟨-, ⟨entry, hvars₂⟩, hmore⟩ := run_lfimNextCluster_ok (hvars₁ ▸ hvol) h₂
    have hfirst : m.reads <+: m₂.reads := by
      refine List.IsPrefix.trans ?_ hmore
      rw [hread.reads, atCluster_reads]
      exact List.prefix_append ..
    rcases hend with ⟨-, h⟩ | ⟨-, rfl⟩
    · exact hfirst.trans (ih (hvars₂ ▸ hvars₁ ▸ hvol.atCluster entry) h)
    · exact hfirst

structure ClusterLoaded (disk : Disk) (v : Vars) (c : Nat) (m m' : Machine) : Prop where
  vars : m'.vars = { v with lfimClus := fatEntry disk v c }
  reads : m'.reads = m.reads ++ (v.clusterSectors c ++ [v.entrySector disk c])
  ch : m'.ecx / 2 ^ 8 % 2 ^ 8 = 0
  edi : m'.edi = (m.edi + v.sectorsPerCluster * disk.sectorSize) % 2 ^ 32
  mem : Filled disk v.bufferOffset m.edi (v.clusterSectors c) m.mem m'.mem

section

variable (hvol : Volume disk v) (hc : IsCluster disk v c)
  (hvars : m.vars = { v with lfimClus := c })
  (hbelow : v.bufferOffset + disk.sectorSize ≤ m.edi)
  (hfit : m.edi + v.sectorsPerCluster * disk.sectorSize ≤ 2 ^ 32)

include hvol hc hvars hbelow hfit

theorem cluster_ok (hch : m.ecx / 2 ^ 8 % 2 ^ 8 = 0) (hcarry : NoCarry v c)
    (hquotient : 4 * c / disk.sectorSize < 2 ^ 16) :
    ∃ m₁ m₂, (lfimLoadCluster disk).run m = .ok () m₁ ∧
      (lfimNextCluster disk).run m₁ = .ok () m₂ ∧ ClusterLoaded disk v c m m₂ := by
  obtain ⟨m₁, h₁, hvars₁, hreads₁, hecx₁, hedi₁, hmem₁⟩ :=
    loadCluster_ok hvol hc hvars hfit hch hcarry
  obtain ⟨m₂, h₂, hvars₂, hreads₂, hecx₂, hedi₂, hmem₂⟩ :=
    nextCluster_ok hvol hc (hvars₁.trans hvars) hcarry.dataArea hquotient
  refine ⟨m₁, m₂, h₁, h₂, hvars₂, ?_, ?_, hedi₂.trans hedi₁, (hmem₁ hbelow).of_buffer hbelow hmem₂⟩
  · rw [hreads₂, hreads₁, List.append_assoc]
  · rw [hecx₂]
    omega

/-- A run whose reads start with the first cluster and its entry has met the conditions for it. -/
theorem first_cluster {rest : List Nat} {steps : Nat}
    (hrun : (lfimParseCluster disk steps).run m = .ok () m')
    (hreads : m'.reads = m.reads ++ v.trace disk (c :: rest)) :
    m.ecx / 2 ^ 8 % 2 ^ 8 = 0 ∧ NoCarry v c ∧ 4 * c / disk.sectorSize < 2 ^ 16 ∧
      ∃ m₂, ClusterLoaded disk v c m m₂ ∧
        (fatEntry disk v c < fat32EndOfChain ∧
            (∃ steps, (lfimParseCluster disk steps).run m₂ = .ok () m') ∨
          ¬ fatEntry disk v c < fat32EndOfChain ∧ m' = m₂) := by
  have hvol' : Volume disk m.vars := hvars ▸ hvol.atCluster c
  obtain ⟨n, m₁, m₂, rfl, h₁, h₂, hend⟩ := run_lfimParseCluster_ok hrun
  obtain ⟨t, ht, hread⟩ := lfimLoadCluster_ok hvol'
  rw [h₁] at ht
  cases ht
  have hvars₁ : m₁.vars = m.vars := hread.vars.trans atCluster_vars
  have hclus : m₁.vars.lfimClus = c := by rw [hvars₁, hvars]
  obtain ⟨hquotient, ⟨entry, hvars₂⟩, hmore⟩ := run_lfimNextCluster_ok (hvars₁ ▸ hvol') h₂
  rw [hclus] at hquotient
  have hmore' : m₂.reads <+: m'.reads := by
    rcases hend with ⟨-, h⟩ | ⟨-, rfl⟩
    · exact reads_parseCluster (hvars₂ ▸ hvars₁ ▸ hvol'.atCluster entry) h
    · exact List.prefix_refl _
  have hall := hmore.trans hmore'
  rw [hreads, Vars.trace_cons, List.append_assoc (v.clusterSectors c), List.singleton_append]
    at hall
  obtain ⟨hch, hcarry⟩ := conditions_of_reads hvol hc hvars hfit h₁ hall
  -- the machine that reaches the entry is known now
  obtain ⟨t₁, t₂, ht₁, ht₂, hloaded⟩ :=
    cluster_ok hvol hc hvars hbelow hfit hch hcarry (hquotient hc.lt)
  rw [h₁] at ht₁
  cases ht₁
  rw [h₂] at ht₂
  cases ht₂
  refine ⟨hch, hcarry, hquotient hc.lt, m₂, hloaded, ?_⟩
  rw [hloaded.vars] at hend
  exact hend.imp_left fun h => ⟨h.1, n, h.2⟩

end

theorem parseCluster_loads {chain : List Nat} (hvol : Volume disk v) (hchain : Chain disk v chain) :
    ∀ {m : Machine}, Loadable disk v chain → (∀ c ∈ chain.head?,
      m.vars = { v with lfimClus := c }) → m.ecx / 2 ^ 8 % 2 ^ 8 = 0 →
      v.bufferOffset + disk.sectorSize ≤ m.edi →
      m.edi + (v.fileSectors chain).length * disk.sectorSize ≤ 2 ^ 32 →
      ∃ m', (lfimParseCluster disk chain.length).run m = .ok () m' ∧
        Loaded disk v chain m m' := by
  induction hchain with
  | @last c hc hend =>
    intro m hok hvars hch hbelow hfit
    rw [length_fileSectors, List.length_singleton, Nat.one_mul] at hfit
    obtain ⟨m₁, m₂, h₁, h₂, hcluster⟩ := cluster_ok hvol hc (hvars c rfl) hbelow hfit hch
      (hok.noCarry c (List.mem_singleton_self c)) (hok.quotients c (List.mem_singleton_self c))
    refine ⟨m₂, ?_, ?_, ?_⟩
    · rw [List.length_singleton, run_lfimParseCluster_succ h₁ h₂, hcluster.vars]
      exact if_neg (Chain.last_ge hend)
    · rw [hcluster.reads, Vars.trace_cons]
      exact congrArg _ (List.append_nil _).symm
    · rw [Vars.fileSectors_cons]
      exact (List.append_nil (v.clusterSectors c)).symm ▸ hcluster.mem
  | @next c d rest hc hentry hrest ih =>
    intro m hok hvars hch hbelow hfit
    rw [Vars.fileSectors_cons, List.length_append, length_clusterSectors, Nat.add_mul,
      ← Nat.add_assoc] at hfit
    obtain ⟨m₁, m₂, h₁, h₂, hvars₂, hreads₂, hch₂, hedi₂, hmem₂⟩ := cluster_ok hvol hc
      (hvars c rfl) hbelow (by omega) hch (hok.noCarry c List.mem_cons_self)
      (hok.quotients c List.mem_cons_self)
    have hnibble := hok.entries c List.mem_cons_self
    rw [Nat.mod_eq_of_lt hnibble] at hentry
    have hlt : d < fat32EndOfChain := by
      cases hrest with
      | last hd _ => exact hd.lt_endOfChain
      | next hd _ _ => exact hd.lt_endOfChain
    -- there is room for one more cluster, so `edi` has not wrapped around
    have hmore := hvol.fileSectors_pos d rest
    rw [Nat.mod_eq_of_lt (by omega)] at hedi₂
    rw [hentry] at hvars₂
    obtain ⟨m', hrun, hloaded⟩ := ih hok.tail
      (fun e he => by cases he; exact hvars₂) hch₂ (by omega) (by omega)
    refine ⟨m', ?_, ?_, ?_⟩
    · rw [List.length_cons, run_lfimParseCluster_succ h₁ h₂, hvars₂, if_pos hlt, hrun]
    · rw [hloaded.reads, hreads₂, Vars.trace_cons v c, List.append_assoc]
    · rw [Vars.fileSectors_cons]
      refine hmem₂.append hbelow ?_
      rw [length_clusterSectors, ← hedi₂]
      exact hloaded.mem

/-! ## Runs that read what they should -/

theorem loadable_of_reads {chain : List Nat} (hvol : Volume disk v) (hchain : Chain disk v chain) :
    ∀ {m m' : Machine} {steps : Nat}, (∀ c ∈ chain.head?, m.vars = { v with lfimClus := c }) →
      v.bufferOffset + disk.sectorSize ≤ m.edi →
      m.edi + (v.fileSectors chain).length * disk.sectorSize ≤ 2 ^ 32 →
      (lfimParseCluster disk steps).run m = .ok () m' →
      m'.reads = m.reads ++ v.trace disk chain →
      m.ecx / 2 ^ 8 % 2 ^ 8 = 0 ∧ Loadable disk v chain := by
  induction hchain with
  | @last c hc hend =>
    intro m m' steps hvars hbelow hfit hrun hreads
    rw [length_fileSectors, List.length_singleton, Nat.one_mul] at hfit
    obtain ⟨hch, hcarry, hquotient, -⟩ :=
      first_cluster hvol hc (hvars c rfl) hbelow hfit hrun hreads
    refine ⟨hch, fun e he => (List.not_mem_nil he).elim, fun e he => ?_, fun e he => ?_⟩
    · rwa [List.mem_singleton.1 he]
    · rwa [List.mem_singleton.1 he]
  | @next c d rest hc hentry hrest ih =>
    intro m m' steps hvars hbelow hfit hrun hreads
    rw [Vars.fileSectors_cons, List.length_append, length_clusterSectors, Nat.add_mul,
      ← Nat.add_assoc] at hfit
    obtain ⟨hch, hcarry, hquotient, m₂, ⟨hvars₂, hreads₂, -, hedi₂, -⟩, hend⟩ :=
      first_cluster hvol hc (hvars c rfl) hbelow (by omega) hrun hreads
    rw [Vars.trace_cons v c, ← List.append_assoc, ← hreads₂] at hreads
    rcases hend with ⟨hlt, steps, h⟩ | ⟨-, rfl⟩
    · have hnibble : fatEntry disk v c < 2 ^ 28 := Nat.lt_trans hlt (by decide)
      rw [Nat.mod_eq_of_lt hnibble] at hentry
      have hmore := hvol.fileSectors_pos d rest
      rw [Nat.mod_eq_of_lt (by omega)] at hedi₂
      rw [hentry] at hvars₂
      obtain ⟨-, hok⟩ := ih (fun e he => by cases he; exact hvars₂) (by omega) (by omega) h hreads
      refine ⟨hch, fun e he => ?_, fun e he => ?_, fun e he => ?_⟩
      · rcases List.mem_cons.1 he with rfl | he
        · exact hnibble
        · exact hok.entries e he
      · rcases List.mem_cons.1 he with rfl | he
        · exact hquotient
        · exact hok.quotients e he
      · rcases List.mem_cons.1 he with rfl | he
        · exact hcarry
        · exact hok.noCarry e he
    · -- the run has ended, but the next cluster was to be read
      have hnil := List.self_eq_append_right.1 hreads
      rw [Vars.trace_cons] at hnil
      simp at hnil

section

variable {chain : List Nat} (hvol : Volume disk m.vars) (hchain : Chain disk m.vars chain)
  (hstart : chain.head? = some m.eax) (habove : 2 ^ 16 ≤ m.edi)
  (hfit : m.edi + (m.vars.fileSectors chain).length * disk.sectorSize ≤ 2 ^ 32)

include hvol hchain hstart habove hfit

theorem loadsFile_of_loadable (hch : m.ecx / 2 ^ 8 % 2 ^ 8 = 0)
    (hok : Loadable disk m.vars chain) : LoadsFile disk m chain := by
  have hbuffer := hvol.buffer
  obtain ⟨t, hrun, hloaded⟩ := parseCluster_loads hvol hchain hok
    (m := { m with vars := { m.vars with lfimClus := m.eax } })
    (fun c hc => by rw [hstart] at hc; cases hc; rfl) hch (by show _ ≤ m.edi; omega) hfit
  refine ⟨chain.length, t.popa m, ?_, hloaded.reads, hloaded.mem⟩
  unfold loadFileInMemory
  rw [run_get_bind, run_modify_bind, run_ok_bind hrun, EStateM.run_modify]

theorem loadable_of_loadsFile (h : LoadsFile disk m chain) :
    m.ecx / 2 ^ 8 % 2 ^ 8 = 0 ∧ Loadable disk m.vars chain := by
  obtain ⟨steps, m', hrun, hloaded⟩ := h
  have hbuffer := hvol.buffer
  unfold loadFileInMemory at hrun
  rw [run_get_bind, run_modify_bind] at hrun
  obtain ⟨⟨⟩, t, hparse, hrun⟩ := run_bind_ok.1 hrun
  rw [EStateM.run_modify] at hrun
  cases hrun
  have hreads : t.reads = m.reads ++ m.vars.trace disk chain := hloaded.reads
  refine loadable_of_reads hvol hchain (m := { m with vars := { m.vars with lfimClus := m.eax } })
    (fun c hc => ?_) ?_ hfit hparse hreads
  · rw [hstart] at hc
    cases hc
    rfl
  · show _ ≤ m.edi
    omega

theorem loadsFile_iff : LoadsFile disk m chain ↔
    m.ecx / 2 ^ 8 % 2 ^ 8 = 0 ∧ Loadable disk m.vars chain :=
  ⟨loadable_of_loadsFile hvol hchain hstart habove hfit,
    fun ⟨hch, hok⟩ => loadsFile_of_loadable hvol hchain hstart habove hfit hch hok⟩

/-- A file is loaded exactly if `ch` is zero, the entries of its chain have their upper four
bits clear (except the last), they are found by a division with a 16-bit quotient, and no
sector number is carried over 32 bits. -/
theorem loadFileInMemory_iff : (∃ steps m', (loadFileInMemory disk steps).run m = .ok () m' ∧
    Loaded disk m.vars chain m m') ↔
      m.ecx / 2 ^ 8 % 2 ^ 8 = 0 ∧ Loadable disk m.vars chain :=
  loadsFile_iff hvol hchain hstart habove hfit

end

/-! ## The driver's variables -/

structure IsFat32 (disk : Disk) (boot : Bytes) : Prop where
  sectorSize : boot.get16 11 = disk.sectorSize
  aligned : disk.sectorSize % 4 = 0
  sectorSize_ge : 512 ≤ disk.sectorSize
  sectorsPerCluster : 0 < boot.get8 13
  reserved : 0 < boot.get16 14
  numberOfFats : 0 < boot.get8 16

theorem setLow16_eq {r w : Nat} (hr : r < 2 ^ 16) (hw : w < 2 ^ 16) : setLow16 r w = w := by
  unfold setLow16
  omega

theorem run_initFat32Driver (hge : 512 ≤ disk.sectorSize)
    (hbuffer : m.eax % 2 ^ 16 + disk.sectorSize ≤ 2 ^ 16) :
    ∃ m', (initFat32Driver disk).run m = .ok () m' ∧ m'.vars =
      { m.vars with bufferOffset := m.eax % 2 ^ 16 }.ofBootSector
        (disk.sector m.vars.partitionOffset) 0 := by
  have hplace : setLow16 m.edi (m.eax % 2 ^ 16) % 2 ^ 16 = m.eax % 2 ^ 16 := by
    unfold setLow16
    omega
  have hcopy {o : Nat} (ho : o < 512) : m.mem.copy (m.eax % 2 ^ 16)
      (disk.sector m.vars.partitionOffset) disk.sectorSize (m.eax % 2 ^ 16 + o) =
        disk.sector m.vars.partitionOffset o := Bytes.copy_in (by omega)
  unfold initFat32Driver readSector
  rw [run_get_bind, run_modify_bind, run_modify_bind, run_modify_bind, run_modify_bind,
    run_modify_bind, EStateM.run_modify]
  refine ⟨_, rfl, ?_⟩
  unfold Machine.popa Machine.lba Vars.ofBootSector
  dsimp only
  rw [hplace, Nat.zero_mod, Nat.mul_zero, Nat.add_zero]
  simp only [Nat.zero_add, Bytes.get32, Bytes.get16, Bytes.get8, Nat.add_assoc]
  simp (disch := decide) only [hcopy]

section

variable (hboot : IsFat32 disk (disk.sector m.vars.partitionOffset))
  (hsize : m.vars.sectorSize < 2 ^ 16) (hstart : m.vars.fatStart < 2 ^ 16)
  (hbuffer : m.eax % 2 ^ 16 + disk.sectorSize ≤ 2 ^ 16)

include hboot hsize hstart hbuffer

theorem initFat32Driver_volume :
    ∃ m', (initFat32Driver disk).run m = .ok () m' ∧ Volume disk m'.vars ∧
      m'.vars.partitionOffset = m.vars.partitionOffset := by
  have hge := hboot.sectorSize_ge
  have hlt : disk.sectorSize < 2 ^ 16 := hboot.sectorSize ▸ Bytes.get16_lt
  obtain ⟨m', hrun, hvars⟩ := run_initFat32Driver hge hbuffer
  refine ⟨m', hrun, ?_, by rw [hvars]; rfl⟩
  rw [hvars]
  unfold Vars.ofBootSector
  rw [setLow16_eq hsize Bytes.get16_lt, setLow16_eq hstart Bytes.get16_lt]
  simp only [Nat.zero_add]
  refine ⟨hboot.sectorSize, ?_, hboot.aligned, by omega, hlt, hboot.sectorsPerCluster,
    Bytes.get8_lt, hboot.reserved, hboot.numberOfFats, hbuffer⟩
  dsimp only
  rw [Nat.mod_add_mod, Nat.add_comm]

/-- A driver that was initialised from a FAT32 boot sector loads exactly the files with a
`Loadable` chain, if `ch` is zero. -/
theorem initFat32Driver_loads_iff :
    ∃ m₁, (initFat32Driver disk).run m = .ok () m₁ ∧ ∀ m₂ chain, m₂.vars = m₁.vars →
      Chain disk m₂.vars chain → chain.head? = some m₂.eax → 2 ^ 16 ≤ m₂.edi →
      m₂.edi + (m₂.vars.fileSectors chain).length * disk.sectorSize ≤ 2 ^ 32 →
      (LoadsFile disk m₂ chain ↔
        m₂.ecx / 2 ^ 8 % 2 ^ 8 = 0 ∧ Loadable disk m₂.vars chain) := by
  obtain ⟨m₁, hrun, hvol, -⟩ := initFat32Driver_volume hboot hsize hstart hbuffer
  refine ⟨m₁, hrun, fun m₂ chain hvars hchain hhead habove hfit => ?_⟩
  rw [← hvars] at hvol
  exact loadsFile_iff hvol hchain hhead habove hfit

end

/-! ## A file of two clusters -/

/-- The fields of a boot sector that the driver reads. -/
def twoClusterBoot : Bytes :=
  (((((Bytes.put16 (fun _ => 0) 11 512).put8 13 1).put16 14 32).put8 16 2).put32 36 512).put32 44 2

/-- A partition at sector 2048. The entry of cluster 3 is 4, the one of cluster 4 ends the
chain. -/
def twoClusterDisk : Disk where
  sectorSize := 512
  sector lba :=
    if lba = 2048 then twoClusterBoot
    else if lba = 2080 then (Bytes.put32 (fun _ => 0) 12 4).put32 16 0x0FFFFFFF
    else fun i => UInt8.ofNat (lba + i)

def twoClusterVars : Vars where
  rootCluster := 2
  bufferOffset := 0xE10
  sectorsPerCluster := 1
  fatStart := 32
  fatSize := 512
  dataAreaStart := 1056
  numberOfFats := 2
  sectorSize := 512
  partitionOffset := 2048

/-- The machine when the file is to be loaded to 16 MiB, with `ch` as given. -/
def twoClusterMachine (ch : Nat) : Machine where
  eax := 3
  ebx := 0
  ecx := ch * 2 ^ 8
  edx := 0
  esi := 0
  edi := 0x01000000
  ebp := 0
  cf := false
  mem := fun _ => 0
  vars := twoClusterVars
  reads := []

/-- The machine before the driver reads the boot sector. -/
def initialMachine : Machine :=
  { twoClusterMachine 0 with eax := 0xE10, vars := { partitionOffset := 2048 } }

theorem volume_twoCluster : Volume twoClusterDisk twoClusterVars :=
  ⟨rfl, rfl, rfl, by decide, by decide, by decide, by decide, by decide, by decide, by decide⟩

theorem chain_twoCluster : Chain twoClusterDisk twoClusterVars [3, 4] :=
  .next ⟨by decide, by decide, by decide⟩ rfl (.last ⟨by decide, by decide, by decide⟩ (by decide))

theorem loadable_twoCluster : Loadable twoClusterDisk twoClusterVars [3, 4] :=
  ⟨by decide, by decide, List.forall_mem_cons.2
    ⟨⟨by decide, by decide⟩, List.forall_mem_singleton.2 ⟨by decide, by decide⟩⟩⟩

theorem initFat32Driver_loads_twoCluster : ∃ m₁,
    (initFat32Driver twoClusterDisk).run initialMachine = .ok () m₁ ∧
      LoadsFile twoClusterDisk { twoClusterMachine 0 with vars := m₁.vars } [3, 4] := by
  obtain ⟨m₁, hrun, hloads⟩ := @initFat32Driver_loads_iff twoClusterDisk initialMachine
    ⟨rfl, rfl, Nat.le_refl _, by decide, by decide, by decide⟩ (by decide) (by decide) (by decide)
  obtain ⟨m₂, hrun', hvars⟩ := @run_initFat32Driver twoClusterDisk initialMachine (by decide)
    (by decide)
  rw [hrun] at hrun'
  cases hrun'
  have hvars : m₁.vars = twoClusterVars := hvars.trans (by decide)
  refine ⟨m₁, hrun, ?_⟩
  rw [hvars] at hloads ⊢
  exact (hloads (twoClusterMachine 0) [3, 4] rfl chain_twoCluster rfl (by decide) (by decide)).2
    ⟨rfl, loadable_twoCluster⟩

theorem loadFileInMemory_iff_twoCluster : LoadsFile twoClusterDisk (twoClusterMachine 0) [3, 4] :=
  (loadFileInMemory_iff (m := twoClusterMachine 0) volume_twoCluster chain_twoCluster rfl
    (by decide) (by decide)).2 ⟨rfl, loadable_twoCluster⟩

/-- With `ch = 1`, 257 sectors are read instead of the first cluster. -/
theorem exists_not_loaded : ¬ LoadsFile twoClusterDisk (twoClusterMachine 1) [3, 4] := fun h =>
  absurd (loadable_of_loadsFile volume_twoCluster chain_twoCluster rfl (by decide) (by decide) h).1
    (by decide)

end GarbageOS.Fat32Driver
