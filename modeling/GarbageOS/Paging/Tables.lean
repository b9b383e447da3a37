import GarbageOS.Lib.Radix
import GarbageOS.Frames.Partition
import GarbageOS.Paging.Effects

/-!
# The page tables are a tree

The tables of a paging structure form a radix tree of depth three, and the entry of a
page is a leaf of it. Every table is a frame of its own, so a write to an entry changes
one entry, and a new table changes no entry: an empty one says what a missing one says.
What `alloc_frame` returns is assumed to be a frame outside the structure; `Supplies`
says so, and the frame allocator keeps it.
-/

namespace GarbageOS

open Lib

def IsFrame (a : Nat) : Prop := a % pageSize = 0 ∧ a < 2 ^ 48

/-! ## Entries -/

theorem tableIndex_eq (vaddr shift : Nat) : tableIndex vaddr shift = vaddr / 2 ^ shift % 512 := by
  unfold tableIndex
  rw [show 0x1ff = 2 ^ 9 - 1 from rfl, Nat.and_two_pow_sub_one_eq_mod, Nat.shiftRight_eq_div_pow]

def indexOf (vaddr shift : Nat) : Fin 512 :=
  ⟨tableIndex vaddr shift, by rw [tableIndex_eq]; exact Nat.mod_lt _ (by decide)⟩

def tablePath (vaddr : Nat) : List (Fin 512) :=
  [indexOf vaddr 39, indexOf vaddr 30, indexOf vaddr 21]

def entries (m : Mem) (table : Nat) (i : Fin 512) : Nat := load m (entryAddr table i)

def nextTable (entry : Nat) : Option Nat :=
  if isEntryPresent entry then some (entry &&& frameMask) else none

def pte (m : Mem) (root vaddr : Nat) : Nat :=
  leaf 0 nextTable (entries m) root (tablePath vaddr) (indexOf vaddr 12)

def SamePage (v w : Nat) : Prop := v / pageSize % 2 ^ 36 = w / pageSize % 2 ^ 36

instance (v w : Nat) : Decidable (SamePage v w) := inferInstanceAs (Decidable (_ = _))

theorem samePage_iff {v w : Nat} :
    tablePath w = tablePath v ∧ indexOf w 12 = indexOf v 12 ↔ SamePage v w := by
  unfold tablePath indexOf SamePage
  simp only [List.cons.injEq, Fin.mk.injEq, tableIndex_eq, and_true, pageSize]
  omega

/-- What `get_physical_address` makes of an entry. -/
def PagingMapState.ofEntry (entry : Nat) : PagingMapState :=
  ⟨canonicalPaddr (entry &&& frameMask), entry &&& 0xfff, isEntryPresent entry⟩

theorem PagingMapState.ofEntry_zero : PagingMapState.ofEntry 0 = ⟨0, 0, false⟩ := by decide

theorem nextTable_present {entry : Nat} (h : isEntryPresent entry = true) :
    nextTable entry = some (entry &&& frameMask) :=
  if_pos h

theorem nextTable_absent {entry : Nat} (h : ¬ isEntryPresent entry = true) :
    nextTable entry = none :=
  if_neg h

theorem getPhysicalAddress_eq (m : Mem) (ps vaddr : Nat) :
    getPhysicalAddress m ps vaddr = .ofEntry (pte m (load m ps) vaddr) := by
  unfold getPhysicalAddress pte leaf tablePath
  simp only [walk, entries, indexOf]
  generalize load m (entryAddr (load m ps) (tableIndex vaddr 39)) = pml4e
  by_cases h₁ : isEntryPresent pml4e = true
  · rw [if_pos h₁, nextTable_present h₁, Option.bind_some]
    generalize load m (entryAddr (pml4e &&& frameMask) (tableIndex vaddr 30)) = pdpte
    by_cases h₂ : isEntryPresent pdpte = true
    · rw [if_pos h₂, nextTable_present h₂, Option.bind_some]
      generalize load m (entryAddr (pdpte &&& frameMask) (tableIndex vaddr 21)) = pdte
      by_cases h₃ : isEntryPresent pdte = true
      · rw [if_pos h₃, nextTable_present h₃]
        rfl
      · rw [if_neg h₃, nextTable_absent h₃]
        exact PagingMapState.ofEntry_zero.symm
    · rw [if_neg h₂, nextTable_absent h₂]
      exact PagingMapState.ofEntry_zero.symm
  · rw [if_neg h₁, nextTable_absent h₁]
    exact PagingMapState.ofEntry_zero.symm

/-! ## Writing memory -/

section

variable {m : Mem} {a b f t v root ps : Nat} {i j : Fin 512}

theorem entryAddr_eq (ha : IsFrame a) : entryAddr a i = a + 8 * i := by
  have := i.isLt
  have := ha.2
  exact add64_eq (by omega)

theorem entryAddr_inj (ha : IsFrame a) (hb : IsFrame b) (h : entryAddr a i = entryAddr b j) :
    a = b ∧ i = j := by
  rw [entryAddr_eq ha, entryAddr_eq hb] at h
  have hi := i.isLt
  have hj := j.isLt
  have ha' := ha.1
  have hb' := hb.1
  simp only [pageSize] at ha' hb'
  exact ⟨by omega, Fin.ext (by omega)⟩

theorem entries_store_self (hv : v < 2 ^ 64) : entries (store m (entryAddr a i) v) a i = v :=
  load_store_same hv

theorem entries_store_of_ne (ha : IsFrame a) (hb : IsFrame b) (h : ¬ (a = b ∧ i = j)) :
    entries (store m (entryAddr b j) v) a i = entries m a i :=
  load_store_ne fun e => h (entryAddr_inj ha hb e)

theorem entries_fill_self (ha : IsFrame a) : entries (fill m a pageSize 0) a i = 0 := by
  unfold entries
  rw [entryAddr_eq ha]
  have := i.isLt
  exact load_fill_in (by omega) (by simp only [pageSize]; omega) (by decide)

theorem entries_fill_of_ne (ha : IsFrame a) (hf : IsFrame f) (h : a ≠ f) :
    entries (fill m f pageSize 0) a i = entries m a i := by
  unfold entries
  rw [entryAddr_eq ha]
  have := i.isLt
  have ha' := ha.1
  have hf' := hf.1
  simp only [pageSize] at ha' hf' ⊢
  exact load_fill_out (by omega)

theorem nextTable_link (hf : IsFrame f) :
    nextTable (f ||| pagePresent ||| pageWritable) = some f ∧
      f ||| pagePresent ||| pageWritable < 2 ^ 64 := by
  have hmod := hf.1
  have hlt := hf.2
  simp only [pageSize] at hmod
  have hval : f ||| pagePresent ||| pageWritable = f + 3 := by
    rw [Nat.or_assoc]
    exact or_eq_add (k := 12) hmod (by decide)
  refine ⟨?_, by rw [hval]; omega⟩
  have hpresent : isEntryPresent (f + 3) = true := by
    unfold isEntryPresent pagePresent
    rw [bne_iff_ne, Nat.and_one_is_mod]
    omega
  rw [hval, nextTable_present hpresent, frameMask,
    show 0x0000fffffffff000 = (2 ^ 36 - 1) * 2 ^ 12 from rfl, and_mask]
  congr 1
  omega

/-! ## Trees of tables -/

/-- The tables under the PML4 `root`. -/
def IsTableOf (m : Mem) (root a : Nat) : Prop := IsTable nextTable (entries m) root 3 a

/-- No table is used twice, and each one is a frame. -/
structure TableTree (m : Mem) (root : Nat) : Prop where
  shape : TreeShaped nextTable (entries m) root 3
  frame : ∀ a, IsTableOf m root a → IsFrame a

theorem isTableOf_root : IsTableOf m root root := ⟨[], by decide, rfl⟩

theorem isTableOf_walk {p : List (Fin 512)} (hp : p.length ≤ 3)
    (ht : walk nextTable (entries m) root p = some t) : IsTableOf m root t := ⟨p, hp, ht⟩

/-- The words of the tables under `root`. -/
def InTables (m : Mem) (root b : Nat) : Prop :=
  ∃ a, IsTableOf m root a ∧ a ≤ b ∧ b < a + pageSize

theorem TableTree.congr {m' : Mem} (h : TableTree m root)
    (hsame : ∀ b, InTables m root b → m' b = m b) :
    TableTree m' root ∧ (∀ a, IsTableOf m' root a ↔ IsTableOf m root a) ∧
      ∀ v, pte m' root v = pte m root v := by
  have hE : ∀ a j, IsTable nextTable (entries m) root 3 a → entries m' a j = entries m a j := by
    intro a j ha
    have hj := j.isLt
    refine congrArg BitVec.toNat (hsame _ ⟨a, ha, ?_⟩)
    rw [entryAddr_eq (h.frame a ha)]
    simp only [pageSize]
    omega
  have hwalk := fun (q : List (Fin 512)) => walk_congr (q := q)
    fun r a j hr ha => hE a j ⟨r, Nat.le_of_lt hr, ha⟩
  have htables : ∀ a, IsTableOf m' root a ↔ IsTableOf m root a := fun a => isTable_congr hwalk
  refine ⟨⟨h.shape.congr hwalk, fun a ha => h.frame a ((htables a).1 ha)⟩, htables, fun v => ?_⟩
  unfold pte leaf
  rw [hwalk _ (show (tablePath v).length ≤ 3 from Nat.le_refl 3)]
  cases ht : walk nextTable (entries m) root (tablePath v) with
  | none => rfl
  | some t => exact hE t _ ⟨tablePath v, Nat.le_refl 3, ht⟩

/-- The memory after an entry was pointed to a new, cleared table. -/
def linkTable (m : Mem) (entry f : Nat) : Mem :=
  store (fill m f pageSize 0) entry (f ||| pagePresent ||| pageWritable)

theorem links_linkTable {p : List (Fin 512)} (h : TableTree m root) (hp : p.length < 3)
    (ht : walk nextTable (entries m) root p = some t) (habsent : nextTable (entries m t i) = none)
    (hf : IsFrame f) (hfresh : ¬ IsTableOf m root f) :
    Links nextTable (entries m) (entries (linkTable m (entryAddr t i) f)) root 3 p i f := by
  have htable := isTableOf_walk (by omega) ht
  have htf : t ≠ f := fun e => hfresh (e ▸ htable)
  have hframe := h.frame t htable
  obtain ⟨hnext, hword⟩ := nextTable_link hf
  refine { table := ⟨t, ht, habsent, ?_⟩, above := hp, fresh := hfresh, empty := ?_, same := ?_ }
  · rw [linkTable, entries_store_self hword]
    exact hnext
  · intro j
    rw [linkTable, entries_store_of_ne hf hframe fun e => htf e.1.symm, entries_fill_self hf]
    rfl
  · intro a j ha hne
    have haf : a ≠ f := fun e => hfresh (e ▸ ha)
    have hne' : ¬ (a = t ∧ j = i) := by
      rintro ⟨rfl, rfl⟩
      exact hne.elim (fun h => h ht) fun h => h rfl
    rw [linkTable, entries_store_of_ne (h.frame a ha) hframe hne',
      entries_fill_of_ne (h.frame a ha) hf haf]

/-- The tree has new tables; every page has the entry it had, and no memory outside the
tables has changed. -/
structure Grows (m m' : Mem) (root : Nat) (new : List Nat) : Prop where
  tree : TableTree m' root
  tables : ∀ a, IsTableOf m' root a ↔ IsTableOf m root a ∨ a ∈ new
  off : AgreeOff (InTables m' root) m m'
  pte : ∀ v, GarbageOS.pte m' root v = GarbageOS.pte m root v
  walk : ∀ p a, p.length ≤ 3 → Lib.walk nextTable (entries m) root p = some a →
    Lib.walk nextTable (entries m') root p = some a

theorem inTables_entryAddr (hframe : IsFrame t) (ht : IsTableOf m root t) :
    InTables m root (entryAddr t i) := by
  refine ⟨t, ht, ?_⟩
  rw [entryAddr_eq hframe]
  have := i.isLt
  simp only [pageSize]
  omega

theorem Grows.refl (h : TableTree m root) : Grows m m root [] where
  tree := h
  tables _ := by simp
  off := .refl _ m
  pte _ := rfl
  walk _ _ _ hw := hw

theorem Grows.trans {m' m'' : Mem} {new new' : List Nat} (h : Grows m m' root new)
    (h' : Grows m' m'' root new') : Grows m m'' root (new ++ new') where
  tree := h'.tree
  tables a := by rw [h'.tables, h.tables, List.mem_append, or_assoc]
  off := (h.off.mono fun _ ⟨a, ha, hb⟩ => ⟨a, (h'.tables a).2 (.inl ha), hb⟩).trans h'.off
  pte v := (h'.pte v).trans (h.pte v)
  walk p a hp hw := h'.walk p a hp (h.walk p a hp hw)

theorem grows_linkTable {p : List (Fin 512)} (h : TableTree m root) (hp : p.length < 3)
    (ht : walk nextTable (entries m) root p = some t) (habsent : nextTable (entries m t i) = none)
    (hf : IsFrame f) (hfresh : ¬ IsTableOf m root f) :
    Grows m (linkTable m (entryAddr t i) f) root [f] ∧
      walk nextTable (entries (linkTable m (entryAddr t i) f)) root (p ++ [i]) = some f := by
  have hl := links_linkTable h hp ht habsent hf hfresh
  have htable := isTableOf_walk (by omega) ht
  have hnew := hl.walk_new h.shape
  have htables : ∀ a, IsTableOf (linkTable m (entryAddr t i) f) root a ↔
      IsTableOf m root a ∨ a ∈ [f] := by
    intro a
    rw [List.mem_singleton]
    constructor
    · exact fun ha => (hl.isTable h.shape ha).symm
    · rintro (ha | rfl)
      · exact ha.imp fun q hq => ⟨hq.1, hl.walk_of h.shape hq.1 hq.2⟩
      · exact isTableOf_walk (by simp; omega) hnew
  refine ⟨{ tree := ⟨hl.treeShaped h.shape, ?_⟩, tables := htables, off := ?_, pte := ?_
            walk := fun q a hq hw => hl.walk_of h.shape hq hw }, hnew⟩
  · intro a ha
    rcases (htables a).1 ha with ha | ha
    · exact h.frame a ha
    · rw [List.mem_singleton.1 ha]; exact hf
  · refine .store (fun b hb => ?_) (inTables_entryAddr (h.frame t htable) ((htables t).2 (.inl htable)))
    have hnot : ¬ (f ≤ b ∧ b < f + pageSize) :=
      fun hin => hb ⟨f, (htables f).2 (.inr List.mem_cons_self), hin⟩
    exact if_neg hnot
  · intro v
    refine hl.leaf_eq h.shape (fun j => ?_) rfl
    have htf : t ≠ f := fun e => hfresh (e ▸ htable)
    rw [linkTable, entries_store_of_ne hf (h.frame t htable) fun e => htf e.1.symm,
      entries_fill_self hf]

/-! ## Writing a page table entry -/

/-- The entry of the page of `v` is set; otherwise the tree only has new tables. -/
structure SetsPte (m m' : Mem) (root v value : Nat) (new : List Nat) : Prop where
  tree : TableTree m' root
  tables : ∀ a, IsTableOf m' root a ↔ IsTableOf m root a ∨ a ∈ new
  off : AgreeOff (InTables m' root) m m'
  pte : ∀ w, GarbageOS.pte m' root w = if SamePage v w then value else GarbageOS.pte m root w

theorem setsPte_store {v value : Nat} (h : TableTree m root)
    (ht : walk nextTable (entries m) root (tablePath v) = some t) (hvalue : value < 2 ^ 64) :
    SetsPte m (store m (entryAddr t (indexOf v 12)) value) root v value [] := by
  have htable := isTableOf_walk (show (tablePath v).length ≤ 3 from Nat.le_refl 3) ht
  have hframe := h.frame t htable
  have hE : ∀ a j, IsTable nextTable (entries m) root 3 a → ¬ (a = t ∧ j = indexOf v 12) →
      entries (store m (entryAddr t (indexOf v 12)) value) a j = entries m a j :=
    fun a j ha hne => entries_store_of_ne (h.frame a ha) hframe hne
  have hwalk := fun (q : List (Fin 512)) => walk_write (q := q) h.shape rfl ht hE
  have htables : ∀ a, IsTableOf (store m (entryAddr t (indexOf v 12)) value) root a ↔
      IsTableOf m root a ∨ a ∈ [] := by
    intro a
    rw [or_iff_left List.not_mem_nil]
    exact isTable_congr hwalk
  refine { tree := ⟨h.shape.congr hwalk, fun a ha => ?_⟩, tables := htables, off := ?_, pte := ?_ }
  · exact h.frame a (((htables a).1 ha).resolve_right List.not_mem_nil)
  · exact .store (.refl _ m) (inTables_entryAddr hframe ((htables t).2 (.inl htable)))
  · intro w
    by_cases hw : SamePage v w
    · obtain ⟨hpath, hindex⟩ := samePage_iff.2 hw
      rw [if_pos hw, GarbageOS.pte, hpath, hindex, leaf_write_self h.shape rfl ht hE]
      exact entries_store_self hvalue
    · rw [if_neg hw]
      exact leaf_write_of_ne h.shape rfl ht hE rfl fun e => hw (samePage_iff.1 e)

theorem Grows.setsPte {m' m'' : Mem} {v value : Nat} {new : List Nat} (h : Grows m m' root new)
    (h' : SetsPte m' m'' root v value []) : SetsPte m m'' root v value new where
  tree := h'.tree
  tables a := by rw [h'.tables, h.tables]; simp
  off := (h.off.mono fun _ ⟨a, ha, hb⟩ => ⟨a, (h'.tables a).2 (.inl ha), hb⟩).trans h'.off
  pte w := by rw [h'.pte, h.pte]

end

end GarbageOS
