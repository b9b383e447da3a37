import GarbageOS.Paging.Walk

/-!
# One page at a time

From `create_empty_kernel_paging_structure` on, every `paging_map` and every
`invalidate_paging_mapping` changes what `get_physical_address` reports for the pages
with its own bits 12 to 47 and for no other, and no frame ever serves as two tables.
-/

namespace GarbageOS

open Lib Relation

/-! ## A paging structure -/

/-- `ps` is an `x64PagingStructure`: a frame of its own that holds the address of a PML4. -/
structure PageTables (m : Mem) (ps : Nat) : Prop where
  tree : TableTree m (load m ps)
  frame : IsFrame ps
  own : ¬ IsTableOf m (load m ps) ps

def InStructure (m : Mem) (ps a : Nat) : Prop := a = ps ∨ IsTableOf m (load m ps) a

theorem TableTree.load_eq {m m' : Mem} {root ps : Nat} (htree : TableTree m' root)
    (h : AgreeOff (InTables m' root) m m') (hps : IsFrame ps) (hown : ¬ IsTableOf m' root ps) :
    load m' ps = load m ps := by
  refine h.load ?_
  rintro ⟨a, ha, hle, hlt⟩
  have hframe := (htree.frame a ha).1
  have hps' := hps.1
  simp only [pageSize] at hframe hps' hlt
  obtain rfl : a = ps := by omega
  exact hown ha

section

variable {k k' : Kernel} {ps v value : Nat}

theorem PageTables.writesPage (h : PageTables k.sh.pmem ps)
    (hw : WritesPage (InStructure k.sh.pmem ps) (load k.sh.pmem ps) v value k k') :
    PageTables k'.sh.pmem ps ∧ load k'.sh.pmem ps = load k.sh.pmem ps ∧
      ∀ w, pte k'.sh.pmem (load k'.sh.pmem ps) w =
        if SamePage v w then value else pte k.sh.pmem (load k.sh.pmem ps) w := by
  obtain ⟨new, hset, -, hgood, -⟩ := hw
  have hown : ¬ IsTableOf k'.sh.pmem (load k.sh.pmem ps) ps := by
    intro ht
    rcases (hset.tables ps).1 ht with ht | ht
    · exact h.own ht
    · exact (hgood ps ht).2 (.inl rfl)
  have hload := hset.tree.load_eq hset.off h.frame hown
  refine ⟨⟨?_, h.frame, ?_⟩, hload, fun w => ?_⟩
  · rw [hload]; exact hset.tree
  · rw [hload]; exact hown
  · rw [hload]; exact hset.pte w

/-! ## The operations -/

inductive PagingOp where
  | map (vaddr paddr flags : Nat)
  | invalidate (vaddr : Nat)

def PagingOp.vaddr : PagingOp → Nat
  | .map vaddr _ _ => vaddr
  | .invalidate vaddr => vaddr

def PagingOp.exec (ps : Nat) : PagingOp → KM Unit
  | .map vaddr paddr flags => pagingMap ps vaddr paddr flags
  | .invalidate vaddr => invalidatePagingMapping ps vaddr

/-- The entry an operation writes, given the one that was there. -/
def PagingOp.entry : PagingOp → Nat → Nat
  | .map _ paddr flags, _ => mapEntry paddr flags
  | .invalidate _, old => old - old % 2

/-- The frames that `alloc_frame` returns for the missing tables are not in the structure. -/
def FreshTables (ps v : Nat) (k : Kernel) : Prop :=
  SuppliesPath (InStructure k.sh.pmem ps) (load k.sh.pmem ps) v k

theorem PageTables.exec {op : PagingOp} {u : Unit} (h : PageTables k.sh.pmem ps)
    (hfresh : FreshTables ps op.vaddr k) (hrun : (op.exec ps).run k = .ok u k') :
    PageTables k'.sh.pmem ps ∧ load k'.sh.pmem ps = load k.sh.pmem ps ∧
      ∀ w, pte k'.sh.pmem (load k'.sh.pmem ps) w =
        if SamePage op.vaddr w then op.entry (pte k.sh.pmem (load k.sh.pmem ps) op.vaddr)
        else pte k.sh.pmem (load k.sh.pmem ps) w := by
  have hused : ∀ b, IsTableOf k.sh.pmem (load k.sh.pmem ps) b → InStructure k.sh.pmem ps b :=
    fun _ hb => .inr hb
  cases op with
  | map vaddr paddr flags => exact h.writesPage (run_pagingMap_ok h.tree rfl hused hfresh hrun)
  | invalidate vaddr =>
    exact h.writesPage (run_invalidatePagingMapping_ok h.tree rfl hused hfresh hrun)

/-- A call of one of the operations on the structure. -/
def PagingStep (ps : Nat) (k k' : Kernel) : Prop :=
  ∃ op : PagingOp, FreshTables ps op.vaddr k ∧ (op.exec ps).run k = .ok () k'

theorem pageTables_of_run (h : PageTables k.sh.pmem ps) (hrun : ReflTransGen (PagingStep ps) k k') :
    PageTables k'.sh.pmem ps :=
  @invariant_of_steps _ _ (fun k => PageTables k.sh.pmem ps)
    (fun _ _ ⟨_, hfresh, hstep⟩ hk => (hk.exec hfresh hstep).1) _ _ hrun h

end

/-! ## A new structure -/

section

variable {m : Mem} {root f : Nat} {k k' : Kernel}

theorem tableTree_of_empty (hroot : IsFrame root) (hempty : ∀ i, entries m root i = 0) :
    TableTree m root ∧ ∀ a, IsTableOf m root a ↔ a = root := by
  have hwalk : ∀ p a, walk nextTable (entries m) root p = some a → p = [] ∧ a = root := by
    intro p a hw
    cases p with
    | nil => exact ⟨rfl, (Option.some.inj hw).symm⟩
    | cons i p =>
      rw [walk, hempty] at hw
      cases hw
  have htable : ∀ a, IsTableOf m root a ↔ a = root := by
    intro a
    constructor
    · rintro ⟨p, -, hw⟩; exact (hwalk p a hw).2
    · rintro rfl; exact isTableOf_root
  refine ⟨⟨fun p q a _ _ hp hq => ?_, fun a ha => ?_⟩, htable⟩
  · rw [(hwalk p a hp).1, (hwalk q a hq).1]
  · rw [(htable a).1 ha]; exact hroot

theorem pageTables_of_empty {ps : Nat} (hload : load m ps = root) (hps : IsFrame ps)
    (hroot : IsFrame root) (hne : ps ≠ root) (hempty : ∀ i, entries m root i = 0) :
    PageTables m ps ∧ (∀ a, InStructure m ps a ↔ a = ps ∨ a = root) ∧
      ∀ v, pte m (load m ps) v = 0 := by
  obtain ⟨htree, htable⟩ := tableTree_of_empty hroot hempty
  subst hload
  refine ⟨⟨htree, hps, fun hown => hne ((htable ps).1 hown)⟩, fun a => ?_, fun v => ?_⟩
  · rw [InStructure, htable]
  · rw [pte, leaf, tablePath, walk, hempty]
    rfl

theorem tableTree_fill (hroot : IsFrame root) : TableTree (fill m root pageSize 0) root ∧
    ∀ a, IsTableOf (fill m root pageSize 0) root a ↔ a = root :=
  tableTree_of_empty hroot fun _ => entries_fill_self hroot

/-- The loop that gives every entry of the PML4 a table, from entry `start` on; the `n`
frames after those it takes are in none of the tables. -/
theorem run_allocateTables_ok {used : Nat → Prop} {count start n : Nat} {u : Unit}
    (h : TableTree k.sh.pmem root) (hlen : start + count = 512)
    (hempty : ∀ i : Fin 512, start ≤ i → entries k.sh.pmem root i = 0)
    (hused : ∀ b, IsTableOf k.sh.pmem root b → used b)
    (hsup : Supplies k.sh.halArchInitialized used (count + n) k.sh.frames)
    (hrun : (forRange (fun i => allocateTable (entryAddr root i)) count start).run k = .ok u k') :
    TableTree k'.sh.pmem root ∧
      Supplies k'.sh.halArchInitialized (IsTableOf k'.sh.pmem root) n k'.sh.frames := by
  induction count generalizing start k used with
  | zero =>
    rw [forRange, EStateM.run_pure] at hrun
    cases hrun
    exact ⟨h, hsup.mono (by omega) hused⟩
  | succ count ih =>
    rw [Nat.add_right_comm] at hsup
    obtain ⟨_, k₁, halloc, hrest⟩ := run_bind_ok.1 hrun
    have hstart : start < 512 := by omega
    have habsent : nextTable (entries k.sh.pmem root ⟨start, hstart⟩) = none := by
      rw [hempty ⟨start, hstart⟩ (Nat.le_refl _)]
      rfl
    obtain ⟨x, -, ⟨hframe, hnot⟩, hpmem, hgrow, -, hused', hsup'⟩ :=
      run_allocateTable_ok (p := []) h (by decide) rfl habsent hused hsup halloc
    refine ih hgrow.tree (by omega) (fun i hi => ?_) hused' hsup' hrest
    have hroot := h.frame root isTableOf_root
    have hne : root ≠ x := fun e => hnot (hused x (e ▸ isTableOf_root))
    rw [hpmem, linkTable, entries_store_of_ne hroot hroot, entries_fill_of_ne hroot hframe hne]
    · exact hempty i (by omega)
    · rintro ⟨-, rfl⟩
      have : start + 1 ≤ start := hi
      omega

/-- `create_empty_kernel_paging_structure` takes 514 frames and makes a structure of them;
the frames after those are not in it. -/
theorem run_createEmptyKernelPagingStructure_supplies {ps n : Nat}
    (hsup : Supplies k.sh.halArchInitialized (fun _ => False) (514 + n) k.sh.frames)
    (hrun : createEmptyKernelPagingStructure.run k = .ok ps k') :
    PageTables k'.sh.pmem ps ∧
      Supplies k'.sh.halArchInitialized (InStructure k'.sh.pmem ps) n k'.sh.frames := by
  unfold createEmptyKernelPagingStructure at hrun
  obtain ⟨root, k₁, hroot, hrun⟩ := run_bind_ok.1 hrun
  obtain ⟨htake, hpmem, hhal⟩ := run_allocFrame_takes hroot
  rw [show 514 + n = 512 + (n + 1) + 1 by omega] at hsup
  obtain ⟨hframe, -, hsup'⟩ := hsup root _ htake
  rw [run_modifyShared_bind] at hrun
  obtain ⟨_, k₂, hloop, hrun⟩ := run_bind_ok.1 hrun
  obtain ⟨htree, htables⟩ := tableTree_fill (m := k₁.sh.pmem) hframe
  rw [← hhal] at hsup'
  obtain ⟨htree', hnext⟩ := @run_allocateTables_ok root
    { k₁ with sh := { k₁.sh with pmem := fill k₁.sh.pmem root pageSize 0 } } k₂ _ 512 0 (n + 1) ()
    htree rfl (fun i _ => entries_fill_self hframe) (fun b hb => .inr ((htables b).1 hb)) hsup' hloop
  obtain ⟨ps', k₃, hps, hrun⟩ := run_bind_ok.1 hrun
  obtain ⟨htake', hpmem', hhal'⟩ := run_allocFrame_takes hps
  obtain ⟨hpsframe, hown, hlater⟩ := hnext ps' _ htake'
  unfold writePmem at hrun
  rw [run_modifyShared_bind, EStateM.run_pure] at hrun
  cases hrun
  -- writing the address of the PML4 touches no table
  have hload : load (store k₃.sh.pmem ps root) ps = root := by
    have := hframe.2
    exact load_store_same (by omega)
  rw [← hpmem'] at htree' hown hlater
  have hsame : ∀ b, InTables k₃.sh.pmem root b → store k₃.sh.pmem ps root b = k₃.sh.pmem b := by
    rintro b ⟨a, ha, hle, hlt⟩
    refine if_neg ?_
    rintro rfl
    have ha' := (htree'.frame a ha).1
    have hb' := hpsframe.1
    simp only [pageSize] at ha' hb' hlt
    obtain rfl : a = b := by omega
    exact hown ha
  obtain ⟨htree'', htables'', -⟩ := htree'.congr hsame
  refine ⟨⟨?_, hpsframe, ?_⟩, ?_⟩
  · show TableTree (store k₃.sh.pmem ps root) (load (store k₃.sh.pmem ps root) ps)
    rw [hload]
    exact htree''
  · show ¬ IsTableOf (store k₃.sh.pmem ps root) (load (store k₃.sh.pmem ps root) ps) ps
    rw [hload, htables'']
    exact hown
  · show Supplies k₃.sh.halArchInitialized
      (InStructure (store k₃.sh.pmem ps root) ps) n k₃.sh.frames
    rw [hhal']
    refine hlater.mono (Nat.le_refl n) ?_
    rintro b (rfl | hb)
    · exact .inr rfl
    · rw [hload] at hb
      exact .inl ((htables'' b).1 hb)

theorem run_createEmptyKernelPagingStructure_ok {ps : Nat}
    (hsup : Supplies k.sh.halArchInitialized (fun _ => False) 514 k.sh.frames)
    (hrun : createEmptyKernelPagingStructure.run k = .ok ps k') : PageTables k'.sh.pmem ps :=
  (run_createEmptyKernelPagingStructure_supplies (n := 0) hsup hrun).1

end

/-! ## Isolation -/

/-- In every state that operations on a new paging structure reach, no frame is used as
two tables; one more operation changes the report for no page whose bits 12 to 47
differ from its own, and invalidating a page makes it not present. -/
theorem mapping_isolation {k₀ k₁ k : Kernel} {ps : Nat}
    (hframes : Supplies k₀.sh.halArchInitialized (fun _ => False) 514 k₀.sh.frames)
    (hcreate : createEmptyKernelPagingStructure.run k₀ = .ok ps k₁)
    (hrun : ReflTransGen (PagingStep ps) k₁ k) :
    TreeShaped nextTable (entries k.sh.pmem) (load k.sh.pmem ps) 3 ∧
      ∀ (op : PagingOp) (k' : Kernel), FreshTables ps op.vaddr k →
        (op.exec ps).run k = .ok () k' →
        (∀ w, ¬ SamePage op.vaddr w →
          getPhysicalAddress k'.sh.pmem ps w = getPhysicalAddress k.sh.pmem ps w) ∧
        ∀ v, op = .invalidate v → (getPhysicalAddress k'.sh.pmem ps v).mmapPresent = false := by
  have h := pageTables_of_run (run_createEmptyKernelPagingStructure_ok hframes hcreate) hrun
  refine ⟨h.tree.shape, fun op k' hfresh hop => ?_⟩
  obtain ⟨-, -, hpte⟩ := h.exec hfresh hop
  constructor
  · intro w hw
    rw [getPhysicalAddress_eq, getPhysicalAddress_eq, hpte, if_neg hw]
  · rintro v rfl
    have hself : SamePage v v := rfl
    rw [getPhysicalAddress_eq, hpte]
    show isEntryPresent (if SamePage v v then _ else _) = false
    rw [if_pos hself]
    generalize pte k.sh.pmem (load k.sh.pmem ps) (PagingOp.invalidate v).vaddr = old
    show ((old - old % 2) &&& 1 != 0) = false
    rw [Nat.and_one_is_mod, bne_eq_false_iff_eq]
    omega

def largeRange : Nat → PhysicalMemoryRange := fun _ => ⟨MB, 8 * MB⟩

theorem largeRange_free : FreeRanges largeRange 1 where
  aligned _ _ := show MB % pageSize = 0 ∧ 8 * MB % pageSize = 0 by decide
  word _ _ := show MB < 2 ^ 64 ∧ 8 * MB < 2 ^ 64 by decide
  fits _ _ := show MB + 8 * MB ≤ 2 ^ 64 by decide
  disjoint i hi j hj hne := by omega

def roomyKernel : Kernel :=
  finalState ((onFrames (initFrameAllocator largeRange 1 (8 * MB))).run staticKernel)

theorem roomyKernel_supplies (n : Nat) :
    Supplies roomyKernel.sh.halArchInitialized (fun _ => False) n roomyKernel.sh.frames := by
  have hinit := eq_of_returned (a := ())
    (r := (onFrames (initFrameAllocator largeRange 1 (8 * MB))).run staticKernel) (by decide +kernel)
  exact initFrameAllocator_supplies largeRange_free (by decide)
    (fun _ _ => (by decide : MB + 8 * MB ≤ 2 ^ 48)) hinit _ n

/-- A new paging structure, at the last of the 514 frames taken for it. -/
def newPaging : Nat := MB + 519 * pageSize

@[irreducible] def newPagingKernel : Kernel :=
  finalState (createEmptyKernelPagingStructure.run roomyKernel)

theorem newPagingKernel_run :
    createEmptyKernelPagingStructure.run roomyKernel = .ok newPaging newPagingKernel := by
  unfold newPagingKernel
  exact eq_of_returned (by decide +kernel)

theorem newPagingKernel_fresh (v : Nat) : FreshTables newPaging v newPagingKernel :=
  (run_createEmptyKernelPagingStructure_supplies (roomyKernel_supplies _) newPagingKernel_run).2

def mappedKernel (p : Nat) : Kernel :=
  finalState ((pagingMap newPaging 0xffff800000000000 p pageWritable).run newPagingKernel)

def lowPage : Kernel := mappedKernel 0x7fffffff000

theorem lowPage_run : (pagingMap newPaging 0xffff800000000000 0x7fffffff000 pageWritable).run
    newPagingKernel = .ok () lowPage := eq_of_returned (by decide +kernel)

/-- The page behind is mapped by the same table. -/
def twoPages : Kernel :=
  finalState ((pagingMap newPaging 0xffff800000001000 0 pageWritable).run lowPage)

theorem FreshTables.of_mapped {ps v : Nat}
    (h : missingTables k.sh.pmem (load k.sh.pmem ps) (tablePath v) = 0) : FreshTables ps v k := by
  unfold FreshTables SuppliesPath
  rw [h]
  trivial

-- One evaluation for all four facts: each on its own builds the structure again.
theorem twoPages_steps :
    returned ((pagingMap newPaging 0xffff800000001000 0 pageWritable).run lowPage) = some () ∧
      returned ((invalidatePagingMapping newPaging 0xffff800000000000).run twoPages) = some () ∧
      missingTables lowPage.sh.pmem (load lowPage.sh.pmem newPaging)
        (tablePath 0xffff800000001000) = 0 ∧
      missingTables twoPages.sh.pmem (load twoPages.sh.pmem newPaging)
        (tablePath 0xffff800000000000) = 0 := by
  decide +kernel

theorem mapping_isolation_twoPages : ∃ k,
    (pagingMap newPaging 0xffff800000001000 0 pageWritable).run lowPage = .ok () twoPages ∧
      getPhysicalAddress twoPages.sh.pmem newPaging 0xffff800000000000 =
        getPhysicalAddress lowPage.sh.pmem newPaging 0xffff800000000000 ∧
      (invalidatePagingMapping newPaging 0xffff800000000000).run twoPages = .ok () k ∧
      (getPhysicalAddress k.sh.pmem newPaging 0xffff800000000000).mmapPresent = false := by
  have hfirst : PagingStep newPaging newPagingKernel lowPage :=
    ⟨.map 0xffff800000000000 0x7fffffff000 pageWritable, newPagingKernel_fresh _, lowPage_run⟩
  have hfresh : FreshTables newPaging (PagingOp.map 0xffff800000001000 0 pageWritable).vaddr
      lowPage := .of_mapped twoPages_steps.2.2.1
  have hsecond : ((PagingOp.map 0xffff800000001000 0 pageWritable).exec newPaging).run lowPage =
      .ok () twoPages := eq_of_returned twoPages_steps.1
  have hinvalidate : ((PagingOp.invalidate 0xffff800000000000).exec newPaging).run twoPages =
      .ok () _ := eq_of_returned twoPages_steps.2.1
  have hiso := mapping_isolation (roomyKernel_supplies 514) newPagingKernel_run (.single hfirst)
  have hiso' := mapping_isolation (roomyKernel_supplies 514) newPagingKernel_run
    (.tail (.single hfirst) ⟨_, hfresh, hsecond⟩)
  exact ⟨_, hsecond, (hiso.2 _ _ hfresh hsecond).1 _ (by decide), hinvalidate,
    (hiso'.2 (.invalidate _) _ (.of_mapped twoPages_steps.2.2.2) hinvalidate).2 _ rfl⟩

end GarbageOS
