import GarbageOS.Paging.Paged

/-!
# Copying a range of mappings

`copy_paging_structure_mapping_no_page_invalidation` leaves the source as it was and
sets the entries of the range in the destination. With `new_flags` 0 the entries are those
of the source; other flags replace the flags of every entry, the present bit among them,
so they make a mapping of every hole or a hole of every mapping.
-/

namespace GarbageOS

open Lib

def InRange (start size v : Nat) : Prop := ∃ i < pageCount size, SamePage (nthPage start i) v

section

variable {k k' t t' : Kernel} {src dst start size newFlags i : Nat} {u : Unit}

/-! ## The loop -/

/-- The copy before the round `i`. -/
structure CopiedBefore (src dst start newFlags i : Nat) (k t : Kernel) : Prop where
  source : PageTables t.sh.pmem src
  dest : PageTables t.sh.pmem dst
  apart : NoSharedFrame t.sh.pmem src dst
  fresh : FreshFrames t src dst
  same : ∀ w, entryAt t.sh.pmem src w = entryAt k.sh.pmem src w
  inside : ∀ w, (∃ j < i, SamePage (nthPage start j) w) →
    entryAt t.sh.pmem dst w = copiedEntry newFlags (entryAt k.sh.pmem src w)
  outside : ∀ w, (¬ ∃ j < i, SamePage (nthPage start j) w) →
    entryAt t.sh.pmem dst w = entryAt k.sh.pmem dst w

theorem CopiedBefore.succ (h : CopiedBefore src dst start newFlags i k t) (hflags : newFlags < 2 ^ 16)
    (hrun : (copyPagingEntry src dst (nthPage start i) newFlags).run t = .ok u t') :
    CopiedBefore src dst start newFlags (i + 1) k t' := by
  have hset := h.source.copyEntry h.dest h.apart h.fresh hflags hrun
  have hvalue : ∀ w, SamePage (nthPage start i) w →
      entryAt t'.sh.pmem dst w = copiedEntry newFlags (entryAt k.sh.pmem src w) := by
    intro w hw
    have hself := hset.pte w
    have hsrc : entryAt k.sh.pmem src w = entryAt t.sh.pmem src (nthPage start i) := by
      rw [← h.same, entryAt_congr hw]
    rw [if_pos hw] at hself
    rw [hsrc]
    exact hself
  have hkeep : ∀ w, ¬ SamePage (nthPage start i) w →
      entryAt t'.sh.pmem dst w = entryAt t.sh.pmem dst w := by
    intro w hw
    have hself := hset.pte w
    rwa [if_neg hw] at hself
  refine ⟨hset.other, hset.tables, hset.apart, hset.fresh,
    fun w => (hset.pte_other w).trans (h.same w), fun w hw => ?_, fun w hw => ?_⟩
  · -- a page met again gets the entry that it has
    by_cases hi : SamePage (nthPage start i) w
    · exact hvalue w hi
    · obtain ⟨j, hj, hw⟩ := hw
      have hne : j ≠ i := fun e => hi (e ▸ hw)
      rw [hkeep w hi]
      exact h.inside w ⟨j, by omega, hw⟩
  · rw [hkeep w fun hi => hw ⟨i, Nat.lt_succ_self i, hi⟩]
    exact h.outside w fun ⟨j, hj, hs⟩ => hw ⟨j, by omega, hs⟩

/-! ## What is reported -/

theorem getPhysicalAddress_entryAt (m : Mem) (ps v : Nat) :
    getPhysicalAddress m ps v = .ofEntry (entryAt m ps v) :=
  getPhysicalAddress_eq m ps v

/-- The copy of a page that is reported as `s` in the source is reported as `d`: it is present
if the page is, and then has the same frame and the flags asked for. -/
structure CopiedAs (newFlags : Nat) (s d : PagingMapState) : Prop where
  present : d.mmapPresent = true ↔ s.mmapPresent = true
  frame : d.mmapPresent = true → d.paddr = s.paddr
  flags : d.mmapPresent = true → d.flags = if newFlags = 0 then s.flags else newFlags

/-- What flags other than 0 have to be for a page to be copied as it is. -/
def FlagsFit (newFlags : Nat) (present : Bool) : Prop :=
  if present then newFlags % 2 = 1 ∧ newFlags < 2 ^ 12 else newFlags % 2 = 0

instance (newFlags : Nat) (present : Bool) : Decidable (FlagsFit newFlags present) :=
  inferInstanceAs (Decidable (if present then newFlags % 2 = 1 ∧ newFlags < 2 ^ 12
    else newFlags % 2 = 0))

variable {entry : Nat}

theorem copiedEntry_zero (entry : Nat) : copiedEntry 0 entry = entry := rfl

theorem copiedEntry_mod (h : newFlags ≠ 0) :
    copiedEntry newFlags entry % 2 ^ 12 = newFlags % 2 ^ 12 := by
  have hframe : (entry &&& frameMask) % 2 ^ 12 = 0 := by
    rw [frameMask, show 0x0000fffffffff000 = (2 ^ 36 - 1) * 2 ^ 12 from rfl, and_mask]
    exact Nat.mul_mod_left _ _
  rw [copiedEntry, if_neg h, Nat.or_mod_two_pow, hframe, Nat.zero_or]

theorem copiedEntry_frame (h : newFlags ≠ 0) (hlt : newFlags < 2 ^ 12) :
    copiedEntry newFlags entry &&& frameMask = entry &&& frameMask := by
  rw [copiedEntry, if_neg h, frameMask, show 0x0000fffffffff000 = (2 ^ 36 - 1) * 2 ^ 12 from rfl,
    and_mask, and_mask, or_eq_add (k := 12) (Nat.mul_mod_left _ _) hlt]
  omega

theorem isEntryPresent_copiedEntry (h : newFlags ≠ 0) :
    isEntryPresent (copiedEntry newFlags entry) = true ↔ newFlags % 2 = 1 := by
  have hmod : copiedEntry newFlags entry % 2 ^ 12 = newFlags % 2 ^ 12 := copiedEntry_mod h
  rw [isEntryPresent_iff]
  omega

theorem copiedAs_iff : CopiedAs newFlags (.ofEntry entry) (.ofEntry (copiedEntry newFlags entry)) ↔
    newFlags = 0 ∨ FlagsFit newFlags (isEntryPresent entry) := by
  by_cases hzero : newFlags = 0
  · subst hzero
    rw [copiedEntry_zero]
    exact iff_of_true ⟨.rfl, fun _ => rfl, fun _ => rfl⟩ (.inl rfl)
  have hpresent : isEntryPresent (copiedEntry newFlags entry) = true ↔ newFlags % 2 = 1 :=
    isEntryPresent_copiedEntry hzero
  have hlow : copiedEntry newFlags entry &&& 0xfff = newFlags % 2 ^ 12 := by
    rw [show 0xfff = 2 ^ 12 - 1 from rfl, Nat.and_two_pow_sub_one_eq_mod, copiedEntry_mod hzero]
  unfold FlagsFit
  simp only [hzero, false_or]
  constructor
  · intro h
    have hiff : newFlags % 2 = 1 ↔ isEntryPresent entry = true := hpresent.symm.trans h.present
    split
    · next hp =>
      have hodd := hiff.2 hp
      have hflags : copiedEntry newFlags entry &&& 0xfff = newFlags := by
        have := h.flags (hpresent.2 hodd)
        rwa [if_neg hzero] at this
      rw [hlow] at hflags
      exact ⟨hodd, by omega⟩
    · next hp =>
      have heven := hiff.not.2 hp
      omega
  · intro h
    split at h
    · next hp =>
      obtain ⟨hodd, hlt⟩ := h
      refine ⟨iff_of_true (hpresent.2 hodd) hp, fun _ => ?_, fun _ => ?_⟩
      · show canonicalPaddr _ = canonicalPaddr _
        rw [copiedEntry_frame hzero hlt]
      · rw [if_neg hzero]
        exact hlow.trans (Nat.mod_eq_of_lt hlt)
    · next hp =>
      have hno : ¬ isEntryPresent (copiedEntry newFlags entry) = true := fun hy => by
        have := hpresent.1 hy
        omega
      exact ⟨iff_of_false hno hp, fun hy => (hno hy).elim, fun hy => (hno hy).elim⟩

/-! ## The whole range -/

/-- The pages of the range are copied as they are, and nothing else is reported otherwise. -/
structure CopiesExactly (src dst start size newFlags : Nat) (k k' : Kernel) : Prop where
  inside : ∀ v, InRange start size v → CopiedAs newFlags (getPhysicalAddress k.sh.pmem src v)
    (getPhysicalAddress k'.sh.pmem dst v)
  outside : ∀ v, ¬ InRange start size v →
    getPhysicalAddress k'.sh.pmem dst v = getPhysicalAddress k.sh.pmem dst v
  source : ∀ v, getPhysicalAddress k'.sh.pmem src v = getPhysicalAddress k.sh.pmem src v

variable (hs : PageTables k.sh.pmem src) (hd : PageTables k.sh.pmem dst)
  (hsep : NoSharedFrame k.sh.pmem src dst) (hfresh : FreshFrames k src dst)

include hs hd hsep hfresh

theorem CopiedBefore.zero : CopiedBefore src dst start newFlags 0 k k :=
  ⟨hs, hd, hsep, hfresh, fun _ => rfl, fun _ ⟨_, hj, _⟩ => (Nat.not_lt_zero _ hj).elim, fun _ _ => rfl⟩

variable (hflags : newFlags < 2 ^ 16)
  (hrun : (copyPagingStructureMappingNoPageInvalidation src dst start size newFlags).run k = .ok () k')

include hflags hrun

theorem copiedBefore_of_run : CopiedBefore src dst start newFlags (pageCount size) k k' := by
  unfold copyPagingStructureMappingNoPageInvalidation forPages at hrun
  obtain ⟨_, t, hloop, hcheck⟩ := run_bind_ok.1 hrun
  obtain ⟨-, rfl⟩ := run_check_ok.1 hcheck
  have h := @run_forRange_inv _ _ (fun i => copyPagingEntry src dst (nthPage start i) newFlags)
    (fun i t => CopiedBefore src dst start newFlags i k t) _ (pageCount size) 0 k k'
    (fun i t t' _ _ ht hstep => ht.succ hflags hstep) (.zero hs hd hsep hfresh) hloop
  rwa [Nat.zero_add] at h

/-- Between structures that share no frame, where `alloc_frame` returns frames of neither, a range
is copied exactly if `new_flags` is 0 or fits every page of the range. -/
theorem copiesExactly_iff :
    CopiesExactly src dst start size newFlags k k' ↔ newFlags = 0 ∨ ∀ v, InRange start size v →
      FlagsFit newFlags (getPhysicalAddress k.sh.pmem src v).mmapPresent := by
  have h := copiedBefore_of_run hs hd hsep hfresh hflags hrun
  have hpage : ∀ v, InRange start size v →
      (CopiedAs newFlags (getPhysicalAddress k.sh.pmem src v) (getPhysicalAddress k'.sh.pmem dst v) ↔
        newFlags = 0 ∨ FlagsFit newFlags (getPhysicalAddress k.sh.pmem src v).mmapPresent) := by
    intro v hv
    rw [getPhysicalAddress_entryAt, getPhysicalAddress_entryAt, h.inside v hv]
    exact copiedAs_iff
  constructor
  · intro hexact
    by_cases hzero : newFlags = 0
    · exact .inl hzero
    · exact .inr fun v hv => ((hpage v hv).1 (hexact.inside v hv)).resolve_left hzero
  · intro hfit
    refine ⟨fun v hv => (hpage v hv).2 (hfit.imp_right fun hall => hall v hv), fun v hv => ?_,
      fun v => ?_⟩
    · rw [getPhysicalAddress_entryAt, getPhysicalAddress_entryAt, h.outside v hv]
    · rw [getPhysicalAddress_entryAt, getPhysicalAddress_entryAt, h.same]

end

/-! ## Two structures -/

/-- A paging structure lies in page 5 with its PML4 in page 6,
another one in page 7 with its PML4 in page 8. -/
def twoStructures : Kernel :=
  { startedKernel with
    sh := { startedKernel.sh with
      pmem := store (store (fun _ => 0) (5 * pageSize) (6 * pageSize)) (7 * pageSize)
        (8 * pageSize) } }

def startedFrames : List Nat :=
  rangeFrames startedKernel.sh.frames.freeRanges startedKernel.sh.frames.numberOfRanges

theorem startedKernel_store : FrameStore startedKernel.sh.frames [] startedFrames := by
  obtain ⟨f, hf, hk⟩ := run_onFrames_ok.1 startedKernel_run
  obtain ⟨i, hs⟩ := initFrameAllocator_started (by decide) hf
  have hframes : startedKernel.sh.frames = f := congrArg (fun k : Kernel => k.sh.frames) hk
  have hcount : startedKernel.sh.frames.numberOfRanges = 1 := by decide +kernel
  have hall : startedFrames = rangeFrames f.freeRanges 1 := by rw [startedFrames, hcount, hframes]
  refine ⟨?_, ?_, ?_, ?_, ?_⟩
  · rw [hall, hframes]
    exact hs.inv oneRange_free
  · rw [hall]
    exact hs.nodup oneRange_free
  · decide +kernel
  · decide +kernel
  · decide +kernel

theorem twoStructures_tables {i : Nat} (hi : i = 5 ∨ i = 7) :
    PageTables twoStructures.sh.pmem (i * pageSize) ∧
    (∀ a, InStructure twoStructures.sh.pmem (i * pageSize) a ↔
      a = i * pageSize ∨ a = (i + 1) * pageSize) ∧
    ∀ v, entryAt twoStructures.sh.pmem (i * pageSize) v = 0 := by
  have hempty : ∀ j, entries twoStructures.sh.pmem ((i + 1) * pageSize) j = 0 := by
    rcases hi with rfl | rfl <;> decide +kernel
  rcases hi with rfl | rfl <;>
    exact pageTables_of_empty (by decide +kernel) ⟨by decide, by decide⟩ ⟨by decide, by decide⟩
      (by decide) hempty

theorem twoStructures_not_free {a : Nat} (ha : a < MB) : ¬ FreeFrame twoStructures.sh.frames a := by
  intro hf
  have hmem := (startedKernel_store.free_iff.1 hf).1
  have hge : ∀ b ∈ startedFrames, MB ≤ b := by decide +kernel
  exact absurd (hge a hmem) (Nat.not_le.2 ha)

theorem twoStructures_apart : NoSharedFrame twoStructures.sh.pmem (7 * pageSize) (5 * pageSize) := by
  obtain ⟨-, hsrc, -⟩ := twoStructures_tables (.inr rfl)
  obtain ⟨-, hdst, -⟩ := twoStructures_tables (.inl rfl)
  intro a ha hd
  have h7 := (hsrc a).1 ha
  have h5 := (hdst a).1 hd
  simp only [pageSize] at h5 h7
  omega

theorem twoStructures_fresh : FreshFrames twoStructures (7 * pageSize) (5 * pageSize) := by
  obtain ⟨-, hsrc, -⟩ := twoStructures_tables (.inr rfl)
  obtain ⟨-, hdst, -⟩ := twoStructures_tables (.inl rfl)
  refine fun n => startedKernel_store.supplies fun a ha => twoStructures_not_free ?_
  rcases ha with ha | ha
  · rcases (hsrc a).1 ha with rfl | rfl <;> decide
  · rcases (hdst a).1 ha with rfl | rfl <;> decide

/-- The page at the start of the kernel part, which is not mapped, is copied with the present flag. -/
def copiedKernel : Kernel :=
  finalState ((copyPagingStructureMappingNoPageInvalidation (7 * pageSize) (5 * pageSize)
    0xffff800000000000 pageSize pagePresent).run twoStructures)

theorem copiedKernel_run : (copyPagingStructureMappingNoPageInvalidation (7 * pageSize) (5 * pageSize)
    0xffff800000000000 pageSize pagePresent).run twoStructures = .ok () copiedKernel :=
  eq_of_returned (by decide +kernel)

/-- It is copied back together with the next page, which is not mapped. -/
theorem copiesExactly_back : ∃ k', CopiesExactly (5 * pageSize) (7 * pageSize) 0xffff800000000000
      (2 * pageSize) 0 copiedKernel k' ∧
    getPhysicalAddress k'.sh.pmem (7 * pageSize) 0xffff800000000000 = ⟨0, 1, true⟩ := by
  have h := copiedBefore_of_run (twoStructures_tables (.inr rfl)).1 (twoStructures_tables (.inl rfl)).1
    twoStructures_apart twoStructures_fresh (by decide) copiedKernel_run
  have hrun : (copyPagingStructureMappingNoPageInvalidation (5 * pageSize) (7 * pageSize)
      0xffff800000000000 (2 * pageSize) 0).run copiedKernel = .ok () _ :=
    eq_of_returned (by decide +kernel)
  exact ⟨_, (copiesExactly_iff h.dest h.source h.apart.symm h.fresh.symm (by decide) hrun).2 (.inl rfl),
    by decide +kernel⟩

/-- With the present flag a page that the source does not map is mapped to the frame 0. -/
theorem exists_hole_copied_present :
    PageTables twoStructures.sh.pmem (7 * pageSize) ∧ PageTables twoStructures.sh.pmem (5 * pageSize) ∧
    NoSharedFrame twoStructures.sh.pmem (7 * pageSize) (5 * pageSize) ∧
    FreshFrames twoStructures (7 * pageSize) (5 * pageSize) ∧
    (copyPagingStructureMappingNoPageInvalidation (7 * pageSize) (5 * pageSize) 0xffff800000000000
      pageSize pagePresent).run twoStructures = .ok () copiedKernel ∧
    getPhysicalAddress twoStructures.sh.pmem (7 * pageSize) 0xffff800000000000 = ⟨0, 0, false⟩ ∧
    getPhysicalAddress copiedKernel.sh.pmem (5 * pageSize) 0xffff800000000000 = ⟨0, 1, true⟩ :=
  ⟨(twoStructures_tables (.inr rfl)).1, (twoStructures_tables (.inl rfl)).1, twoStructures_apart,
    twoStructures_fresh, copiedKernel_run, by decide +kernel, by decide +kernel⟩

end GarbageOS
