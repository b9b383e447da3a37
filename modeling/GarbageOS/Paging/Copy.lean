import GarbageOS.Paging.Isolation

/-!
# Copying entries between paging structures

`copy_paging_structure_mapping_no_page_invalidation` follows the path of a page in two
paging structures that share no frame, and sets the entry in the second one. Work on
one of them leaves the frames of the other alone.
-/

namespace GarbageOS

open Lib

section

variable {hal : Bool} {used : Nat → Prop} {f g : FrameAllocator} {xs : List Nat} {n : Nat}

theorem Supplies.takes (h : Supplies hal used (xs.length + n) f) (ht : Takes hal f xs g) :
    Supplies hal (fun a => used a ∨ a ∈ xs) n g := by
  induction ht generalizing used with
  | nil =>
    rw [List.length_nil, Nat.zero_add] at h
    exact h.mono (Nat.le_refl n) fun a ha => ha.resolve_right List.not_mem_nil
  | @cons f g f' x xs hx _ ih =>
    have hn : (x :: xs).length + n = xs.length + n + 1 := by
      rw [List.length_cons]; omega
    rw [hn] at h
    refine (ih (h x g hx).2.2).mono (Nat.le_refl n) fun a ha => ?_
    simp only [List.mem_cons] at ha
    tauto

end

def StructureWord (m : Mem) (ps b : Nat) : Prop := b = ps ∨ InTables m (load m ps) b

section

variable {m m' : Mem} {ps src : Nat}

theorem PageTables.congr (h : PageTables m ps) (hsame : ∀ b, StructureWord m ps b → m' b = m b) :
    PageTables m' ps ∧ load m' ps = load m ps ∧
      (∀ a, InStructure m' ps a ↔ InStructure m ps a) ∧
      ∀ v, pte m' (load m' ps) v = pte m (load m ps) v := by
  have hload : load m' ps = load m ps := congrArg BitVec.toNat (hsame ps (.inl rfl))
  obtain ⟨htree, htables, hpte⟩ := h.tree.congr fun b hb => hsame b (.inr hb)
  refine ⟨⟨hload ▸ htree, h.frame, ?_⟩, hload, fun a => ?_, hload ▸ hpte⟩
  · rw [hload, htables]
    exact h.own
  · unfold InStructure
    rw [hload, htables]

theorem PageTables.isFrame (h : PageTables m ps) {a : Nat} (ha : InStructure m ps a) :
    IsFrame a := by
  rcases ha with rfl | ha
  · exact h.frame
  · exact h.tree.frame a ha

def NoSharedFrame (m : Mem) (src ps : Nat) : Prop := ∀ a, InStructure m src a → ¬ InStructure m ps a

/-- A word of one structure is not in a table of frames that the other does not own. -/
theorem PageTables.word_notMem {t : Nat → Prop} {b : Nat} (h : PageTables m ps)
    (hframe : ∀ a, t a → IsFrame a) (hout : ∀ a, t a → ¬ InStructure m ps a)
    (hb : StructureWord m ps b) : ¬ ∃ a, t a ∧ a ≤ b ∧ b < a + pageSize := by
  rintro ⟨a, ha, hle, hlt⟩
  obtain ⟨c, hc, hle', hlt'⟩ : ∃ c, InStructure m ps c ∧ c ≤ b ∧ b < c + pageSize := by
    rcases hb with rfl | ⟨c, hc, h1, h2⟩
    · exact ⟨b, .inl rfl, Nat.le_refl b, Nat.lt_add_of_pos_right (by decide)⟩
    · exact ⟨c, .inr hc, h1, h2⟩
  have ha' := (hframe a ha).1
  have hc' := (h.isFrame hc).1
  simp only [pageSize] at ha' hc' hlt hlt'
  obtain rfl : a = c := by omega
  exact hout a ha hc

end

/-! ## One entry -/

/-- The entry that the copy writes for the entry `entry` of the source. -/
def copiedEntry (newFlags entry : Nat) : Nat :=
  if newFlags = 0 then entry else (entry &&& frameMask) ||| newFlags

/-- The frames that `alloc_frame` returns are in neither structure. -/
def FreshFrames (k : Kernel) (src ps : Nat) : Prop :=
  ∀ n, Supplies k.sh.halArchInitialized
    (fun a => InStructure k.sh.pmem src a ∨ InStructure k.sh.pmem ps a) n k.sh.frames

section

variable {k k' : Kernel} {src ps v newFlags : Nat} {u : Unit}

theorem copiedEntry_lt {entry : Nat} (hentry : entry < 2 ^ 64) (hflags : newFlags < 2 ^ 16) :
    copiedEntry newFlags entry < 2 ^ 64 := by
  unfold copiedEntry
  split
  · exact hentry
  · refine Nat.or_lt_two_pow (Nat.and_lt_two_pow _ (by decide)) (by omega)

/-- Two structures before and after the path of `v` was followed in the first one. -/
structure Follows (src ps v entry : Nat) (k k' : Kernel) : Prop where
  tables : PageTables k'.sh.pmem src
  other : PageTables k'.sh.pmem ps
  apart : NoSharedFrame k'.sh.pmem src ps
  fresh : FreshFrames k' src ps
  root : load k'.sh.pmem src = load k.sh.pmem src
  kept : ∀ b, StructureWord k.sh.pmem ps b → k'.sh.pmem b = k.sh.pmem b
  pte : ∀ w, pte k'.sh.pmem (load k'.sh.pmem src) w = pte k.sh.pmem (load k.sh.pmem src) w
  entry : ∃ t, entry = entryAddr t (indexOf v 12) ∧
    walk nextTable (entries k'.sh.pmem) (load k'.sh.pmem src) (tablePath v) = some t

theorem PageTables.follow {entry : Nat} (hs : PageTables k.sh.pmem src)
    (hp : PageTables k.sh.pmem ps) (hsep : NoSharedFrame k.sh.pmem src ps)
    (hfresh : FreshFrames k src ps)
    (hrun : (unsyncGetPageTableEntry (load k.sh.pmem src) v).run k = .ok entry k') :
    Follows src ps v entry k k' := by
  have hhal := (PagingEffect.of_run hrun).hal
  obtain ⟨t, new, rfl, hgrow, htakes, hwalk, hgood, -⟩ := run_unsyncGetPageTableEntry_ok hs.tree
    (fun b hb => Or.inl (Or.inr hb)) (hfresh _) hrun
  -- the tables of `src` now: those it had and frames of neither structure
  have htables : ∀ a, IsTableOf k'.sh.pmem (load k.sh.pmem src) a →
      InStructure k.sh.pmem src a ∨ a ∈ new := fun a ha =>
    ((hgrow.tables a).1 ha).imp_left .inr
  have hown : ¬ IsTableOf k'.sh.pmem (load k.sh.pmem src) src := by
    intro ht
    rcases (hgrow.tables src).1 ht with ht | ht
    · exact hs.own ht
    · exact (hgood src ht).2 (.inl (.inl rfl))
  have hload := hgrow.tree.load_eq hgrow.off hs.frame hown
  have hout : ∀ a, IsTableOf k'.sh.pmem (load k.sh.pmem src) a → ¬ InStructure k.sh.pmem ps a := by
    intro a ha hin
    rcases htables a ha with ha | ha
    · exact hsep a ha hin
    · exact (hgood a ha).2 (.inr hin)
  have hkeep : ∀ b, StructureWord k.sh.pmem ps b → k'.sh.pmem b = k.sh.pmem b := fun b hb =>
    hgrow.off b (hp.word_notMem hgrow.tree.frame hout hb)
  obtain ⟨hp', -, hstruct, -⟩ := hp.congr hkeep
  refine ⟨⟨hload ▸ hgrow.tree, hs.frame, hload ▸ hown⟩, hp', ?_, ?_, hload, hkeep, ?_, t, rfl,
    hload ▸ hwalk⟩
  · intro a ha hin
    rw [hstruct] at hin
    rcases ha with rfl | ha
    · exact hsep a (.inl rfl) hin
    · exact hout a (hload ▸ ha) hin
  · intro n
    rw [hhal]
    refine ((hfresh (new.length + n)).takes htakes).mono (Nat.le_refl n) ?_
    rintro a (ha | ha)
    · rcases ha with rfl | ha
      · exact .inl (.inl (.inl rfl))
      · exact (htables a (hload ▸ ha)).imp_left .inl
    · exact .inl (.inr ((hstruct a).1 ha))
  · intro w
    rw [hload]
    exact hgrow.pte w

theorem NoSharedFrame.symm {m : Mem} (h : NoSharedFrame m src ps) : NoSharedFrame m ps src :=
  fun a ha hs => h a hs ha

theorem FreshFrames.symm (h : FreshFrames k src ps) : FreshFrames k ps src := fun n =>
  (h n).mono (Nat.le_refl n) fun _ ha => ha.symm

/-- The entry of a page of `ps` is set; `src` is as it was. -/
structure SetsEntry (src ps v value : Nat) (k k' : Kernel) : Prop where
  tables : PageTables k'.sh.pmem ps
  other : PageTables k'.sh.pmem src
  apart : NoSharedFrame k'.sh.pmem src ps
  fresh : FreshFrames k' src ps
  pte_other : ∀ w, pte k'.sh.pmem (load k'.sh.pmem src) w = pte k.sh.pmem (load k.sh.pmem src) w
  pte : ∀ w, pte k'.sh.pmem (load k'.sh.pmem ps) w =
    if SamePage v w then value else pte k.sh.pmem (load k.sh.pmem ps) w

theorem Follows.writePte {entry value : Nat} {k₁ : Kernel} (h : Follows ps src v entry k k₁)
    (hvalue : value < 2 ^ 64)
    (hrun : (writePte (load k.sh.pmem ps) v entry value).run k₁ = .ok u k') :
    SetsEntry src ps v value k₁ k' := by
  have hhal := (PagingEffect.of_run hrun).hal
  obtain ⟨hpmem, hframes⟩ := run_writePte hrun
  obtain ⟨t, rfl, hwalk⟩ := h.entry
  have hset := setsPte_store h.tables.tree hwalk hvalue
  rw [← hpmem] at hset
  have htables : ∀ a, IsTableOf k'.sh.pmem (load k₁.sh.pmem ps) a →
      IsTableOf k₁.sh.pmem (load k₁.sh.pmem ps) a := fun a ha =>
    ((hset.tables a).1 ha).resolve_right List.not_mem_nil
  have hown : ¬ IsTableOf k'.sh.pmem (load k₁.sh.pmem ps) ps := fun ht =>
    h.tables.own (htables ps ht)
  have hload := hset.tree.load_eq hset.off h.tables.frame hown
  obtain ⟨hs', -, hstruct, hpte⟩ := h.other.congr fun b hb => hset.off b
    (h.other.word_notMem hset.tree.frame (fun a ha => h.apart a (.inr (htables a ha))) hb)
  have hin : ∀ a, InStructure k'.sh.pmem ps a → InStructure k₁.sh.pmem ps a := by
    rintro a (rfl | ha)
    · exact .inl rfl
    · exact .inr (htables a (hload ▸ ha))
  refine ⟨⟨hload ▸ hset.tree, h.tables.frame, hload ▸ hown⟩, hs', fun a ha hp => ?_, fun n => ?_,
    hpte, fun w => ?_⟩
  · exact h.apart a (hin a hp) ((hstruct a).1 ha)
  · rw [hhal, hframes]
    exact (h.fresh n).mono (Nat.le_refl n) fun a ha =>
      (ha.imp (hstruct a).1 (hin a)).symm
  · rw [hload]
    exact hset.pte w

theorem PageTables.copyEntry (hs : PageTables k.sh.pmem src) (hp : PageTables k.sh.pmem ps)
    (hsep : NoSharedFrame k.sh.pmem src ps) (hfresh : FreshFrames k src ps)
    (hflags : newFlags < 2 ^ 16) (hrun : (copyPagingEntry src ps v newFlags).run k = .ok u k') :
    SetsEntry src ps v (copiedEntry newFlags (pte k.sh.pmem (load k.sh.pmem src) v)) k k' := by
  unfold copyPagingEntry readPmem at hrun
  rw [run_gets_bind] at hrun
  obtain ⟨srcEntry, k₁, hget₁, hrun⟩ := run_bind_ok.1 hrun
  rw [run_gets_bind] at hrun
  obtain ⟨dstEntry, k₂, hget₂, hrun⟩ := run_bind_ok.1 hrun
  rw [run_gets_bind] at hrun
  have h₁ := hs.follow hp hsep hfresh hget₁
  have h₂ := h₁.other.follow h₁.tables h₁.apart.symm h₁.fresh.symm hget₂
  obtain ⟨-, -, -, hptep₁⟩ := hp.congr h₁.kept
  obtain ⟨-, -, -, hptes₂⟩ := h₁.tables.congr h₂.kept
  -- the entry of the source is read after both paths have been followed
  have hvalue : load k₂.sh.pmem srcEntry = pte k.sh.pmem (load k.sh.pmem src) v := by
    obtain ⟨t, rfl, hwalk⟩ := h₁.entry
    have htable := isTableOf_walk (show (tablePath v).length ≤ 3 from Nat.le_refl 3) hwalk
    have hword : load k₂.sh.pmem (entryAddr t (indexOf v 12)) =
        load k₁.sh.pmem (entryAddr t (indexOf v 12)) :=
      congrArg BitVec.toNat (h₂.kept _ (.inr (inTables_entryAddr (h₁.tables.tree.frame t htable) htable)))
    rw [hword, ← pte_of_walk hwalk, h₁.pte]
  rw [hvalue] at hrun
  have hset := h₂.writePte (copiedEntry_lt (hvalue ▸ load_lt _ _) hflags) hrun
  refine ⟨hset.tables, hset.other, hset.apart, hset.fresh, fun w => ?_, fun w => ?_⟩
  · rw [hset.pte_other, hptes₂, h₁.pte]
  · rw [hset.pte, h₂.pte, hptep₁]

end

end GarbageOS
