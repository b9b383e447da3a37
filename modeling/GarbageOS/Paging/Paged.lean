import GarbageOS.Paging.ReadBack
import GarbageOS.Paging.Store

/-!
# A paging structure and the frame allocator

`Paged` says that no frame of a paging structure is free. Every operation keeps this, and
what else it does is told by the entries it sets and by the frames that were given out
before: those that it does not give back are still given out, and none of them became a
table.
-/

namespace GarbageOS

open Lib

def entryAt (m : Mem) (ps v : Nat) : Nat := pte m (load m ps) v

/-- The page that the round `i` of a loop from `a` on works on. -/
abbrev nthPage (a i : Nat) : Nat := add64 a (i * pageSize)

def frameOf (entry : Nat) : Nat := entry &&& frameMask

structure Paged (k : Kernel) (ps : Nat) (owned all : List Nat) : Prop where
  tables : PageTables k.sh.pmem ps
  store : FrameStore k.sh.frames owned all
  own : ∀ a, InStructure k.sh.pmem ps a → ¬ FreeFrame k.sh.frames a

/-- What happened to the frames that were given out, but for those given back. -/
structure FramesKept (freed : List Nat) (ps : Nat) (k k' : Kernel) (owned owned' : List Nat) :
    Prop where
  stay : ∀ a ∈ owned, a ∉ freed → a ∈ owned'
  tables : ∀ a ∈ owned, a ∉ freed → InStructure k'.sh.pmem ps a → InStructure k.sh.pmem ps a

/-- The entry of the page of `v` is set and the frames `freed` are given back. -/
structure SetsPage (freed : List Nat) (ps v value : Nat) (k k' : Kernel)
    (owned owned' all : List Nat) : Prop where
  paged : Paged k' ps owned' all
  frames : FramesKept freed ps k k' owned owned'
  entry : ∀ w, entryAt k'.sh.pmem ps w = if SamePage v w then value else entryAt k.sh.pmem ps w

theorem entryAt_congr {m : Mem} {ps v w : Nat} (h : SamePage v w) : entryAt m ps v = entryAt m ps w := by
  obtain ⟨hpath, hindex⟩ := samePage_iff.2 h
  unfold entryAt pte
  rw [hpath, hindex]

section

variable {k k' : Kernel} {ps v value : Nat} {owned owned' all freed : List Nat} {u : Unit}

theorem Paged.congr (h : Paged k ps owned all) (hpmem : k'.sh.pmem = k.sh.pmem)
    (hframes : k'.sh.frames = k.sh.frames) : Paged k' ps owned all :=
  ⟨hpmem ▸ h.tables, hframes ▸ h.store, by rw [hpmem, hframes]; exact h.own⟩

theorem FramesKept.refl (ps : Nat) (k : Kernel) (owned : List Nat) :
    FramesKept [] ps k k owned owned :=
  ⟨fun _ ha _ => ha, fun _ _ _ ht => ht⟩

theorem FramesKept.trans {freed' owned'' : List Nat} {k'' : Kernel}
    (h : FramesKept freed ps k k' owned owned') (h' : FramesKept freed' ps k' k'' owned' owned'') :
    FramesKept (freed ++ freed') ps k k'' owned owned'' where
  stay a ha hf := by
    rw [List.mem_append, not_or] at hf
    exact h'.stay a (h.stay a ha hf.1) hf.2
  tables a ha hf ht := by
    rw [List.mem_append, not_or] at hf
    exact h.tables a ha hf.1 (h'.tables a (h.stay a ha hf.1) hf.2 ht)

section

variable (h : Paged k ps owned all)

include h

theorem Paged.grow {new : List Nat} {hal : Bool} (htables : PageTables k'.sh.pmem ps)
    (hin : ∀ a, InStructure k'.sh.pmem ps a → InStructure k.sh.pmem ps a ∨ a ∈ new)
    (htakes : Takes hal k.sh.frames new k'.sh.frames) (hfree : ∀ a ∈ new, FreeFrame k.sh.frames a) :
    Paged k' ps (new.reverse ++ owned) all ∧
      FramesKept [] ps k k' owned (new.reverse ++ owned) := by
  have hstore := h.store.takes htakes
  refine ⟨⟨htables, hstore, fun a ha => ?_⟩, fun a ha _ => List.mem_append_right _ ha,
    fun a ha _ ht => ?_⟩
  · rw [hstore.free_iff, List.mem_append, List.mem_reverse]
    rcases hin a ha with ha | ha
    · have := h.own a ha
      rw [h.store.free_iff] at this
      tauto
    · tauto
  · refine (hin a ht).resolve_right fun hnew => ?_
    exact h.store.not_free ha (hfree a hnew)

/-- A write to a page with the frames for the missing tables taken from the free ones. -/
theorem Paged.writesPage
    (hw : WritesPage (fun a => ¬ FreeFrame k.sh.frames a) (load k.sh.pmem ps) v value k k') :
    ∃ owned', SetsPage [] ps v value k k' owned owned' all := by
  obtain ⟨new, hset, htakes, hgood, hnd⟩ := hw
  have hfree : ∀ a ∈ new, FreeFrame k.sh.frames a := fun a ha => not_not.1 (hgood a ha).2
  have hw' : WritesPage (InStructure k.sh.pmem ps) (load k.sh.pmem ps) v value k k' :=
    ⟨new, hset, htakes, fun a ha => ⟨(hgood a ha).1, fun hin => h.own a hin (hfree a ha)⟩, hnd⟩
  obtain ⟨htables, hload, hentry⟩ := h.tables.writesPage hw'
  have hin : ∀ a, InStructure k'.sh.pmem ps a → InStructure k.sh.pmem ps a ∨ a ∈ new := by
    rintro a (rfl | ha)
    · exact .inl (.inl rfl)
    · rw [hload] at ha
      exact ((hset.tables a).1 ha).imp_left .inr
  obtain ⟨hpaged, hkept⟩ := h.grow htables hin htakes hfree
  exact ⟨_, hpaged, hkept, hentry⟩

theorem Paged.table_not_free :
    ∀ b, IsTableOf k.sh.pmem (load k.sh.pmem ps) b → ¬ FreeFrame k.sh.frames b :=
  fun b hb => h.own b (.inr hb)

theorem Paged.map {paddr flags : Nat} (hrun : (pagingMap ps v paddr flags).run k = .ok u k') :
    ∃ owned', SetsPage [] ps v (mapEntry paddr flags) k k' owned owned' all :=
  h.writesPage (run_pagingMap_ok h.tables.tree rfl h.table_not_free
    (h.store.supplies fun _ ha => ha) hrun)

theorem Paged.invalidate (hrun : (invalidatePagingMapping ps v).run k = .ok u k') :
    ∃ owned', SetsPage [] ps v (entryAt k.sh.pmem ps v - entryAt k.sh.pmem ps v % 2) k k'
      owned owned' all :=
  h.writesPage (run_invalidatePagingMapping_ok h.tables.tree rfl h.table_not_free
    (h.store.supplies fun _ ha => ha) hrun)

/-! ## Frames of the regions -/

theorem Paged.alloc {x : Nat} (hrun : allocFrame.run k = .ok x k') :
    Paged k' ps (x :: owned) all ∧ FramesKept [] ps k k' owned (x :: owned) ∧ x ∉ owned ∧
      ¬ InStructure k'.sh.pmem ps x ∧ k'.sh.pmem = k.sh.pmem := by
  obtain ⟨htake, hpmem, -⟩ := run_allocFrame_takes hrun
  have hstore := h.store.take htake
  have hfree := h.store.take_free htake
  refine ⟨⟨hpmem ▸ h.tables, hstore, fun a ha => ?_⟩,
    ⟨fun a ha _ => List.mem_cons_of_mem _ ha, fun a _ _ ht => hpmem ▸ ht⟩,
    (h.store.free_iff.1 hfree).2, fun ht => ?_, hpmem⟩
  · rw [hpmem] at ha
    have := h.own a ha
    rw [h.store.free_iff] at this
    rw [hstore.free_iff, List.mem_cons]
    tauto
  · rw [hpmem] at ht
    exact h.own x ht hfree

end

theorem run_deallocFrame_pmem {x : Nat} (hrun : (deallocFrame x).run k = .ok u k') :
    k'.sh.pmem = k.sh.pmem := by
  unfold deallocFrame at hrun
  rw [run_modifyCpu_bind] at hrun
  obtain ⟨-, t, ht, rfl⟩ := run_withLock_ok.1 hrun
  obtain ⟨f, -, rfl⟩ := run_onFrames_ok.1 ht
  rfl

theorem Paged.dealloc {x : Nat} (h : Paged k ps owned all) (hx : x ∈ owned)
    (hno : ¬ InStructure k.sh.pmem ps x) (hrun : (deallocFrame x).run k = .ok u k') :
    Paged k' ps (owned.erase x) all ∧ FramesKept [x] ps k k' owned (owned.erase x) := by
  have hpmem := run_deallocFrame_pmem hrun
  have hstore := h.store.put hx (run_deallocFrame_ok hrun)
  refine ⟨⟨hpmem ▸ h.tables, hstore, fun a ha => ?_⟩, fun a ha hne => ?_,
    fun a _ _ ht => hpmem ▸ ht⟩
  · rw [hpmem] at ha
    have hne : a ≠ x := fun e => hno (e ▸ ha)
    have := h.own a ha
    rw [h.store.free_iff] at this
    rw [hstore.free_iff, List.mem_erase_of_ne hne]
    exact this
  · rw [List.mem_singleton] at hne
    exact (List.mem_erase_of_ne hne).2 ha

theorem deallocFrame_returns {x : Nat} (h : FrameStore k.sh.frames owned all) (hx : x ∈ owned)
    (hlock : .frameAllocator ∉ k.cpu.held) : ∃ k', (deallocFrame x).run k = .ok () k' := by
  obtain ⟨f, hf⟩ := h.put_returns hx
  let k₁ : Kernel := { k with cpu := { k.cpu with freed := x :: k.cpu.freed } }
  let k₂ : Kernel := { k₁.locked .frameAllocator with sh := { k.sh with frames := f } }
  refine ⟨k₂.unlocked .frameAllocator k.cpu.interrupts, ?_⟩
  unfold deallocFrame
  rw [run_modifyCpu_bind]
  exact run_withLock_ok.2 ⟨hlock, k₂, run_onFrames_ok.2 ⟨f, hf, rfl⟩, rfl⟩

/-! ## Pages that have their tables -/

theorem walk_of_present {m : Mem} {root : Nat} (h : isEntryPresent (pte m root v) = true) :
    ∃ t, walk nextTable (entries m) root (tablePath v) = some t := by
  cases hw : walk nextTable (entries m) root (tablePath v) with
  | none =>
    rw [pte, leaf, hw, Option.map_none, Option.getD_none] at h
    exact absurd h (by decide)
  | some t => exact ⟨t, rfl⟩

theorem followTables_present {t t' : Nat} {p : List (Fin 512)}
    (h : walk nextTable (entries k.sh.pmem) t p = some t') :
    (followTables t p).run k = .ok t' k := by
  induction p generalizing t with
  | nil =>
    cases h
    rfl
  | cons i p ih =>
    rw [walk] at h
    by_cases hpres : isEntryPresent (entries k.sh.pmem t i) = true
    · rw [nextTable_present hpres, Option.bind_some] at h
      rw [followTables, run_ok_bind (getNextTable_present hpres)]
      exact ih h
    · rw [nextTable_absent hpres] at h
      cases h

theorem invalidate_returns (h : isEntryPresent (entryAt k.sh.pmem ps v) = true) :
    ∃ k', (invalidatePagingMapping ps v).run k = .ok () k' ∧ k'.sh.frames = k.sh.frames ∧
      k'.cpu.held = k.cpu.held := by
  obtain ⟨t, hwalk⟩ := walk_of_present h
  have hget : (unsyncGetPageTableEntry (load k.sh.pmem ps) v).run k =
      .ok (entryAddr t (indexOf v 12)) k := by
    rw [unsyncGetPageTableEntry_eq, run_ok_bind (followTables_present hwalk), EStateM.run_pure]
  unfold invalidatePagingMapping readPmem writePte writePmem
  rw [run_gets_bind, run_ok_bind hget, run_gets_bind, run_modifyShared_bind, run_modifyCpu]
  exact ⟨_, rfl, rfl, rfl⟩

/-! ## Copying an entry -/

section

variable {src : Nat} (h : Paged k src owned all) (hother : Paged k ps owned all)
  (hsep : NoSharedFrame k.sh.pmem src ps)

include h hother hsep

/-- Work on the tables of one structure leaves another one alone. -/
theorem Paged.beside {new : List Nat} {hal : Bool}
    (htree : TableTree k'.sh.pmem (load k.sh.pmem ps))
    (hoff : AgreeOff (InTables k'.sh.pmem (load k.sh.pmem ps)) k.sh.pmem k'.sh.pmem)
    (htables : ∀ a, IsTableOf k'.sh.pmem (load k.sh.pmem ps) a ↔
      IsTableOf k.sh.pmem (load k.sh.pmem ps) a ∨ a ∈ new)
    (htakes : Takes hal k.sh.frames new k'.sh.frames) (hfree : ∀ a ∈ new, FreeFrame k.sh.frames a) :
    Paged k' src (new.reverse ++ owned) all ∧ Paged k' ps (new.reverse ++ owned) all ∧
      NoSharedFrame k'.sh.pmem src ps ∧ FramesKept [] ps k k' owned (new.reverse ++ owned) ∧
      load k'.sh.pmem ps = load k.sh.pmem ps ∧
      (∀ b, StructureWord k.sh.pmem src b → k'.sh.pmem b = k.sh.pmem b) := by
  have hown : ¬ IsTableOf k'.sh.pmem (load k.sh.pmem ps) ps := by
    intro ht
    rcases (htables ps).1 ht with ht | ht
    · exact hother.tables.own ht
    · exact hother.own ps (.inl rfl) (hfree ps ht)
  have hload := htree.load_eq hoff hother.tables.frame hown
  have hout : ∀ a, IsTableOf k'.sh.pmem (load k.sh.pmem ps) a → ¬ InStructure k.sh.pmem src a := by
    intro a ha hin
    rcases (htables a).1 ha with ha | ha
    · exact hsep a hin (.inr ha)
    · exact h.own a hin (hfree a ha)
  have hkeep : ∀ b, StructureWord k.sh.pmem src b → k'.sh.pmem b = k.sh.pmem b := fun b hb =>
    hoff b (h.tables.word_notMem htree.frame hout hb)
  obtain ⟨hsrc', -, hstruct, -⟩ := h.tables.congr hkeep
  have hin : ∀ a, InStructure k'.sh.pmem ps a → InStructure k.sh.pmem ps a ∨ a ∈ new := by
    rintro a (rfl | ha)
    · exact .inl (.inl rfl)
    · rw [hload] at ha
      exact ((htables a).1 ha).imp_left .inr
  obtain ⟨hpaged, hkept⟩ := hother.grow ⟨hload ▸ htree, hother.tables.frame, hload ▸ hown⟩ hin
    htakes hfree
  refine ⟨(h.grow hsrc' (fun a ha => .inl ((hstruct a).1 ha)) htakes hfree).1, hpaged, ?_, hkept,
    hload, hkeep⟩
  intro a ha hps
  rw [hstruct] at ha
  rcases hin a hps with hps | hnew
  · exact hsep a ha hps
  · exact h.own a ha (hfree a hnew)

/-- Two structures that share no frame, before and after the path of a page was followed in one. -/
theorem Paged.follow {entry : Nat}
    (hrun : (unsyncGetPageTableEntry (load k.sh.pmem ps) v).run k = .ok entry k') :
    ∃ owned' t, Paged k' src owned' all ∧ Paged k' ps owned' all ∧
      NoSharedFrame k'.sh.pmem src ps ∧ FramesKept [] ps k k' owned owned' ∧
      load k'.sh.pmem ps = load k.sh.pmem ps ∧
      (∀ b, StructureWord k.sh.pmem src b → k'.sh.pmem b = k.sh.pmem b) ∧
      (∀ w, entryAt k'.sh.pmem ps w = entryAt k.sh.pmem ps w) ∧
      entry = entryAddr t (indexOf v 12) ∧
      walk nextTable (entries k'.sh.pmem) (load k.sh.pmem ps) (tablePath v) = some t := by
  obtain ⟨t, new, hentry, hgrow, htakes, hwalk, hgood, -⟩ := run_unsyncGetPageTableEntry_ok
    hother.tables.tree hother.table_not_free (hother.store.supplies fun _ ha => ha) hrun
  obtain ⟨h1, h2, h3, h4, hload, h6⟩ := h.beside hother hsep hgrow.tree hgrow.off hgrow.tables htakes
    fun a ha => not_not.1 (hgood a ha).2
  refine ⟨_, t, h1, h2, h3, h4, hload, h6, fun w => ?_, hentry, hwalk⟩
  unfold entryAt
  rw [hload]
  exact hgrow.pte w

/-- A copied entry sets one page of the destination and none of the source. -/
theorem Paged.copyEntry {flags : Nat} (hflags : flags < 2 ^ 16)
    (hrun : (copyPagingEntry src ps v flags).run k = .ok u k') :
    ∃ owned', Paged k' src owned' all ∧ NoSharedFrame k'.sh.pmem src ps ∧
      (∀ w, entryAt k'.sh.pmem src w = entryAt k.sh.pmem src w) ∧
      SetsPage [] ps v (copiedEntry flags (entryAt k.sh.pmem src v)) k k' owned owned' all := by
  unfold copyPagingEntry readPmem at hrun
  rw [run_gets_bind] at hrun
  obtain ⟨srcEntry, k₁, hget₁, hrun⟩ := run_bind_ok.1 hrun
  rw [run_gets_bind] at hrun
  obtain ⟨dstEntry, k₂, hget₂, hrun⟩ := run_bind_ok.1 hrun
  rw [run_gets_bind] at hrun
  obtain ⟨owned₁, t, hp₁, hs₁, hsep₁, hkept₁, hload₁, hwords₁, hsame₁, rfl, hwalk₁⟩ :=
    hother.follow h hsep.symm hget₁
  obtain ⟨-, -, hin₁, hps₁⟩ := hother.tables.congr hwords₁
  obtain ⟨owned₂, t', hs₂, hp₂, hsep₂, hkept₂, hload₂, hwords₂, hsame₂, rfl, hwalk₂⟩ :=
    hs₁.follow hp₁ hsep₁.symm hget₂
  obtain ⟨-, -, -, hsrc₂⟩ := hs₁.tables.congr hwords₂
  -- the entry of the source is read after both paths have been followed
  have hvalue : load k₂.sh.pmem (entryAddr t (indexOf v 12)) = entryAt k.sh.pmem src v := by
    rw [← hload₁] at hwalk₁
    have htable := isTableOf_walk (show (tablePath v).length ≤ 3 from Nat.le_refl 3) hwalk₁
    have hword : load k₂.sh.pmem (entryAddr t (indexOf v 12)) =
        load k₁.sh.pmem (entryAddr t (indexOf v 12)) :=
      congrArg BitVec.toNat (hwords₂ _ (.inr (inTables_entryAddr (hs₁.tables.tree.frame t htable) htable)))
    rw [hword, ← pte_of_walk hwalk₁]
    exact hsame₁ v
  rw [hvalue] at hrun
  have hlt : copiedEntry flags (entryAt k.sh.pmem src v) < 2 ^ 64 :=
    copiedEntry_lt (hvalue ▸ load_lt _ _) hflags
  obtain ⟨hpmem, hframes⟩ := run_writePte hrun
  rw [← copiedEntry] at hpmem
  rw [← hload₂] at hwalk₂
  have hset := setsPte_store hp₂.tables.tree hwalk₂ hlt
  rw [← hpmem] at hset
  obtain ⟨hs₃, hp₃, hsep₃, hkept₃, hload₃, hwords₃⟩ := hs₂.beside hp₂ hsep₂ hset.tree
    hset.off hset.tables (show Takes true _ [] _ from hframes ▸ .nil)
    fun a ha => (List.not_mem_nil ha).elim
  obtain ⟨-, -, -, hsrc₃⟩ := hs₂.tables.congr hwords₃
  refine ⟨_, hs₃, hsep₃, fun w => ?_, hp₃, ?_, fun w => ?_⟩
  · exact (hsrc₃ w).trans ((hsrc₂ w).trans (hsame₁ w))
  · have hfirst : FramesKept [] ps k k₁ owned owned₁ :=
      ⟨hkept₁.stay, fun a _ _ ht => (hin₁ a).1 ht⟩
    exact hfirst.trans (hkept₂.trans hkept₃)
  · have hentry : entryAt k'.sh.pmem ps w = pte k'.sh.pmem (load k₂.sh.pmem ps) w := by
      rw [entryAt, hload₃]
    rw [hentry, hset.pte]
    split
    · rfl
    · exact (hsame₂ w).trans (hps₁ w)

end

end

end GarbageOS
