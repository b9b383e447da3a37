import GarbageOS.Paging.Tables

/-!
# What the paging code does to the tree

`unsync_get_page_table_entry` adds the missing tables on the path of an address, and
the operations then write its entry. The frames they take come from `alloc_frame`:
`Takes` lists the frames taken one after the other, and `Supplies` is what is assumed
of the next ones.
-/

namespace GarbageOS

open Lib

/-! ## Frames from the allocator -/

/-- Frames taken from the allocator, the first one first. -/
inductive Takes (hal : Bool) : FrameAllocator → List Nat → FrameAllocator → Prop where
  | nil {f : FrameAllocator} : Takes hal f [] f
  | cons {f g f' : FrameAllocator} {x : Nat} {xs : List Nat} :
      (takeFreeFrame hal).run f = .ok x g → Takes hal g xs f' → Takes hal f (x :: xs) f'

/-- The next `n` frames that `alloc_frame` returns are frames that a table entry can
hold, distinct, and not in use. -/
def Supplies (hal : Bool) : (used : Nat → Prop) → (n : Nat) → FrameAllocator → Prop
  | _, 0, _ => True
  | used, n + 1, f => ∀ x g, (takeFreeFrame hal).run f = .ok x g →
      IsFrame x ∧ ¬ used x ∧ Supplies hal (fun a => used a ∨ a = x) n g

theorem Supplies.mono {hal : Bool} {used used' : Nat → Prop} {n n' : Nat} {f : FrameAllocator}
    (h : Supplies hal used n f) (hn : n' ≤ n) (hused : ∀ a, used' a → used a) :
    Supplies hal used' n' f := by
  induction n' generalizing n used used' f with
  | zero => trivial
  | succ n' ih =>
    obtain ⟨n, rfl⟩ : ∃ l, n = l + 1 := ⟨n - 1, by omega⟩
    intro x g hx
    obtain ⟨hframe, hnot, hrest⟩ := h x g hx
    exact ⟨hframe, fun hu => hnot (hused x hu),
      ih hrest (by omega) fun a ha => ha.imp_left (hused a)⟩

/-- The frame allocator supplies frames as long as its own are addresses of frames. -/
theorem FramesInv.supplies {hal : Bool} {used : Nat → Prop} {n : Nat} {f : FrameAllocator}
    {owned all : List Nat} (h : FramesInv f owned all) (hnd : all.Nodup)
    (hframe : ∀ x ∈ all, IsFrame x) (hused : ∀ a, used a → a ∈ owned) : Supplies hal used n f := by
  induction n generalizing used f owned with
  | zero => trivial
  | succ n ih =>
    intro x g hx
    have hinv := takeFreeFrame_inv h hx
    have hnd' := hinv.perm.nodup_iff.2 hnd
    have hmem : x ∈ all := hinv.perm.mem_iff.1 (by simp)
    have hnot : x ∉ owned := by
      have := (List.nodup_append.1 hnd').2.1
      exact (List.nodup_cons.1 this).1
    refine ⟨hframe x hmem, fun hu => hnot (hused x hu), ih hinv fun a ha => ?_⟩
    rcases ha with ha | rfl
    · exact List.mem_cons_of_mem _ (hused a ha)
    · exact List.mem_cons_self

theorem initFrameAllocator_supplies {ranges : Nat → PhysicalMemoryRange} {n ram : Nat}
    {k k' : Kernel} {u : Unit} (hr : FreeRanges ranges n) (hram : ram < 2 ^ 64)
    (hlow : ∀ i < n, (ranges i).startAddress + (ranges i).size ≤ 2 ^ 48)
    (hrun : (onFrames (initFrameAllocator ranges n ram)).run k = .ok u k') (hal : Bool) (m : Nat) :
    Supplies hal (fun _ => False) m k'.sh.frames := by
  obtain ⟨f, hf, rfl⟩ := run_onFrames_ok.1 hrun
  obtain ⟨i, hs⟩ := initFrameAllocator_started hram hf
  refine (hs.inv hr).supplies (hs.nodup hr) (fun x hx => ?_) fun _ h => h.elim
  obtain ⟨j, hj, hx⟩ := mem_rangeFrames.1 ((hs.mem_rangeFrames hr).1 hx).1
  obtain ⟨l, hl, rfl⟩ := mem_framesOf.1 hx
  have halign := (hr.aligned j hj).1
  have hbelow := hlow j hj
  unfold IsFrame
  simp only [pageSize] at hl halign ⊢
  omega

theorem run_allocFrame_takes {k k' : Kernel} {x : Nat} (h : allocFrame.run k = .ok x k') :
    (takeFreeFrame k.sh.halArchInitialized).run k.sh.frames = .ok x k'.sh.frames ∧
      k'.sh.pmem = k.sh.pmem ∧ k'.sh.halArchInitialized = k.sh.halArchInitialized := by
  refine ⟨run_allocFrame_ok h, ?_, ?_⟩
  · unfold allocFrame at h
    obtain ⟨y, t, hy, hcheck⟩ := run_bind_ok.1 h
    obtain ⟨-, hpure⟩ := run_check_bind.1 hcheck
    rw [EStateM.run_pure] at hpure
    cases hpure
    obtain ⟨-, t', ht, rfl⟩ := run_withLock_ok.1 hy
    rw [run_get_bind] at ht
    obtain ⟨f, -, rfl⟩ := run_onFrames_ok.1 ht
    rfl
  · rw [(PagingEffect.of_run h).eq]

theorem PagingEffect.hal {k k' : Kernel} (h : PagingEffect k k') :
    k'.sh.halArchInitialized = k.sh.halArchInitialized := by
  rw [h.eq]

/-! ## The tables on a path -/

/-- How many tables are missing on a path from table `t`. -/
def missingTables (m : Mem) : (t : Nat) → List (Fin 512) → Nat
  | _, [] => 0
  | t, i :: p =>
    match nextTable (entries m t i) with
    | some t' => missingTables m t' p
    | none => p.length + 1

theorem missingTables_le (m : Mem) (t : Nat) (p : List (Fin 512)) :
    missingTables m t p ≤ p.length := by
  induction p generalizing t with
  | nil => exact Nat.le_refl 0
  | cons i p ih =>
    unfold missingTables
    split
    · exact Nat.le_succ_of_le (ih _)
    · exact Nat.le_refl _

/-- The tables on a path, allocated where they are missing. -/
def followTables : Nat → List (Fin 512) → KM Nat
  | t, [] => return t
  | t, i :: p => do followTables (← getNextTable (entryAddr t i)) p

theorem unsyncGetPageTableEntry_eq (root vaddr : Nat) :
    unsyncGetPageTableEntry root vaddr = (do
      return entryAddr (← followTables root (tablePath vaddr)) (indexOf vaddr 12)) := by
  unfold unsyncGetPageTableEntry tablePath
  simp only [followTables, bind_assoc, pure_bind]
  rfl

section

variable {k k' : Kernel} {root t a : Nat} {p : List (Fin 512)} {i : Fin 512}

theorem getNextTable_present (h : isEntryPresent (entries k.sh.pmem t i) = true) :
    (getNextTable (entryAddr t i)).run k = .ok (entries k.sh.pmem t i &&& frameMask) k := by
  unfold getNextTable readPmem
  rw [run_gets_bind, onlyIf_neg (by
    show ¬ isEntryPresent (entries k.sh.pmem t i) = false
    rw [h]; decide), pure_bind, run_gets_bind, EStateM.run_pure]
  rfl

theorem run_getNextTable_absent (h : ¬ isEntryPresent (entries k.sh.pmem t i) = true)
    (hrun : (getNextTable (entryAddr t i)).run k = .ok a k') :
    (allocateTable (entryAddr t i)).run k = .ok () k' ∧
      a = load k'.sh.pmem (entryAddr t i) &&& frameMask := by
  unfold getNextTable readPmem at hrun
  rw [run_gets_bind, onlyIf_pos (by
    show isEntryPresent (entries k.sh.pmem t i) = false
    simpa using h)] at hrun
  obtain ⟨_, k₁, halloc, hrun⟩ := run_bind_ok.1 hrun
  rw [run_gets_bind, EStateM.run_pure] at hrun
  cases hrun
  exact ⟨halloc, rfl⟩

theorem isFrame_and_frameMask {x : Nat} (h : IsFrame x) : x &&& frameMask = x := by
  have hmod := h.1
  have hlt := h.2
  simp only [pageSize] at hmod
  rw [frameMask, show 0x0000fffffffff000 = (2 ^ 36 - 1) * 2 ^ 12 from rfl, and_mask]
  omega

variable {used : Nat → Prop}

theorem run_allocateTable_ok {n : Nat} {u : Unit} (h : TableTree k.sh.pmem root)
    (hlen : p.length < 3) (ht : walk nextTable (entries k.sh.pmem) root p = some t)
    (habsent : nextTable (entries k.sh.pmem t i) = none)
    (hused : ∀ b, IsTableOf k.sh.pmem root b → used b)
    (hsup : Supplies k.sh.halArchInitialized used (n + 1) k.sh.frames)
    (hrun : (allocateTable (entryAddr t i)).run k = .ok u k') :
    ∃ x, (takeFreeFrame k.sh.halArchInitialized).run k.sh.frames = .ok x k'.sh.frames ∧
      (IsFrame x ∧ ¬ used x) ∧ k'.sh.pmem = linkTable k.sh.pmem (entryAddr t i) x ∧
      Grows k.sh.pmem k'.sh.pmem root [x] ∧
      walk nextTable (entries k'.sh.pmem) root (p ++ [i]) = some x ∧
      (∀ b, IsTableOf k'.sh.pmem root b → used b ∨ b = x) ∧
      Supplies k'.sh.halArchInitialized (fun a => used a ∨ a = x) n k'.sh.frames := by
  have hhal := (PagingEffect.of_run hrun).hal
  unfold allocateTable writePmem at hrun
  obtain ⟨x, k₁, hx, hrun⟩ := run_bind_ok.1 hrun
  obtain ⟨htake, hpmem, -⟩ := run_allocFrame_takes hx
  obtain ⟨hframe, hnot, hsup'⟩ := hsup x _ htake
  have hstate : k'.sh.pmem = linkTable k.sh.pmem (entryAddr t i) x ∧
      k'.sh.frames = k₁.sh.frames := by
    rw [run_modifyShared_bind, run_modifyShared, isFrame_and_frameMask hframe] at hrun
    cases hrun
    exact ⟨by rw [linkTable, ← hpmem], rfl⟩
  obtain ⟨hgrow, hwalk⟩ :=
    grows_linkTable h hlen ht habsent hframe fun hx => hnot (hused x hx)
  rw [← hstate.1] at hgrow hwalk
  rw [hstate.2, hhal]
  refine ⟨x, htake, ⟨hframe, hnot⟩, hstate.1, hgrow, hwalk, fun b hb => ?_, hsup'⟩
  rcases (hgrow.tables b).1 hb with hb | hb
  · exact .inl (hused b hb)
  · exact .inr (List.mem_singleton.1 hb)

theorem run_followTables_ok {r : List (Fin 512)} (h : TableTree k.sh.pmem root)
    (hlen : p.length + r.length ≤ 3) (ht : walk nextTable (entries k.sh.pmem) root p = some t)
    (hused : ∀ b, IsTableOf k.sh.pmem root b → used b)
    (hsup : Supplies k.sh.halArchInitialized used (missingTables k.sh.pmem t r) k.sh.frames)
    (hrun : (followTables t r).run k = .ok a k') :
    ∃ new, Grows k.sh.pmem k'.sh.pmem root new ∧
      Takes k.sh.halArchInitialized k.sh.frames new k'.sh.frames ∧
      walk nextTable (entries k'.sh.pmem) root (p ++ r) = some a ∧
      (∀ x ∈ new, IsFrame x ∧ ¬ used x) ∧ new.Nodup := by
  induction r generalizing p t k used with
  | nil =>
    rw [followTables, EStateM.run_pure] at hrun
    cases hrun
    refine ⟨[], .refl h, .nil, by rwa [List.append_nil], ?_, List.nodup_nil⟩
    exact fun x hx => absurd hx List.not_mem_nil
  | cons i r ih =>
    rw [List.length_cons] at hlen
    obtain ⟨t', k₁, hnext, hrest⟩ := run_bind_ok.1 hrun
    by_cases hpres : isEntryPresent (entries k.sh.pmem t i) = true
    · rw [getNextTable_present hpres] at hnext
      cases hnext
      have hstep := nextTable_present hpres
      have hwalk : walk nextTable (entries k.sh.pmem) root (p ++ [i]) =
          some (entries k.sh.pmem t i &&& frameMask) := by
        rw [walk_concat, ht]
        exact hstep
      have hmiss : missingTables k.sh.pmem t (i :: r) =
          missingTables k.sh.pmem (entries k.sh.pmem t i &&& frameMask) r := by
        rw [missingTables, hstep]
      rw [hmiss] at hsup
      have := ih h (by simp; omega) hwalk hused hsup hrest
      rwa [List.append_assoc] at this
    · obtain ⟨halloc, ht'⟩ := run_getNextTable_absent hpres hnext
      have habsent := nextTable_absent hpres
      have hmiss : missingTables k.sh.pmem t (i :: r) = r.length + 1 := by
        rw [missingTables, habsent]
      rw [hmiss] at hsup
      obtain ⟨x, htake, hx, hpmem, hgrow, hwalk, hused', hsup'⟩ :=
        run_allocateTable_ok h (by omega) ht habsent hused hsup halloc
      have hnew : t' = x := by
        obtain ⟨hlink, hword⟩ := nextTable_link hx.1
        have hpresent : isEntryPresent (x ||| pagePresent ||| pageWritable) = true := by
          by_contra hcon
          rw [nextTable_absent hcon] at hlink
          cases hlink
        rw [nextTable_present hpresent] at hlink
        rw [ht', hpmem, linkTable, load_store_same hword]
        exact Option.some.inj hlink
      obtain ⟨new, hgrow', htakes, hwalk', hgood, hnd⟩ := ih hgrow.tree (by simp; omega)
        (hnew ▸ hwalk) hused' (hsup'.mono (missingTables_le _ _ _) fun _ ha => ha) hrest
      rw [(PagingEffect.of_run hnext).hal] at htakes
      refine ⟨[x] ++ new, hgrow.trans hgrow', .cons htake htakes, ?_, ?_, ?_⟩
      · rwa [List.append_assoc] at hwalk'
      · intro y hy
        rcases List.mem_append.1 hy with hy | hy
        · rw [List.mem_singleton.1 hy]; exact hx
        · exact ⟨(hgood y hy).1, fun hu => (hgood y hy).2 (.inl hu)⟩
      · refine List.nodup_cons.2 ⟨fun hmem => ?_, hnd⟩
        exact (hgood x hmem).2 (.inr rfl)

/-! ## Writing an entry -/

/-- The entry of the page of `v` under `root` is set to `value`; the frames of the tables
that were missing are taken from the allocator. -/
def WritesPage (used : Nat → Prop) (root v value : Nat) (k k' : Kernel) : Prop :=
  ∃ new, SetsPte k.sh.pmem k'.sh.pmem root v value new ∧
    Takes k.sh.halArchInitialized k.sh.frames new k'.sh.frames ∧
    (∀ x ∈ new, IsFrame x ∧ ¬ used x) ∧ new.Nodup

/-- What `alloc_frame` has to supply for a write to the page of `v`. -/
def SuppliesPath (used : Nat → Prop) (root v : Nat) (k : Kernel) : Prop :=
  Supplies k.sh.halArchInitialized used (missingTables k.sh.pmem root (tablePath v)) k.sh.frames

theorem pte_of_walk {m : Mem} {v : Nat} (h : walk nextTable (entries m) root (tablePath v) = some t) :
    pte m root v = load m (entryAddr t (indexOf v 12)) := by
  rw [pte, leaf, h]
  rfl

theorem run_writePte {v entry value : Nat} {u : Unit}
    (h : (writePte root v entry value).run k = .ok u k') :
    k'.sh.pmem = store k.sh.pmem entry value ∧ k'.sh.frames = k.sh.frames := by
  unfold writePte writePmem at h
  rw [run_modifyShared_bind, run_modifyCpu] at h
  cases h
  exact ⟨rfl, rfl⟩

variable {v : Nat}

/-- The code between reading the PML4 and writing the entry. -/
theorem run_unsyncGetPageTableEntry_ok {entry : Nat} (h : TableTree k.sh.pmem root)
    (hused : ∀ b, IsTableOf k.sh.pmem root b → used b) (hsup : SuppliesPath used root v k)
    (hrun : (unsyncGetPageTableEntry root v).run k = .ok entry k') :
    ∃ t new, entry = entryAddr t (indexOf v 12) ∧ Grows k.sh.pmem k'.sh.pmem root new ∧
      Takes k.sh.halArchInitialized k.sh.frames new k'.sh.frames ∧
      walk nextTable (entries k'.sh.pmem) root (tablePath v) = some t ∧
      (∀ x ∈ new, IsFrame x ∧ ¬ used x) ∧ new.Nodup := by
  rw [unsyncGetPageTableEntry_eq] at hrun
  obtain ⟨t, k₁, hfollow, hrun⟩ := run_bind_ok.1 hrun
  rw [EStateM.run_pure] at hrun
  cases hrun
  obtain ⟨new, hgrow, htakes, hwalk, hgood, hnd⟩ :=
    run_followTables_ok (p := []) (r := tablePath v) h (Nat.le_refl 3) rfl hused hsup hfollow
  exact ⟨t, new, rfl, hgrow, htakes, hwalk, hgood, hnd⟩

theorem writesPage_of_write {k₁ : Kernel} {entry value : Nat} {u : Unit} (h : TableTree k.sh.pmem root)
    (hused : ∀ b, IsTableOf k.sh.pmem root b → used b) (hsup : SuppliesPath used root v k)
    (hget : (unsyncGetPageTableEntry root v).run k = .ok entry k₁) (hvalue : value < 2 ^ 64)
    (hwrite : (writePte root v entry value).run k₁ = .ok u k') :
    WritesPage used root v value k k' := by
  obtain ⟨t, new, rfl, hgrow, htakes, hwalk, hgood, hnd⟩ :=
    run_unsyncGetPageTableEntry_ok h hused hsup hget
  obtain ⟨hpmem, hframes⟩ := run_writePte hwrite
  refine ⟨new, hgrow.setsPte ?_, hframes ▸ htakes, hgood, hnd⟩
  rw [hpmem]
  exact setsPte_store hgrow.tree hwalk hvalue

def mapEntry (paddr flags : Nat) : Nat :=
  (paddr &&& frameMask) ||| ((flags ||| pagePresent) &&& 0xfff)

theorem mapEntry_eq (paddr flags : Nat) : mapEntry paddr flags =
    paddr / 2 ^ 12 % 2 ^ 36 * 2 ^ 12 + (flags ||| pagePresent) % 2 ^ 12 := by
  unfold mapEntry
  rw [frameMask, show 0x0000fffffffff000 = (2 ^ 36 - 1) * 2 ^ 12 from rfl, and_mask,
    show 0xfff = 2 ^ 12 - 1 from rfl, Nat.and_two_pow_sub_one_eq_mod]
  exact or_eq_add (k := 12) (Nat.mul_mod_left _ _) (Nat.mod_lt _ (by decide))

theorem mapEntry_lt (paddr flags : Nat) : mapEntry paddr flags < 2 ^ 64 := by
  rw [mapEntry_eq]
  omega

section

variable {ps : Nat} (h : TableTree k.sh.pmem root) (hroot : load k.sh.pmem ps = root)
  (hused : ∀ b, IsTableOf k.sh.pmem root b → used b) (hsup : SuppliesPath used root v k)

include h hroot hused hsup

theorem run_pagingMap_ok {paddr flags : Nat} {u : Unit}
    (hrun : (pagingMap ps v paddr flags).run k = .ok u k') :
    WritesPage used root v (mapEntry paddr flags) k k' := by
  unfold pagingMap readPmem at hrun
  rw [run_gets_bind, hroot] at hrun
  obtain ⟨entry, k₁, hget, hwrite⟩ := run_bind_ok.1 hrun
  exact writesPage_of_write h hused hsup hget (mapEntry_lt _ _) hwrite

theorem run_invalidatePagingMapping_ok {u : Unit}
    (hrun : (invalidatePagingMapping ps v).run k = .ok u k') :
    WritesPage used root v (pte k.sh.pmem root v - pte k.sh.pmem root v % 2) k k' := by
  unfold invalidatePagingMapping readPmem at hrun
  rw [run_gets_bind, hroot] at hrun
  obtain ⟨entry, k₁, hget, hwrite⟩ := run_bind_ok.1 hrun
  rw [run_gets_bind] at hwrite
  obtain ⟨t, new, hentry, hgrow, -, hwalk, -⟩ := run_unsyncGetPageTableEntry_ok h hused hsup hget
  have hval : load k₁.sh.pmem entry = pte k.sh.pmem root v := by
    rw [hentry, ← pte_of_walk hwalk, hgrow.pte]
  have hlt := load_lt k₁.sh.pmem entry
  have hmask : load k₁.sh.pmem entry &&& (2 ^ 64 - 1 - pagePresent) =
      pte k.sh.pmem root v - pte k.sh.pmem root v % 2 := by
    rw [← hval]
    exact and_not_one hlt
  rw [hmask] at hwrite
  exact writesPage_of_write h hused hsup hget (by omega) hwrite

end

end

end GarbageOS
