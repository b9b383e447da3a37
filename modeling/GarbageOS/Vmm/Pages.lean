import GarbageOS.Paging.Paged
import GarbageOS.Vmm.Ops

/-!
# Loops over pages

The loops of the virtual memory manager set the entries of consecutive pages: to given
frames, to fresh ones, to the entries of another structure, or to nothing. Each of them
returns if the frames it needs are left.
-/

namespace GarbageOS

open Lib Function

theorem nthPage_inj {a i j : Nat} (hi : i < 2 ^ 36) (hj : j < 2 ^ 36)
    (h : SamePage (nthPage a i) (nthPage a j)) : i = j := by
  unfold SamePage nthPage add64 at h
  simp only [pageSize] at h
  omega

/-- The entries of `count` pages from `a` on are set, and the frames `freed` are given back. -/
structure SetsPages (freed : List Nat) (ps a count : Nat) (val : Nat → Nat) (k k' : Kernel)
    (owned owned' all : List Nat) : Prop where
  paged : Paged k' ps owned' all
  frames : FramesKept freed ps k k' owned owned'
  entry : ∀ i < count, entryAt k'.sh.pmem ps (nthPage a i) = val i
  same : ∀ w, (∀ i < count, ¬ SamePage (nthPage a i) w) →
    entryAt k'.sh.pmem ps w = entryAt k.sh.pmem ps w

section

variable {k k' t t' : Kernel} {ps a i count : Nat} {val : Nat → Nat} {u : Unit}
  {owned owned' mid all freed : List Nat}
  {n v : Nat} {type : VirtualMemoryType}

theorem SetsPages.zero (h : Paged k ps owned all) (a : Nat) (val : Nat → Nat) :
    SetsPages [] ps a 0 val k k owned owned all :=
  ⟨h, .refl ps k owned, fun _ hi => (Nat.not_lt_zero _ hi).elim, fun _ _ => rfl⟩

theorem SetsPages.congr {k₀ : Kernel} (h : SetsPages freed ps a count val k t owned owned' all)
    (hpmem : k₀.sh.pmem = k.sh.pmem) (hpmem' : t'.sh.pmem = t.sh.pmem)
    (hframes : t'.sh.frames = t.sh.frames) :
    SetsPages freed ps a count val k₀ t' owned owned' all where
  paged := h.paged.congr hpmem' hframes
  frames := ⟨h.frames.stay, by rw [hpmem, hpmem']; exact h.frames.tables⟩
  entry := by rw [hpmem']; exact h.entry
  same := by rw [hpmem, hpmem']; exact h.same

theorem SetsPages.later (h : SetsPages freed ps a i val k t owned mid all) {j : Nat} (hij : i ≤ j)
    (hj : j < 2 ^ 36) : entryAt t.sh.pmem ps (nthPage a j) = entryAt k.sh.pmem ps (nthPage a j) :=
  h.same _ fun l hl hs => by
    have := nthPage_inj (by omega) hj hs
    omega

theorem SetsPages.succ {freed' : List Nat} {val' : Nat → Nat} {value : Nat}
    (h : SetsPages freed ps a i val k t owned mid all)
    (hpage : SetsPage freed' ps (nthPage a i) value t t' mid owned' all) (hi : i < 2 ^ 36)
    (hval : ∀ j < i, val' j = val j) (hvalue : val' i = value) :
    SetsPages (freed ++ freed') ps a (i + 1) val' k t' owned owned' all where
  paged := hpage.paged
  frames := h.frames.trans hpage.frames
  entry j hj := by
    rw [hpage.entry]
    split
    · next hs =>
      have := nthPage_inj hi (by omega) hs
      rw [← this]
      exact hvalue.symm
    · next hs =>
      have hne : j ≠ i := fun e => hs (e ▸ rfl)
      rw [h.entry j (by omega), hval j (by omega)]
  same w hw := by
    rw [hpage.entry, if_neg (hw i (Nat.lt_succ_self i))]
    exact h.same w fun j hj => hw j (by omega)

theorem Paged.setLoop {f : Nat → KM Unit} {I : Kernel → List Nat → Prop} (h : Paged k ps owned all)
    (hI : I k owned) (hcount : count ≤ 2 ^ 36)
    (hbody : ∀ i t t' mid, i < count → Paged t ps mid all → I t mid →
      entryAt t.sh.pmem ps (nthPage a i) = entryAt k.sh.pmem ps (nthPage a i) →
      (f i).run t = .ok () t' →
      ∃ mid', I t' mid' ∧ SetsPage [] ps (nthPage a i) (val i) t t' mid mid' all)
    (hrun : (forRange f count 0).run k = .ok u k') :
    ∃ owned', I k' owned' ∧ SetsPages [] ps a count val k k' owned owned' all := by
  have hloop := @run_forRange_inv _ _ f
    (fun i t => ∃ mid, I t mid ∧ SetsPages [] ps a i val k t owned mid all) u count 0 k k'
    (fun i t t' _ hi ⟨mid, hmid, hset⟩ hstep => ?_) ⟨owned, hI, .zero h a val⟩ hrun
  · rwa [Nat.zero_add] at hloop
  · obtain ⟨mid', hmid', hpage⟩ := hbody i t t' mid (by omega) hset.paged hmid
      (hset.later (Nat.le_refl i) (by omega)) hstep
    exact ⟨mid', hmid', hset.succ hpage (by omega) (fun _ _ => rfl) rfl⟩

/-! ## Mapping given frames -/

/-- The pages are mapped to consecutive addresses, or to themselves. -/
theorem Paged.mapLoop {paddr : Nat → Nat} {flags : Nat} {f : Nat → KM Unit}
    (h : Paged k ps owned all) (hcount : count ≤ 2 ^ 36)
    (hps : k.sh.vmm.pagingStructure = ps)
    (hf : ∀ i t, t.sh.vmm.pagingStructure = ps →
      (f i).run t = (pagingMap ps (nthPage a i) (paddr i) flags).run t)
    (hrun : (forRange f count 0).run k = .ok u k') :
    ∃ owned', SetsPages [] ps a count (fun i => mapEntry (paddr i) flags) k k' owned owned' all := by
  obtain ⟨owned', -, hset⟩ := h.setLoop (I := fun t _ => t.sh.vmm.pagingStructure = ps) hps hcount
    (fun i t t' mid _ hp hI _ hstep => by
      rw [hf i t hI] at hstep
      obtain ⟨mid', hpage⟩ := hp.map hstep
      exact ⟨mid', by rw [(PagingEffect.of_run hstep).vmm]; exact hI, hpage⟩) hrun
  exact ⟨owned', hset⟩

theorem pageCount_eq (hn : n % pageSize = 0) : pageCount n = n / pageSize := by
  unfold pageCount
  simp only [pageSize] at hn ⊢
  omega

theorem run_forPages_ok {f : Nat → KM Unit} (h : (forPages n f).run k = .ok u k') :
    (forRange f (pageCount n) 0).run k = .ok () k' := by
  unfold forPages at h
  obtain ⟨_, t, hloop, hcheck⟩ := run_bind_ok.1 h
  obtain ⟨-, rfl⟩ := run_check_ok.1 hcheck
  exact hloop

/-! ## Mapping fresh frames -/

/-- The frames `g i` were free, and belong to no table. -/
structure FreshFramesAt (g : Nat → Nat) (count ps : Nat) (k' : Kernel) (owned owned' : List Nat) :
    Prop where
  taken : ∀ i < count, g i ∈ owned' ∧ g i ∉ owned
  noTable : ∀ i < count, ¬ InStructure k'.sh.pmem ps (g i)
  distinct : ∀ i < count, ∀ j < count, g i = g j → i = j

theorem Paged.newFrame (h : Paged k ps owned all) (hps : k.sh.vmm.pagingStructure = ps)
    (hrun : (mapNewFrame v).run k = .ok u k') :
    ∃ x owned', SetsPage [] ps v (mapEntry x (pagePresent ||| pageWritable)) k k' owned owned' all ∧
      x ∈ owned' ∧ x ∉ owned ∧ ¬ InStructure k'.sh.pmem ps x := by
  unfold mapNewFrame at hrun
  obtain ⟨x, k₁, halloc, hrun⟩ := run_bind_ok.1 hrun
  rw [run_get_bind, (PagingEffect.of_run halloc).vmm, hps] at hrun
  obtain ⟨h₁, hkept₁, hnew, hno, hpmem⟩ := h.alloc halloc
  obtain ⟨owned', hpage⟩ := h₁.map hrun
  refine ⟨x, owned', ⟨hpage.paged, hkept₁.trans hpage.frames, fun w => ?_⟩, ?_, hnew, fun ht => ?_⟩
  · rw [hpage.entry, hpmem]
  · exact hpage.frames.stay x List.mem_cons_self List.not_mem_nil
  · exact hno (hpage.frames.tables x List.mem_cons_self List.not_mem_nil ht)

theorem Paged.newFrames (h : Paged k ps owned all) (hps : k.sh.vmm.pagingStructure = ps)
    (hcount : pageCount n ≤ 2 ^ 36) (hrun : (mapFrames a n).run k = .ok u k') :
    ∃ g owned', SetsPages [] ps a (pageCount n)
        (fun i => mapEntry (g i) (pagePresent ||| pageWritable)) k k' owned owned' all ∧
      FreshFramesAt g (pageCount n) ps k' owned owned' := by
  have hloop := @run_forRange_inv _ _ (fun i => mapNewFrame (nthPage a i))
    (fun i t => t.sh.vmm.pagingStructure = ps ∧ ∃ g mid, SetsPages [] ps a i
        (fun i => mapEntry (g i) (pagePresent ||| pageWritable)) k t owned mid all ∧
      FreshFramesAt g i ps t owned mid) () (pageCount n) 0 k k'
    (fun i t t' _ hi ⟨hps', g, mid, hset, hfresh⟩ hstep => ?_)
    ⟨hps, fun _ => 0, owned, .zero h a _, fun _ hi => (Nat.not_lt_zero _ hi).elim,
      fun _ hi => (Nat.not_lt_zero _ hi).elim, fun _ hi => (Nat.not_lt_zero _ hi).elim⟩
    (run_forPages_ok hrun)
  · rw [Nat.zero_add] at hloop
    exact hloop.2
  · refine ⟨by rw [(PagingEffect.of_run hstep).vmm]; exact hps', ?_⟩
    obtain ⟨x, mid', hpage, hx, hnew, hno⟩ := hset.paged.newFrame hps' hstep
    have hold : ∀ j < i, update g i x j = g j := fun j hj =>
      update_of_ne (Nat.ne_of_lt hj) _ _
    have hlast : update g i x i = x := update_self _ _ _
    refine ⟨update g i x, mid', hset.succ hpage (by omega) (fun j hj => by rw [hold j hj])
      (by rw [hlast]), fun j hj => ?_, fun j hj => ?_, fun j hj l hl he => ?_⟩
    · rcases Nat.lt_succ_iff_lt_or_eq.1 hj with hj | rfl
      · rw [hold j hj]
        obtain ⟨h1, h2⟩ := hfresh.taken j hj
        exact ⟨hpage.frames.stay _ h1 List.not_mem_nil, h2⟩
      · rw [hlast]
        exact ⟨hx, fun ho => hnew (hset.frames.stay x ho List.not_mem_nil)⟩
    · rcases Nat.lt_succ_iff_lt_or_eq.1 hj with hj | rfl
      · rw [hold j hj]
        exact fun ht => hfresh.noTable j hj
          (hpage.frames.tables _ (hfresh.taken j hj).1 List.not_mem_nil ht)
      · rw [hlast]
        exact hno
    · -- the frame of the last round is none of those given out before
      have hne : ∀ j < i, g j ≠ x := fun j hj e => hnew (e ▸ (hfresh.taken j hj).1)
      rcases Nat.lt_succ_iff_lt_or_eq.1 hj with hj | rfl <;>
        rcases Nat.lt_succ_iff_lt_or_eq.1 hl with hl | rfl
      · rw [hold j hj, hold l hl] at he
        exact hfresh.distinct j hj l hl he
      · rw [hold j hj, hlast] at he
        exact (hne j hj he).elim
      · rw [hold l hl, hlast] at he
        exact (hne l hl he.symm).elim
      · rfl

/-! ## Unmapping -/

/-- The frame that unmapping a page with the given entry gives back. -/
def freedBy (type : VirtualMemoryType) (entry : Nat) : List Nat :=
  if type.isBacked = true ∧ isEntryPresent entry = true then [frameOf entry] else []

theorem mem_freedBy {entry x : Nat} :
    x ∈ freedBy type entry ↔
      type.isBacked = true ∧ isEntryPresent entry = true ∧ x = frameOf entry := by
  unfold freedBy
  split
  · next h => simp [h]
  · next h =>
    rw [List.mem_nil_iff, false_iff]
    exact fun hx => h ⟨hx.1, hx.2.1⟩

def OwnFrame (type : VirtualMemoryType) (ps entry : Nat) (k : Kernel) (owned : List Nat) : Prop :=
  ∀ x ∈ freedBy type entry, x ∈ owned ∧ ¬ InStructure k.sh.pmem ps x

theorem Paged.paddr_eq (h : Paged k ps owned all) (hx : frameOf (entryAt k.sh.pmem ps v) ∈ owned) :
    (getPhysicalAddress k.sh.pmem ps v).paddr = frameOf (entryAt k.sh.pmem ps v) := by
  rw [getPhysicalAddress_eq]
  have hall := h.store.mem_all hx
  exact (canonicalPaddr_eq_iff (h.store.isFrame hall)).2 (h.store.low _ hall)

section

variable (h : Paged k ps owned all) (hps : k.sh.vmm.pagingStructure = ps)
  (hown : OwnFrame type ps (entryAt k.sh.pmem ps v) k owned)

include h hps hown

theorem run_unmapPage_cases :
    (freedBy type (entryAt k.sh.pmem ps v) = [] ∧
      (unmapPage type v).run k = (invalidatePagingMapping ps v).run k) ∨
    (freedBy type (entryAt k.sh.pmem ps v) = [frameOf (entryAt k.sh.pmem ps v)] ∧
      (unmapPage type v).run k = (do
        deallocFrame (frameOf (entryAt k.sh.pmem ps v))
        invalidatePagingMapping ps v).run k) := by
  have hstate : (getPhysicalAddress k.sh.pmem ps v).mmapPresent =
      isEntryPresent (entryAt k.sh.pmem ps v) := by
    rw [getPhysicalAddress_eq]
    rfl
  unfold unmapPage
  rw [run_get_bind, hps]
  dsimp only
  by_cases hbacked : type.isBacked = true
  · rw [onlyIf_pos hbacked, bind_assoc, run_get_bind]
    by_cases hpresent : isEntryPresent (entryAt k.sh.pmem ps v) = true
    · have hfreed : freedBy type (entryAt k.sh.pmem ps v) = [frameOf (entryAt k.sh.pmem ps v)] :=
        if_pos ⟨hbacked, hpresent⟩
      have hmem := (hown (frameOf (entryAt k.sh.pmem ps v)) (by rw [hfreed]; simp)).1
      rw [onlyIf_pos (hstate.trans hpresent), h.paddr_eq hmem]
      exact .inr ⟨hfreed, rfl⟩
    · rw [onlyIf_neg (by rw [hstate]; exact hpresent), pure_bind]
      exact .inl ⟨if_neg fun hc => hpresent hc.2, rfl⟩
  · rw [onlyIf_neg hbacked, pure_bind]
    exact .inl ⟨if_neg fun hc => hbacked hc.1, rfl⟩

theorem Paged.unmap (hrun : (unmapPage type v).run k = .ok u k') :
    ∃ owned', SetsPage (freedBy type (entryAt k.sh.pmem ps v)) ps v
        (entryAt k.sh.pmem ps v - entryAt k.sh.pmem ps v % 2) k k' owned owned' all ∧
      k'.cpu.freed = freedBy type (entryAt k.sh.pmem ps v) ++ k.cpu.freed := by
  rcases run_unmapPage_cases h hps hown with ⟨hfreed, heq⟩ | ⟨hfreed, heq⟩
  · rw [heq] at hrun
    obtain ⟨owned', hpage⟩ := h.invalidate hrun
    rw [hfreed]
    exact ⟨owned', hpage, Kept.keeps (R := SameLog freedFrames) hrun⟩
  · rw [heq] at hrun
    obtain ⟨_, k₁, hfree, hrun⟩ := run_bind_ok.1 hrun
    obtain ⟨hmem, hno⟩ := hown (frameOf (entryAt k.sh.pmem ps v)) (by rw [hfreed]; simp)
    obtain ⟨h₁, hkept₁⟩ := h.dealloc hmem hno hfree
    have hpmem := run_deallocFrame_pmem hfree
    obtain ⟨owned', hpage⟩ := h₁.invalidate hrun
    rw [hpmem] at hpage
    rw [hfreed]
    refine ⟨owned', ⟨hpage.paged, hkept₁.trans hpage.frames, fun w => ?_⟩, ?_⟩
    · rw [hpage.entry, hpmem]
    · exact (Kept.keeps (R := SameLog freedFrames) hrun).trans (frees_deallocFrame _ hfree)

theorem unmapPage_returns (hpresent : isEntryPresent (entryAt k.sh.pmem ps v) = true)
    (hlock : .frameAllocator ∉ k.cpu.held) : ∃ k', (unmapPage type v).run k = .ok () k' := by
  rcases run_unmapPage_cases h hps hown with ⟨-, heq⟩ | ⟨hfreed, heq⟩
  · obtain ⟨k', hk', -⟩ := invalidate_returns hpresent
    exact ⟨k', heq.trans hk'⟩
  · have hmem := (hown (frameOf (entryAt k.sh.pmem ps v)) (by rw [hfreed]; simp)).1
    obtain ⟨k₁, hfree⟩ := deallocFrame_returns h.store hmem hlock
    rw [← run_deallocFrame_pmem hfree] at hpresent
    obtain ⟨k', hk', -⟩ := invalidate_returns hpresent
    exact ⟨k', heq.trans (run_bind_ok.2 ⟨(), k₁, hfree, hk'⟩)⟩

end

/-- The frames given back for the pages before page `i`. -/
def freedBefore (type : VirtualMemoryType) (m : Mem) (ps a i : Nat) : List Nat :=
  (List.range i).flatMap fun j => freedBy type (entryAt m ps (nthPage a j))

theorem freedBefore_succ (type : VirtualMemoryType) (m : Mem) (ps a i : Nat) :
    freedBefore type m ps a (i + 1) =
      freedBefore type m ps a i ++ freedBy type (entryAt m ps (nthPage a i)) := by
  unfold freedBefore
  rw [List.range_succ, List.flatMap_append]
  simp

/-- No two pages of a region share a frame, and the frames are the region's own. -/
structure OwnFrames (type : VirtualMemoryType) (ps a count : Nat) (k : Kernel) (owned : List Nat) :
    Prop where
  own : ∀ i < count, OwnFrame type ps (entryAt k.sh.pmem ps (nthPage a i)) k owned
  distinct : ∀ i < count, ∀ j < count, ∀ x, x ∈ freedBy type (entryAt k.sh.pmem ps (nthPage a i)) →
    x ∈ freedBy type (entryAt k.sh.pmem ps (nthPage a j)) → i = j

/-- What the loop has done before page `i`. -/
structure Unmapped (type : VirtualMemoryType) (ps a i : Nat) (k t : Kernel)
    (owned mid all : List Nat) : Prop where
  pages : SetsPages (freedBefore type k.sh.pmem ps a i) ps a i
    (fun j => entryAt k.sh.pmem ps (nthPage a j) - entryAt k.sh.pmem ps (nthPage a j) % 2) k t
    owned mid all
  freed : t.cpu.freed = (freedBefore type k.sh.pmem ps a i).reverse ++ k.cpu.freed
  vmm : t.sh.vmm.pagingStructure = ps
  held : t.cpu.held = k.cpu.held

section

variable {type : VirtualMemoryType}

section

variable (h : Unmapped type ps a i k t owned mid all) (hi : i < count) (hcount : count ≤ 2 ^ 36)
  (hown : OwnFrames type ps a count k owned)

include h hi hcount hown

/-- The frame of the next page is still the region's. -/
theorem Unmapped.own : OwnFrame type ps (entryAt t.sh.pmem ps (nthPage a i)) t mid := by
  rw [h.pages.later (Nat.le_refl i) (by omega)]
  intro x hx
  obtain ⟨hmem, hno⟩ := hown.own i hi x hx
  have hnew : x ∉ freedBefore type k.sh.pmem ps a i := by
    intro hold
    obtain ⟨j, hj, hxj⟩ := List.mem_flatMap.1 hold
    have hj' := List.mem_range.1 hj
    have := hown.distinct i hi j (by omega) x hx hxj
    omega
  exact ⟨h.pages.frames.stay x hmem hnew, fun ht => hno (h.pages.frames.tables x hmem hnew ht)⟩

theorem Unmapped.succ (hrun : (unmapPage type (nthPage a i)).run t = .ok u t') :
    ∃ mid', Unmapped type ps a (i + 1) k t' owned mid' all := by
  have hlater := h.pages.later (Nat.le_refl i) (by omega)
  obtain ⟨mid', hpage, hfreed⟩ := h.pages.paged.unmap h.vmm (h.own hi hcount hown) hrun
  rw [hlater] at hpage hfreed
  have heff := PagingEffect.of_run hrun
  refine ⟨mid', ?_, ?_, by rw [heff.vmm]; exact h.vmm, by rw [heff.held]; exact h.held⟩
  · rw [freedBefore_succ]
    exact h.pages.succ hpage (by omega) (fun _ _ => rfl) rfl
  · have hrev : (freedBy type (entryAt k.sh.pmem ps (nthPage a i))).reverse =
        freedBy type (entryAt k.sh.pmem ps (nthPage a i)) := by
      unfold freedBy
      split <;> rfl
    rw [hfreed, h.freed, freedBefore_succ, List.reverse_append, List.append_assoc, hrev]

end

theorem Unmapped.zero (h : Paged k ps owned all) (hps : k.sh.vmm.pagingStructure = ps) :
    Unmapped type ps a 0 k k owned owned all :=
  ⟨.zero h a _, rfl, hps, rfl⟩

theorem Unmapped.congr {k₀ : Kernel} (h : Unmapped type ps a i k t owned mid all)
    (hpmem : k₀.sh.pmem = k.sh.pmem) (hfreed : k₀.cpu.freed = k.cpu.freed)
    (hsh : t'.sh.pmem = t.sh.pmem ∧ t'.sh.frames = t.sh.frames ∧
      t'.sh.vmm.pagingStructure = t.sh.vmm.pagingStructure)
    (hfreed' : t'.cpu.freed = t.cpu.freed) (hheld : t'.cpu.held = k₀.cpu.held) :
    Unmapped type ps a i k₀ t' owned mid all where
  pages := by
    rw [hpmem]
    exact h.pages.congr hpmem hsh.1 hsh.2.1
  freed := by rw [hpmem, hfreed, hfreed']; exact h.freed
  vmm := hsh.2.2.trans h.vmm
  held := hheld

theorem Paged.unmapPages {n : Nat} (h : Paged k ps owned all) (hps : k.sh.vmm.pagingStructure = ps)
    (hcount : pageCount n ≤ 2 ^ 36) (hown : OwnFrames type ps a (pageCount n) k owned)
    (hrun : (GarbageOS.unmapPages type a n).run k = .ok u k') :
    ∃ owned', Unmapped type ps a (pageCount n) k k' owned owned' all := by
  have hloop := @run_forRange_inv _ _ (fun i => unmapPage type (nthPage a i))
    (fun i t => ∃ mid, Unmapped type ps a i k t owned mid all) () (pageCount n) 0 k k'
    (fun i t t' _ hi ⟨mid, hmid⟩ hstep => hmid.succ (by omega) hcount hown hstep)
    ⟨owned, .zero h hps⟩ (run_forPages_ok hrun)
  rwa [Nat.zero_add] at hloop

theorem unmapPages_returns {n : Nat} (h : Paged k ps owned all)
    (hps : k.sh.vmm.pagingStructure = ps) (hn : n ≤ 2 ^ 48)
    (hown : OwnFrames type ps a (pageCount n) k owned)
    (hpresent : ∀ i < pageCount n, isEntryPresent (entryAt k.sh.pmem ps (nthPage a i)) = true)
    (hlock : .frameAllocator ∉ k.cpu.held) : ∃ k', (unmapPages type a n).run k = .ok () k' := by
  have hcount : pageCount n ≤ 2 ^ 36 := by
    unfold pageCount
    simp only [pageSize]
    omega
  obtain ⟨k', hloop, -⟩ := @run_forRange_returns _ _ (fun i => unmapPage type (nthPage a i))
    (fun i t => ∃ mid, Unmapped type ps a i k t owned mid all) (pageCount n) 0 k
    (fun i t _ hi hmid => by
      obtain ⟨mid, hmid⟩ := hmid
      have hpage : isEntryPresent (entryAt t.sh.pmem ps (nthPage a i)) = true := by
        rw [hmid.pages.later (Nat.le_refl i) (by omega)]
        exact hpresent i (by omega)
      obtain ⟨t', ht'⟩ := unmapPage_returns hmid.pages.paged hmid.vmm
        (hmid.own (by omega) hcount hown) hpage (by rw [hmid.held]; exact hlock)
      exact ⟨t', ht', hmid.succ (by omega) hcount hown ht'⟩) ⟨owned, .zero h hps⟩
  refine ⟨k', run_bind_ok.2 ⟨(), k', hloop, run_check_true (decide_eq_true ?_)⟩⟩
  simp only [pageSize]
  omega

end

/-! ## Copying from another structure -/

theorem Paged.copyPages {src flags : Nat} (hsrc : Paged k src owned all) (h : Paged k ps owned all)
    (hsep : NoSharedFrame k.sh.pmem src ps) (hflags : flags < 2 ^ 16)
    (hcount : pageCount n ≤ 2 ^ 36)
    (hrun : (copyPagingStructureMappingNoPageInvalidation src ps a n flags).run k = .ok u k') :
    ∃ owned', SetsPages [] ps a (pageCount n)
      (fun i => copiedEntry flags (entryAt k.sh.pmem src (nthPage a i))) k k' owned owned' all := by
  obtain ⟨owned', -, hset⟩ := h.setLoop
    (I := fun t mid => Paged t src mid all ∧ NoSharedFrame t.sh.pmem src ps ∧
      ∀ w, entryAt t.sh.pmem src w = entryAt k.sh.pmem src w)
    ⟨hsrc, hsep, fun _ => rfl⟩ hcount
    (fun i t t' mid _ hp ⟨hs, hsep', hsame⟩ _ hstep => by
      obtain ⟨mid', hs', hsep'', hsame', hpage⟩ := hs.copyEntry hp hsep' hflags hstep
      rw [hsame] at hpage
      exact ⟨mid', ⟨hs', hsep'', fun w => (hsame' w).trans (hsame w)⟩, hpage⟩)
    (run_forPages_ok hrun)
  exact ⟨owned', hset⟩

end

/-! ## The loops return -/

theorem FramesLeft.locked {k : Kernel} {n : Nat} (h : FramesLeft n k) : FramesLeft n (k.locked .vmm) := by
  refine ⟨?_, h.frames⟩
  show .frameAllocator ∉ .vmm :: k.cpu.held
  rw [List.mem_cons, not_or]
  exact ⟨by decide, h.lock⟩

theorem FramesLeft.descs {k k' : Kernel} {n : Nat} (h : FramesLeft n k) (heff : DescEffect k k') :
    FramesLeft n k' :=
  h.congr heff.held (by rw [heff.eq]) (by rw [heff.eq])

theorem within_mapNewFrame (v : Nat) : Within FramesLeft 4 (mapNewFrame v) :=
  .bind within_allocFrame fun _ => .bind .get fun _ => within_pagingMap _ _ _ _

theorem within_mapFrames (a : Nat) {n : Nat} (hn : n ≤ 2 ^ 64 - pageSize) :
    Within FramesLeft (pageCount n * 4) (mapFrames a n) :=
  within_forPages hn fun _ => within_mapNewFrame _

theorem within_mapIdentityPages (first count : Nat) :
    Within FramesLeft (count * 3) (mapIdentityPages first count) := by
  unfold mapIdentityPages
  rw [← Nat.zero_add (count * 3)]
  exact .bind .get fun _ => .forRange (fun _ => within_pagingMap _ _ _ _) _ _

theorem within_unmapPage {type : VirtualMemoryType} (h : type.isBacked = false) (v : Nat) :
    Within FramesLeft 3 (unmapPage type v) := by
  unfold unmapPage
  simp only [onlyIf_neg (show ¬ type.isBacked = true by rw [h]; decide), pure_bind]
  rw [← Nat.zero_add 3]
  exact .bind .get fun _ => within_invalidatePagingMapping _ _

theorem within_unmapPages {type : VirtualMemoryType} (a : Nat) {n : Nat} (h : type.isBacked = false)
    (hn : n ≤ 2 ^ 64 - pageSize) : Within FramesLeft (pageCount n * 3) (unmapPages type a n) :=
  within_forPages hn fun _ => within_unmapPage h _

theorem within_copyPages (src dst a flags : Nat) {n : Nat} (hn : n ≤ 2 ^ 64 - pageSize) :
    Within FramesLeft (pageCount n * 6)
      (copyPagingStructureMappingNoPageInvalidation src dst a n flags) :=
  within_forPages hn fun _ => within_copyPagingEntry _ _ _ _

theorem within_flushPages (a : Nat) {n : Nat} (hn : n ≤ 2 ^ 64 - pageSize) :
    Within FramesLeft (pageCount n * 0)
      (forPages n fun i => deletePageTranslationCache (add64 a (i * pageSize))) := by
  refine within_forPages hn fun _ => .modify fun _ _ h => ?_
  exact h.congr rfl rfl rfl

end GarbageOS
