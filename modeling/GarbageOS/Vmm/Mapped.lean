import GarbageOS.Lib.Backing
import GarbageOS.Vmm.Pages
import GarbageOS.Vmm.Runs

/-!
# What is mapped

The pages of heaps, stacks and general regions are present and backed by frames of their own.
If only present pages are copied from other structures, a page of the kernel part is present
exactly if it lies between the paddings of an area in use.
-/

namespace GarbageOS

open Lib Relation

/-! ## Pages -/

/-- The numbers of the pages of the kernel part and of the page after it. -/
abbrev KernelPage := { q : Nat // kernelVmemStart / pageSize ≤ q ∧ q < 2 ^ 52 }

/-- The page with number `q` is one of those of `n` bytes from `a` on. -/
def InPages (a n q : Nat) : Prop := a / pageSize ≤ q ∧ q < a / pageSize + n / pageSize

/-- The entry of the page with number `q` in the structure of the kernel. -/
def Kernel.pageEntry (k : Kernel) (q : Nat) : Nat :=
  entryAt k.sh.pmem k.sh.vmm.pagingStructure (q * pageSize)

theorem Kernel.pageEntry_div (k : Kernel) (v : Nat) :
    k.pageEntry (v / pageSize) = entryAt k.sh.pmem k.sh.vmm.pagingStructure v := by
  refine entryAt_congr ?_
  unfold SamePage
  simp only [pageSize]
  omega

section

variable {k k' : Kernel} {ps a n count : Nat} {val : Nat → Nat} {owned owned' all freed : List Nat}

theorem SetsPages.kernelPage (h : SetsPages freed ps a (pageCount n) val k k' owned owned' all)
    (ha : kernelVmemStart ≤ a) (hn : n % pageSize = 0) (hend : a + n ≤ 2 ^ 64) (q : KernelPage) :
    (InPages a n q → entryAt k'.sh.pmem ps (q * pageSize) = val (q - a / pageSize)) ∧
      (¬ InPages a n q →
        entryAt k'.sh.pmem ps (q * pageSize) = entryAt k.sh.pmem ps (q * pageSize)) := by
  obtain ⟨q, hlo, hhi⟩ := q
  have hstart := kernelVmemStart_eq
  rw [pageCount_eq hn] at h
  unfold InPages
  simp only [pageSize] at hn hlo ⊢
  constructor
  · rintro ⟨h1, h2⟩
    have hsame : SamePage (nthPage a (q - a / 4096)) (q * 4096) := by
      unfold SamePage nthPage add64
      simp only [pageSize]
      omega
    rw [← entryAt_congr hsame]
    exact h.entry _ (by simp only [pageSize]; omega)
  · intro hout
    refine h.same _ fun i hi hs => hout ?_
    unfold SamePage nthPage add64 at hs
    simp only [pageSize] at hi hs
    omega

theorem SetsPages.kernelPage_of_low (h : SetsPages freed ps a count val k k' owned owned' all)
    (hlow : a + count * pageSize ≤ 2 ^ 47) (q : KernelPage) :
    entryAt k'.sh.pmem ps (q * pageSize) = entryAt k.sh.pmem ps (q * pageSize) := by
  obtain ⟨q, hlo, hhi⟩ := q
  have hstart := kernelVmemStart_eq
  simp only [pageSize] at hlo hlow ⊢
  refine h.same _ fun i hi hs => ?_
  unfold SamePage nthPage add64 at hs
  simp only [pageSize] at hs
  omega

end

/-! ## Pages of areas -/

namespace Area

def HasPage (x : Area) (q : Nat) : Prop := InPages x.base x.length q

variable {x : Area} {q : Nat}

theorem HasPage.inside (h : x.HasPage q) (hok : x.Ok) :
    x.start ≤ q * pageSize ∧ q * pageSize < x.stop := by
  have hpad := hok.padding
  have hstart := hok.start_aligned
  have hsize := hok.size_aligned
  unfold HasPage InPages base length at h
  unfold stop
  simp only [pageSize] at h hstart hsize ⊢
  omega

end Area

section

variable {xs xs' : List Area} {x y d u : Area} {a q : Nat}

theorem Layout.area_eq (h : Layout xs) (hx : x ∈ xs) (hy : y ∈ xs) (hxa : x.start ≤ a ∧ a < x.stop)
    (hya : y.start ≤ a ∧ a < y.stop) : x = y := by
  obtain ⟨pre, post, rfl⟩ := List.append_of_mem hx
  rcases mem_splice.1 hy with rfl | hy
  · rfl
  · obtain ⟨hpre, hpost⟩ := h.tiles.around fun y _ => y.start_le_bound
    have h1 := x.stop_le_bound
    have h2 := y.stop_le_bound
    rcases List.mem_append.1 hy with hy | hy
    · have := hpre y hy
      omega
    · have := hpost y hy
      omega

theorem Layout.page_area_eq (h : Layout xs) (hx : x ∈ xs) (hy : y ∈ xs) (hxq : x.HasPage q)
    (hyq : y.HasPage q) : x = y :=
  h.area_eq hx hy (hxq.inside (h.ok x hx)) (hyq.inside (h.ok y hy))

def UsedPage (xs : List Area) (q : Nat) : Prop :=
  ∃ x ∈ xs, isFreeType x.type = false ∧ x.HasPage q

def BackedPage (xs : List Area) (q : Nat) : Prop :=
  ∃ x ∈ xs, x.type.isBacked = true ∧ x.HasPage q

theorem isFreeType_of_isBacked {t : VirtualMemoryType} (h : t.isBacked = true) :
    isFreeType t = false := by
  revert h
  cases t <;> decide

theorem BackedPage.used (h : BackedPage xs q) : UsedPage xs q := by
  obtain ⟨x, hx, hb, hq⟩ := h
  exact ⟨x, hx, isFreeType_of_isBacked hb, hq⟩

/-- The pages of the areas of some types in use, after an area was reserved. -/
theorem Reserved.page (h : Reserved xs u xs') {P : VirtualMemoryType → Prop}
    (hP : ∀ {t}, P t → isFreeType t = false) : (∃ x ∈ xs', P x.type ∧ x.HasPage q) →
      (∃ x ∈ xs, P x.type ∧ x.HasPage q) ∨ u.HasPage q := by
  rintro ⟨x, hx, hp, hq⟩
  rcases (h.mem_used (hP hp)).1 hx with rfl | hx
  · exact .inr hq
  · exact .inl ⟨x, hx, hp, hq⟩

theorem Reserved.usedPage (h : Reserved xs u xs') : UsedPage xs' q ↔ UsedPage xs q ∨ u.HasPage q := by
  refine ⟨h.page (P := (isFreeType · = false)) id, ?_⟩
  rintro (⟨x, hx, hused, hq⟩ | hq)
  · exact ⟨x, (h.mem_used hused).2 (.inr hx), hused, hq⟩
  · exact ⟨u, (h.mem_used h.used).2 (.inl rfl), h.used, hq⟩

end

/-! ## The invariant -/

/-- What holds between two calls. The usable part of each area in use starts at a multiple
of `g`; `full` says that all pages of the areas in use are present. -/
structure Mapped (full : Prop) (g : Nat) (k : Kernel) (xs : List Area) (owned all : List Nat) : Prop
    extends VmmState k xs where
  paged : Paged k k.sh.vmm.pagingStructure owned all
  granule : ∀ x ∈ xs, isFreeType x.type = false → x.base % g = 0
  high : ∀ x ∈ xs, isFreeType x.type = false → x.type ≠ .identityMap → kernelVmemStart ≤ x.start
  backing : Backing full (fun q : KernelPage => UsedPage xs q) (fun q : KernelPage => BackedPage xs q)
    (fun q => isEntryPresent (k.pageEntry q) = true) (fun q => frameOf (k.pageEntry q))
    (fun a => a ∈ owned ∧ ¬ InStructure k.sh.pmem k.sh.vmm.pagingStructure a)

section

variable {full : Prop} {g : Nat} {k k' k₁ : Kernel} {xs xs' : List Area} {x u : Area}
  {owned owned' all : List Nat}
  {a n : Nat} {val : Nat → Nat}

theorem DescEffect.paging (h : DescEffect k k') : k'.sh.pmem = k.sh.pmem ∧
    k'.sh.frames = k.sh.frames ∧ k'.sh.vmm.pagingStructure = k.sh.vmm.pagingStructure := by
  rw [h.eq]
  exact ⟨rfl, rfl, rfl⟩

section

variable (h : Mapped full g k xs owned all)

include h

theorem Mapped.backed_high (hx : x ∈ xs) (hb : x.type.isBacked = true) :
    kernelVmemStart ≤ x.start := by
  refine h.high x hx (isFreeType_of_isBacked hb) fun e => ?_
  rw [e] at hb
  cases hb

/-- Nothing the invariant speaks about has changed but what `VmmState` says. -/
theorem Mapped.congr (hv : VmmState k' xs)
    (hpmem : k'.sh.pmem = k.sh.pmem) (hframes : k'.sh.frames = k.sh.frames)
    (hps : k'.sh.vmm.pagingStructure = k.sh.vmm.pagingStructure) : Mapped full g k' xs owned all where
  toVmmState := hv
  paged := hps ▸ h.paged.congr hpmem hframes
  granule := h.granule
  high := h.high
  backing := by
    unfold Kernel.pageEntry
    rw [hpmem, hps]
    exact h.backing

theorem Mapped.setLow (hv : VmmState k' xs)
    (hps : k'.sh.vmm.pagingStructure = k.sh.vmm.pagingStructure)
    (hpaged : Paged k' k.sh.vmm.pagingStructure owned' all)
    (hkept : FramesKept [] k.sh.vmm.pagingStructure k k' owned owned')
    (hsame : ∀ q : KernelPage, entryAt k'.sh.pmem k.sh.vmm.pagingStructure (q * pageSize) =
      entryAt k.sh.pmem k.sh.vmm.pagingStructure (q * pageSize)) : Mapped full g k' xs owned' all where
  toVmmState := hv
  paged := hps ▸ hpaged
  granule := h.granule
  high := h.high
  backing := by
    unfold Kernel.pageEntry
    rw [hps]
    simp only [hsame]
    refine ⟨h.backing.mapped_iff, h.backing.only_used, h.backing.mapped, fun q hq => ?_,
      h.backing.distinct⟩
    obtain ⟨h1, h2⟩ := h.backing.owned q hq
    exact ⟨hkept.stay _ h1 List.not_mem_nil, fun ht => h2 (hkept.tables _ h1 List.not_mem_nil ht)⟩

theorem Mapped.extend (hv : VmmState k' xs') (hpmem : k₁.sh.pmem = k.sh.pmem)
    (hps : k'.sh.vmm.pagingStructure = k.sh.vmm.pagingStructure)
    (hset : SetsPages [] k.sh.vmm.pagingStructure a (pageCount n) val k₁ k' owned owned' all)
    (ha : kernelVmemStart ≤ a) (hn : n % pageSize = 0) (hend : a + n ≤ 2 ^ 64)
    (hval : ∀ q, InPages a n q → full ∨ BackedPage xs' q →
      ∀ i < pageCount n, isEntryPresent (val i) = true)
    (hused : ∀ q, UsedPage xs' q ↔ UsedPage xs q ∨ InPages a n q)
    (hbacked : ∀ q, BackedPage xs' q → BackedPage xs q ∨ InPages a n q)
    (hfresh : ∀ q, InPages a n q → BackedPage xs' q → FreshFramesAt (fun i => frameOf (val i))
      (pageCount n) k.sh.vmm.pagingStructure k' owned owned')
    (hgranule : ∀ x ∈ xs', isFreeType x.type = false → x.base % g = 0)
    (hhigh : ∀ x ∈ xs', isFreeType x.type = false → x.type ≠ .identityMap →
      kernelVmemStart ≤ x.start) : Mapped full g k' xs' owned' all where
  toVmmState := hv
  paged := hps ▸ hset.paged
  granule := hgranule
  high := hhigh
  backing := by
    unfold Kernel.pageEntry
    rw [hps]
    have hin : ∀ q : KernelPage, InPages a n q →
        entryAt k'.sh.pmem k.sh.vmm.pagingStructure (q * pageSize) = val (q - a / pageSize) ∧
          q - a / pageSize < pageCount n := by
      refine fun q hq => ⟨(hset.kernelPage ha hn hend q).1 hq, ?_⟩
      rw [pageCount_eq hn]
      unfold InPages at hq
      omega
    refine h.backing.extend (R := fun q : KernelPage => InPages a n q) (fun q => hused q)
      (fun q => hbacked q) (fun q hq => ?_) (fun q hq hb => ?_) (fun q hq hb => ?_)
      (fun q r hq hr hbq hbr he => ?_) fun b ⟨h1, h2⟩ => ?_
    · unfold Kernel.pageEntry
      rw [(hset.kernelPage ha hn hend q).2 hq, hpmem]
      exact ⟨Iff.rfl, rfl⟩
    · obtain ⟨he, hlt⟩ := hin q hq
      rw [he]
      exact hval q hq hb _ hlt
    · obtain ⟨he, hlt⟩ := hin q hq
      have hf := hfresh q hq hb
      rw [he]
      exact ⟨⟨(hf.taken _ hlt).1, hf.noTable _ hlt⟩, fun ho => (hf.taken _ hlt).2 ho.1⟩
    · obtain ⟨heq, hltq⟩ := hin q hq
      obtain ⟨her, hltr⟩ := hin r hr
      rw [heq, her] at he
      have hi := (hfresh q hq hbq).distinct _ hltq _ hltr he
      unfold InPages at hq hr
      exact Subtype.ext (by omega)
    · refine ⟨hset.frames.stay b h1 List.not_mem_nil, fun ht => h2 ?_⟩
      have := hset.frames.tables b h1 List.not_mem_nil ht
      rwa [hpmem] at this

end

theorem FreshFramesAt.ofEntry {g : Nat → Nat} {count flags ps : Nat} {f : FrameAllocator}
    (h : FreshFramesAt g count ps k' owned owned') (hstore : FrameStore f owned' all) :
    FreshFramesAt (fun i => frameOf (mapEntry (g i) flags)) count ps k' owned owned' := by
  have heq : ∀ i < count, frameOf (mapEntry (g i) flags) = g i := fun i hi =>
    mapEntry_and_frameMask (hstore.isFrame (hstore.mem_all (h.taken i hi).1))
  refine ⟨fun i hi => ?_, fun i hi => ?_, fun i hi j hj he => ?_⟩
  · show frameOf _ ∈ _ ∧ frameOf _ ∉ _
    rw [heq i hi]
    exact h.taken i hi
  · show ¬ InStructure _ _ (frameOf _)
    rw [heq i hi]
    exact h.noTable i hi
  · have he' : frameOf (mapEntry (g i) flags) = frameOf (mapEntry (g j) flags) := he
    rw [heq i hi, heq j hj] at he'
    exact h.distinct i hi j hj he'

/-! ## Reserving an area -/

theorem Area.Ok.base_add_length (h : u.Ok) : u.base + u.length ≤ u.stop := by
  have := h.padding
  unfold Area.base Area.length Area.stop
  omega

theorem Mapped.reserve (h : Mapped full g k xs owned all) (hr : Reserves k k₁ xs u xs')
    (heff : PagingEffect k₁ k') (hu : u.Used) (hg : u.base % g = 0)
    (hhigh : kernelVmemStart ≤ u.start)
    (hset : SetsPages [] k.sh.vmm.pagingStructure u.base (pageCount u.length) val k₁ k' owned owned'
      all)
    (hval : full ∨ u.type.isBacked = true →
      ∀ i < pageCount u.length, isEntryPresent (val i) = true)
    (hfresh : u.type.isBacked = true → FreshFramesAt (fun i => frameOf (val i))
      (pageCount u.length) k.sh.vmm.pagingStructure k' owned owned') :
    Mapped full g k' xs' owned' all := by
  obtain ⟨hpmem, -, hps⟩ := hr.effect.paging
  have hok := hr.layout.ok u hr.mem
  have hend := hok.base_add_length
  have hstop := hr.layout.stop_lt hr.mem
  have hbase : u.start ≤ u.base := Nat.le_add_right _ _
  have hbacked : ∀ q, InPages u.base u.length q → BackedPage xs' q → u.type.isBacked = true := by
    rintro q hq ⟨y, hy, hb, hyq⟩
    obtain rfl := hr.layout.page_area_eq hy hr.mem hyq hq
    exact hb
  refine h.extend ((h.toVmmState.reserves hr hu).paging heff) hpmem (by rw [heff.vmm]; exact hps) hset
    (by omega) hu.whole (by omega) (fun q hq hb => hval (hb.imp_right (hbacked q hq)))
    (fun q => hr.reserved.usedPage) (fun q => hr.reserved.page isFreeType_of_isBacked)
    (fun q hq hb => hfresh (hbacked q hq hb)) (fun x hx hused => ?_) fun x hx hused hne => ?_
  · rcases (hr.reserved.mem_used hused).1 hx with rfl | hx
    · exact hg
    · exact h.granule x hx hused
  · rcases (hr.reserved.mem_used hused).1 hx with rfl | hx
    · exact hhigh
    · exact h.high x hx hused hne

/-! ## Growing an area -/

section

variable {side : Side} {q : Nat}

theorem Side.hasPage_grow (hroom : n ≤ side.room x) (hpad : x.lower + x.upper ≤ x.size)
    (hn : n % pageSize = 0) (hlen : x.length % pageSize = 0) :
    (side.grow n x).HasPage q ↔ x.HasPage q ∨ InPages (side.newPages n x) n q := by
  cases side <;>
    simp only [Side.grow, Side.room, Side.newPages, Area.HasPage, InPages, Area.base, Area.length,
      pageSize] at hroom hn hlen ⊢ <;>
    omega

theorem Side.newPages_inside (hroom : n ≤ side.room x) (hpad : x.lower + x.upper ≤ x.size) :
    x.start ≤ side.newPages n x ∧ side.newPages n x + n ≤ x.stop := by
  cases side <;>
    simp only [Side.room, Side.newPages, Area.base, Area.length, Area.stop] at hroom ⊢ <;>
    omega

theorem Side.base_grow_mod (hroom : n ≤ side.room x) (hg : g ∣ pageSize) (hn : n % pageSize = 0)
    (hx : x.base % g = 0) : (side.grow n x).base % g = 0 := by
  cases side with
  | top => exact hx
  | bottom =>
    have hroom' : n ≤ x.lower := hroom
    have hbase : (Side.bottom.grow n x).base = x.base - n := by
      simp only [Side.grow, Area.base]
      omega
    rw [hbase]
    exact Nat.mod_eq_zero_of_dvd
      (Nat.dvd_sub (Nat.dvd_of_mod_eq_zero hx) (hg.trans (Nat.dvd_of_mod_eq_zero hn)))

/-- The pages of the areas of some types, of which the one that has grown is one. -/
theorem Repadded.page {v : Area} (h : Repadded xs x v xs') {P : VirtualMemoryType → Prop}
    (hx : P x.type) {R : Prop} (hv : v.HasPage q ↔ x.HasPage q ∨ R) :
    (∃ y ∈ xs', P y.type ∧ y.HasPage q) ↔ (∃ y ∈ xs, P y.type ∧ y.HasPage q) ∨ R := by
  obtain ⟨pre, post, rfl, rfl⟩ := h.places
  have htype := h.same.2.2.2
  constructor
  · rintro ⟨y, hy, hp, hyq⟩
    rcases mem_splice.1 hy with rfl | hy
    · exact (hv.1 hyq).imp_left fun hxq => ⟨x, by simp, hx, hxq⟩
    · exact .inl ⟨y, mem_splice.2 (.inr hy), hp, hyq⟩
  · rintro (⟨y, hy, hp, hyq⟩ | hR)
    · rcases mem_splice.1 hy with rfl | hy
      · exact ⟨v, by simp, htype ▸ hx, hv.2 (.inl hyq)⟩
      · exact ⟨y, mem_splice.2 (.inr hy), hp, hyq⟩
    · exact ⟨v, by simp, htype ▸ hx, hv.2 (.inr hR)⟩

theorem Mapped.expand (h : Mapped full g k xs owned all) (hg : g ∣ pageSize) (hn : n % pageSize = 0)
    (he : Expands side k k' xs x n) :
    ∃ xs' owned', Repadded xs x (side.grow n x) xs' ∧ Mapped full g k' xs' owned' all := by
  obtain ⟨xs', k₁, hr, hi, heff, hrun⟩ := he.grows
  have hx : x ∈ xs := by
    obtain ⟨pre, post, rfl, -⟩ := hr.places
    simp
  have hused := isFreeType_of_isBacked he.backed
  obtain ⟨hpmem, hframes, hps⟩ := heff.paging
  have hok := h.layout.ok x hx
  have hstop := h.layout.stop_lt hx
  have hhigh := h.backed_high hx he.backed
  obtain ⟨hlo, hhi⟩ := Side.newPages_inside he.room hok.padding
  have hcount : pageCount n ≤ 2 ^ 36 := by
    have hstart := kernelVmemStart_eq
    rw [pageCount_eq hn]
    simp only [pageSize]
    omega
  obtain ⟨f, owned', hset, hfresh⟩ :=
    (h.paged.congr hpmem hframes).newFrames hps hcount hrun
  have hpages : PagingEffect k₁ k' := PagingEffect.of_run hrun
  have hgrow := fun q => Side.hasPage_grow (q := q) he.room hok.padding hn (h.whole x hx hused)
  refine ⟨xs', owned', hr, h.extend ((h.repadded hr hi heff he.room he.backed hn).paging hpages) hpmem
    (by rw [hpages.vmm]; exact hps) hset (by omega) hn (by omega)
    (fun _ _ _ _ _ => isEntryPresent_mapEntry _ _)
    (fun q => hr.page (P := (isFreeType · = false)) hused (hgrow q))
    (fun q => (hr.page (P := (·.isBacked = true)) he.backed (hgrow q)).1)
    (fun q _ _ => hfresh.ofEntry hset.paged.store)
    (fun y hy hy' => ?_) fun y hy hy' hne => ?_⟩
  all_goals
    obtain ⟨pre, post, rfl, rfl⟩ := hr.places
    rcases mem_splice.1 hy with rfl | hy
  · exact Side.base_grow_mod he.room hg hn (h.granule x hx hused)
  · exact h.granule y (mem_splice.2 (.inr hy)) hy'
  · rw [hr.same.2.1]
    exact hhigh
  · exact h.high y (mem_splice.2 (.inr hy)) hy' hne

end

/-! ## Releasing an area -/

theorem SetsPages.areaPage {freed : List Nat} {ps : Nat}
    (h : SetsPages freed ps x.base (pageCount x.length) val k k' owned owned' all) (hok : x.Ok)
    (hwhole : x.length % pageSize = 0) (hstop : x.stop < 2 ^ 64)
    (hpart : kernelVmemStart ≤ x.start ∨ x.stop ≤ identityMapVmemEnd) (q : KernelPage) :
    (x.HasPage q → entryAt k'.sh.pmem ps (q * pageSize) = val (q - x.base / pageSize)) ∧
      (¬ x.HasPage q →
        entryAt k'.sh.pmem ps (q * pageSize) = entryAt k.sh.pmem ps (q * pageSize)) := by
  have hend := hok.base_add_length
  have hbase : x.start ≤ x.base := Nat.le_add_right _ _
  rcases hpart with hhigh | hlow
  · exact h.kernelPage (by omega) hwhole (by omega) q
  · have hle : identityMapVmemEnd ≤ 2 ^ 47 := by decide
    have hlt : identityMapVmemEnd < kernelVmemStart / pageSize * pageSize := by decide
    refine ⟨fun hq => ?_, fun _ => h.kernelPage_of_low ?_ q⟩
    · have hin := (hq.inside hok).2
      have hq := Nat.mul_le_mul_right pageSize q.2.1
      omega
    · rw [pageCount_eq hwhole, Nat.div_mul_cancel (Nat.dvd_of_mod_eq_zero hwhole)]
      omega

theorem Released.page {m : Area} {q : Nat} (h : Released xs x m xs') (hlay : Layout xs)
    (hnd : xs.Nodup) (hx : x ∈ xs) {P : VirtualMemoryType → Prop}
    (hP : ∀ {t}, P t → isFreeType t = false) : (∃ y ∈ xs', P y.type ∧ y.HasPage q) ↔
      (∃ y ∈ xs, P y.type ∧ y.HasPage q) ∧ ¬ x.HasPage q := by
  constructor
  · rintro ⟨y, hy, hp, hyq⟩
    obtain ⟨hy, hne⟩ := (h.used hnd (hP hp)).1 hy
    exact ⟨⟨y, hy, hp, hyq⟩, fun hxq => hne (hlay.page_area_eq hy hx hyq hxq)⟩
  · rintro ⟨⟨y, hy, hp, hyq⟩, hno⟩
    exact ⟨y, (h.used hnd (hP hp)).2 ⟨hy, fun e => hno (e ▸ hyq)⟩, hp, hyq⟩

theorem not_present_cleared (entry : Nat) : ¬ isEntryPresent (entry - entry % 2) = true := by
  rw [isEntryPresent_iff]
  omega

variable (h : Mapped full g k xs owned all) (hx : x ∈ xs)

include h hx

theorem Mapped.part (hused : isFreeType x.type = false) :
    kernelVmemStart ≤ x.start ∨ x.stop ≤ identityMapVmemEnd := by
  by_cases ht : x.type = .identityMap
  · exact .inr ((h.layout.ok x hx).stop_le_low (h.low x hx ht))
  · exact .inl (h.high x hx hused ht)

theorem Mapped.exists_page (hused : isFreeType x.type = false) (hhigh : kernelVmemStart ≤ x.start)
    {i : Nat} (hi : i < pageCount x.length) :
    ∃ q : KernelPage, q = x.base / pageSize + i ∧ x.HasPage q ∧
      entryAt k.sh.pmem k.sh.vmm.pagingStructure (nthPage x.base i) = k.pageEntry q := by
  have hwhole := h.whole x hx hused
  have hend := (h.layout.ok x hx).base_add_length
  have hstop := h.layout.stop_lt hx
  have hbase : x.start ≤ x.base := Nat.le_add_right _ _
  have hstart := kernelVmemStart_eq
  rw [pageCount_eq hwhole] at hi
  refine ⟨⟨x.base / pageSize + i, ?_⟩, rfl, ?_, entryAt_congr ?_⟩
  · simp only [pageSize] at hi hwhole ⊢
    omega
  · exact ⟨Nat.le_add_right _ _, Nat.add_lt_add_left hi _⟩
  · unfold SamePage nthPage add64
    simp only [pageSize] at hi hwhole ⊢
    omega

theorem Mapped.ownFrames (hused : isFreeType x.type = false) :
    OwnFrames x.type k.sh.vmm.pagingStructure x.base (pageCount x.length) k owned := by
  -- a page whose frame is given back is one of the kernel part
  have hpage : ∀ i < pageCount x.length, ∀ b, b ∈ freedBy x.type
      (entryAt k.sh.pmem k.sh.vmm.pagingStructure (nthPage x.base i)) → ∃ q : KernelPage,
        q = x.base / pageSize + i ∧ BackedPage xs q ∧ b = frameOf (k.pageEntry q) := by
    intro i hi b hb
    obtain ⟨hbacked, -, rfl⟩ := mem_freedBy.1 hb
    obtain ⟨q, hq, hin, he⟩ := h.exists_page hx hused (h.backed_high hx hbacked) hi
    exact ⟨q, hq, ⟨x, hx, hbacked, hin⟩, by rw [he]⟩
  refine ⟨fun i hi b hb => ?_, fun i hi j hj b hbi hbj => ?_⟩
  · obtain ⟨q, -, hq, rfl⟩ := hpage i hi b hb
    exact h.backing.owned q hq
  · obtain ⟨q, hqi, hq, rfl⟩ := hpage i hi b hbi
    obtain ⟨r, hrj, hr, he⟩ := hpage j hj _ hbj
    obtain rfl := h.backing.distinct q r hq hr he
    omega

theorem Mapped.present (hb : x.type.isBacked = true) {i : Nat} (hi : i < pageCount x.length) :
    isEntryPresent (entryAt k.sh.pmem k.sh.vmm.pagingStructure (nthPage x.base i)) = true := by
  obtain ⟨q, -, hin, he⟩ :=
    h.exists_page hx (isFreeType_of_isBacked hb) (h.backed_high hx hb) hi
  rw [he]
  exact h.backing.mapped q ⟨x, hx, hb, hin⟩

theorem Mapped.release {m : Area}
    (hused : isFreeType x.type = false) (hr : Released xs x m xs') (hv : VmmState k' xs')
    (hps : k'.sh.vmm.pagingStructure = k.sh.vmm.pagingStructure)
    (hun : Unmapped x.type k.sh.vmm.pagingStructure x.base (pageCount x.length) k k' owned owned'
      all) : Mapped full g k' xs' owned' all where
  toVmmState := hv
  paged := hps ▸ hun.pages.paged
  granule y hy hy' := h.granule y ((hr.used h.vmm.list.nodup.of_map hy').1 hy).1 hy'
  high y hy hy' hne := h.high y ((hr.used h.vmm.list.nodup.of_map hy').1 hy).1 hy' hne
  backing := by
    have hnd := h.vmm.list.nodup.of_map
    have hpages := hun.pages.areaPage (h.layout.ok x hx) (h.whole x hx hused)
      (h.layout.stop_lt hx) (h.part hx hused)
    unfold Kernel.pageEntry
    rw [hps]
    refine h.backing.shrink (R := fun q : KernelPage => x.HasPage q)
      (fun q => hr.page (P := (isFreeType · = false)) h.layout hnd hx id)
      (fun q => (hr.page (P := (·.isBacked = true)) h.layout hnd hx isFreeType_of_isBacked).1)
      (fun q hq => ?_) (fun q hq => ?_) fun b ⟨hb, hno⟩ hall => ?_
    · rw [(hpages q).2 hq]
      exact ⟨Iff.rfl, rfl⟩
    · rw [(hpages q).1 hq]
      exact not_present_cleared _
    · have hkept : b ∉ freedBefore x.type k.sh.pmem k.sh.vmm.pagingStructure x.base
          (pageCount x.length) := by
        intro hfreed
        obtain ⟨i, hi, hbi⟩ := List.mem_flatMap.1 hfreed
        obtain ⟨hbacked, -, rfl⟩ := mem_freedBy.1 hbi
        obtain ⟨q, -, hin, he⟩ := h.exists_page hx hused (h.backed_high hx hbacked)
          (List.mem_range.1 hi)
        exact hall q hin ⟨x, hx, hbacked, hin⟩ (by rw [he])
      exact ⟨hun.pages.frames.stay b hb hkept, fun ht => hno (hun.pages.frames.tables b hb hkept ht)⟩

end

end GarbageOS
