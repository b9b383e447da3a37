import GarbageOS.Vmm.MapRuns

/-!
# Growing a region exactly

`try_expand_vmem_top` and `try_expand_vmem_bottom` round the request up to whole pages and take
it out of a padding. A size in the last page below `2^64` wraps to nothing and is granted. If
the usable range does not start at a page, neither do the new pages, and the last of them is
not mapped.
-/

namespace GarbageOS

open Lib Relation

/-! ## Rounding -/

/-- `size` rounded up to whole pages, without a bound. -/
def wholePages (size : Nat) : Nat := (size + (pageSize - 1)) / pageSize * pageSize

section

variable {size : Nat}

theorem wholePages_mod (size : Nat) : wholePages size % pageSize = 0 := Nat.mul_mod_left _ _

theorem wholePages_pos : 0 < wholePages size ↔ 0 < size := by
  unfold wholePages
  simp only [pageSize]
  omega

theorem roundUpToPage_eq_wholePages (h : size ≤ 2 ^ 64 - pageSize) :
    roundUpToPage size = wholePages size := by
  unfold wholePages
  by_cases hmod : size % pageSize = 0
  · rw [roundUpToPage_eq hmod]
    simp only [pageSize] at hmod ⊢
    omega
  · unfold roundUpToPage
    rw [if_pos hmod]
    simp only [pageSize] at hmod h ⊢
    rw [add64_eq (by omega)]
    omega

theorem roundUpToPage_wraps (h : 2 ^ 64 - pageSize < size) (hsize : size < 2 ^ 64) :
    roundUpToPage size = 0 ∧ wholePages size = 2 ^ 64 := by
  have hmod : size % pageSize ≠ 0 := by
    simp only [pageSize] at h ⊢
    omega
  unfold roundUpToPage wholePages add64
  rw [if_pos hmod]
  simp only [pageSize] at h ⊢
  omega

end

/-! ## Mapped pages of an area -/

section

variable {full : Prop} {g : Nat} {k k' : Kernel} {xs xs' : List Area} {x : Area}
  {owned owned' all : List Nat} {side : Side} {n size : Nat}

theorem Mapped.area_present_iff {v : Nat} (h : Mapped full g k xs owned all) (hx : x ∈ xs)
    (hb : x.type.isBacked = true) (hv : x.start ≤ v ∧ v < x.stop) :
    (getPhysicalAddress k.sh.pmem k.sh.vmm.pagingStructure v).mmapPresent = true ↔
      x.HasPage (v / pageSize) := by
  have hok := h.layout.ok x hx
  have hstop := h.layout.stop_lt hx
  have hhigh := h.backed_high hx hb
  have hpage : kernelVmemStart / pageSize ≤ v / pageSize ∧ v / pageSize < 2 ^ 52 := by
    refine ⟨Nat.div_le_div_right (by omega), ?_⟩
    simp only [pageSize]
    omega
  rw [getPhysicalAddress_present, ← k.pageEntry_div]
  constructor
  · intro hpresent
    obtain ⟨y, hy, hused, hyq⟩ := h.backing.only_used ⟨v / pageSize, hpage⟩ hpresent
    -- the page begins in the area as well, so the area it belongs to is this one
    have hin : x.start ≤ v / pageSize * pageSize ∧ v / pageSize * pageSize < x.stop := by
      have halign := hok.start_aligned
      simp only [pageSize] at halign ⊢
      omega
    obtain rfl := h.layout.area_eq hy hx (hyq.inside (h.layout.ok y hy)) hin
    exact hyq
  · intro hxq
    exact h.backing.mapped ⟨v / pageSize, hpage⟩ ⟨x, hx, hb, hxq⟩

/-! ## The new part of an area -/

def Area.Usable (x : Area) (v : Nat) : Prop := x.base ≤ v ∧ v < x.base + x.length

theorem Side.newPart_hasPage_iff (hroom : n ≤ side.room x) (hpad : x.lower + x.upper ≤ x.size)
    (hn : n % pageSize = 0) (hlen : x.length % pageSize = 0) :
    (∀ v, (side.grow n x).Usable v → ¬ x.Usable v → (side.grow n x).HasPage (v / pageSize)) ↔
      (0 < n → x.base % pageSize = 0 ∨ (side = .bottom ∧ 0 < x.length)) := by
  constructor
  · intro h hpos
    -- the last new address lies in a page that is not whole
    cases side with
    | top =>
      have hlast := h (x.base + x.length + n - 1)
      simp only [Side.grow, Side.room, Area.Usable, Area.HasPage, InPages, Area.base, Area.length,
        pageSize] at hroom hn hlen hlast ⊢
      omega
    | bottom =>
      have hlast := h (x.base - 1)
      simp only [Side.grow, Side.room, Area.Usable, Area.HasPage, InPages, Area.base, Area.length,
        pageSize, true_and] at hroom hn hlen hlast ⊢
      omega
  · intro h v
    cases side <;>
      simp only [Side.grow, Side.room, Area.Usable, Area.HasPage, InPages, Area.base, Area.length,
        pageSize, reduceCtorEq, false_and, true_and, or_false] at hroom hn hlen h ⊢ <;>
      omega

theorem Side.usable_grow_inside {v : Nat} (hok : x.Ok) (hroom : n ≤ side.room x)
    (hv : (side.grow n x).Usable v) : x.start ≤ v ∧ v < x.stop := by
  have hpad := hok.padding
  cases side <;>
    simp only [Side.grow, Side.room, Area.Usable, Area.base, Area.length, Area.stop]
      at hroom hv ⊢ <;>
    omega

theorem Mapped.newPart_present_iff (h : Mapped full g k' xs' owned' all) (hok : x.Ok)
    (hgrown : side.grow n x ∈ xs') (hb : x.type.isBacked = true) (hroom : n ≤ side.room x)
    (hn : n % pageSize = 0) (hlen : x.length % pageSize = 0) :
    (∀ v, (side.grow n x).Usable v → ¬ x.Usable v →
      (getPhysicalAddress k'.sh.pmem k'.sh.vmm.pagingStructure v).mmapPresent = true) ↔
      (0 < n → x.base % pageSize = 0 ∨ (side = .bottom ∧ 0 < x.length)) := by
  obtain ⟨-, hstart, hsize, htype⟩ := @Side.grow_same side n x
  rw [← Side.newPart_hasPage_iff hroom hok.padding hn hlen]
  refine forall_congr' fun v => imp_congr_right fun hv => imp_congr_right fun _ => ?_
  refine h.area_present_iff hgrown (by rw [htype]; exact hb) ?_
  unfold Area.stop
  rw [hstart, hsize]
  exact Side.usable_grow_inside hok hroom hv

/-! ## When an expansion returns -/

section

variable (hi : VmmInv k xs) (hx : x ∈ xs)

include hi hx

theorem VmmInv.isInside_newPages (hroom : n ≤ side.room x) (hn : n % pageSize = 0) :
    ∀ i < pageCount n, side.isInside (k.sh.descs x.ptr)
      (add64 (side.firstPage (k.sh.descs x.ptr) n) (i * pageSize)) = true := by
  intro i hcount
  have hpad := (hi.layout.ok x hx).padding
  have hstop := hi.layout.stop_lt hx
  have hend := hi.layout.endVaddr hi.vmm.list hx
  have hstart := (hi.vmm.list.fields hx).1
  obtain ⟨hlo, hhi⟩ := Side.newPages_inside hroom hpad
  have hlast : i * pageSize + pageSize ≤ n := by
    rw [pageCount_eq hn] at hcount
    simp only [pageSize] at hn hcount ⊢
    omega
  have hpos : 0 < pageSize := by decide
  rw [Side.firstPage_eq hi.layout hi.vmm hx hroom, add64_eq (by omega)]
  cases side with
  | top =>
    rw [Side.isInside, hend, decide_eq_true_eq]
    omega
  | bottom =>
    rw [Side.isInside, hstart, decide_eq_true_eq]
    omega

theorem VmmInv.expandPages_returns {m : Nat} (hroom : n ≤ side.room x) (hn : n % pageSize = 0)
    (hframes : FramesLeft (n / pageSize * 4 + m) k') :
    ∃ k₁, (expandPages side (k.sh.descs x.ptr) n).run k' = .ok () k₁ ∧ FramesLeft m k₁ := by
  have hpad := (hi.layout.ok x hx).padding
  have hstop := hi.layout.stop_lt hx
  have hsmall : n ≤ 2 ^ 64 - pageSize := by
    have hle : n ≤ x.size := by
      cases side <;> simp only [Side.room] at hroom <;> omega
    unfold Area.stop at hstop
    simp only [pageSize] at hn ⊢
    omega
  rw [← pageCount_eq hn] at hframes
  obtain ⟨u, k₁, hrun, hleft⟩ :=
    within_mapFrames (side.firstPage (k.sh.descs x.ptr) n) hsmall hframes
  exact ⟨k₁, Side.run_expandPages_ok.2 ⟨hi.isInside_newPages hx hroom hn, hrun⟩, hleft⟩

theorem VmmInv.tryExpand_refused (hl : .vmm ∉ k.cpu.held)
    (h : x.type.isBacked = false ∨ side.room x < roundUpToPage size) :
    (tryExpandWith kmalloc side x.ptr size true).run k = .ok false (k.locked .vmm) := by
  have htype := (hi.vmm.list.fields hx).2.2.2.2
  rw [← htype, ← Side.padding_eq hi.vmm hx] at h
  exact run_tryExpandWith_iff.2 ⟨_, _, run_acquireSpinlockHard_ok.2 ⟨hl, rfl, rfl⟩,
    hi.vmm.list.ptr_ne_null hx, .inl ⟨rfl, rfl, h⟩⟩

theorem VmmInv.tryExpand_granted {useSpinlock i : Bool} {t k₀ : Kernel} {m : Nat}
    (hb : x.type.isBacked = true) (hroom : roundUpToPage size ≤ side.room x)
    (hacq : (acquireIf useSpinlock).run k = .ok i t) (ht : t.sh = k.sh)
    (hrel : (releaseIf useSpinlock i).run (t.setDesc x.ptr
      (side.shrinkPadding (roundUpToPage size) (k.sh.descs x.ptr))) = .ok () k₀)
    (heff : DescEffect k k₀) (hframes : FramesLeft (roundUpToPage size / pageSize * 4 + m) k) :
    ∃ k', (tryExpandWith kmalloc side x.ptr size useSpinlock).run k = .ok true k' ∧
      FramesLeft m k' := by
  have htype := (hi.vmm.list.fields hx).2.2.2.2
  have hmod := roundUpToPage_mod size
  obtain ⟨k₁, hpages, hleft⟩ : ∃ k₁,
      (expandPages side (k.sh.descs x.ptr) (roundUpToPage size)).run k₀ = .ok () k₁ ∧
        FramesLeft m k₁ := hi.expandPages_returns hx hroom hmod (hframes.descs heff)
  have hquiet : k₁.sh.queueArray = 0 := by
    rw [(PagingEffect.of_run hpages).eq]
    exact heff.quiet.trans hi.quiet
  rw [← htype] at hb
  rw [← Side.padding_eq hi.vmm hx] at hroom
  rw [← ht] at hb hroom hrel hpages
  exact ⟨k₁, run_tryExpandWith_iff.2 ⟨i, t, hacq, hi.vmm.list.ptr_ne_null hx, .inr ⟨rfl, k₀, hrel, hb,
    hroom, k₁, hpages, shootdown_returns hquiet hmod⟩⟩, hleft⟩

/-- Under the lock, as the callers of `try_expand_vmem_top` and `try_expand_vmem_bottom` see it. -/
theorem VmmInv.tryExpand_returns (hl : .vmm ∉ k.cpu.held) (hb : x.type.isBacked = true)
    (hroom : roundUpToPage size ≤ side.room x)
    (hframes : FramesLeft (roundUpToPage size / pageSize * 4) k) :
    ∃ k', (tryExpandWith kmalloc side x.ptr size true).run k = .ok true k' := by
  have heff : DescEffect k (k.setDesc x.ptr
      (side.shrinkPadding (roundUpToPage size) (k.sh.descs x.ptr))) := ⟨rfl⟩
  have hacq : (acquireIf true).run k = .ok k.cpu.interrupts (k.locked .vmm) :=
    run_acquireSpinlockHard_ok.2 ⟨hl, rfl, rfl⟩
  obtain ⟨k', hrun, -⟩ := hi.tryExpand_granted (m := 0) hx hb hroom hacq rfl
    (by rw [releaseIf, onlyIf_pos rfl, run_releaseSpinlockHard, k.setDesc_relocked]) heff hframes
  exact ⟨k', hrun⟩

end

end

/-! ## Exact growth -/

def VirtualMemoryDescriptor.Usable (d : VirtualMemoryDescriptor) (v : Nat) : Prop :=
  getNoPaddingStartAddr d ≤ v ∧ v < getNoPaddingStartAddr d + getNoPaddingSize d

namespace Side

def tryExpand : Side → VMemHandle → Nat → KM Bool
  | .top => tryExpandVmemTop
  | .bottom => tryExpandVmemBottom

/-- The usable range of `d'` is that of `d` with `n` more bytes at one end. -/
def Extends : Side → Nat → (d d' : VirtualMemoryDescriptor) → Prop
  | .top, n, d, d' => getNoPaddingStartAddr d' = getNoPaddingStartAddr d ∧
      getNoPaddingSize d' = getNoPaddingSize d + n
  | .bottom, n, d, d' => getNoPaddingStartAddr d' + n = getNoPaddingStartAddr d ∧
      getNoPaddingSize d' = getNoPaddingSize d + n

/-- What an expansion by `size` bytes that returned `b` is meant to have done. -/
structure ExpandsExactly (side : Side) (p : VMemHandle) (size : Nat) (k : Kernel) (b : Bool)
    (k' : Kernel) : Prop where
  granted_iff : b = true ↔ (k.sh.descs p).type.isBacked = true ∧
    wholePages size ≤ side.padding (k.sh.descs p)
  grown : b = true → side.Extends (wholePages size) (k.sh.descs p) (k'.sh.descs p)
  mapped : b = true → ∀ v, (k'.sh.descs p).Usable v → ¬ (k.sh.descs p).Usable v →
    (getPhysicalAddress k'.sh.pmem k'.sh.vmm.pagingStructure v).mmapPresent = true
  refused : b = false → k'.sh.descs = k.sh.descs ∧ k'.sh.pmem = k.sh.pmem

/-- What the expansion of a heap, a stack or a general region needs: a size whose rounding does
not wrap and, if pages are added, a usable range that starts at a page. At the bottom the first
page of a usable range that is not empty can stand in for the last new one. -/
structure CanExpand (side : Side) (p : VMemHandle) (size : Nat) (k : Kernel) : Prop where
  small : size ≤ 2 ^ 64 - pageSize
  whole : wholePages size ≤ side.padding (k.sh.descs p) → 0 < size →
    getNoPaddingStartAddr (k.sh.descs p) % pageSize = 0 ∨
      (side = .bottom ∧ 0 < getNoPaddingSize (k.sh.descs p))

end Side

section

variable {full : Prop} {g : Nat} {k k' : Kernel} {xs : List Area} {x : Area}
  {owned all : List Nat} {side : Side} {size : Nat} {b : Bool}

theorem Side.tryExpand_eq (side : Side) (p : VMemHandle) (size : Nat) :
    side.tryExpand p size = tryExpandWith kmalloc side p size true := by
  cases side <;> rfl

theorem VmmInv.usable_iff (hi : VmmInv k xs) (hx : x ∈ xs) (v : Nat) :
    (k.sh.descs x.ptr).Usable v ↔ x.Usable v := by
  obtain ⟨hbase, hlength⟩ := hi.layout.noPadding hi.vmm hx
  unfold VirtualMemoryDescriptor.Usable Area.Usable
  rw [hbase, hlength]

/-- A granted expansion by `n` bytes extends the usable range, and the new part is mapped if the
range starts at a page. -/
theorem Mapped.expanded {n : Nat} (h : Mapped full g k xs owned all) (hg : g ∣ pageSize)
    (hx : x ∈ xs) (hn : n % pageSize = 0) (he : Expands side k k' xs x n) :
    side.Extends n (k.sh.descs x.ptr) (k'.sh.descs x.ptr) ∧
      ((∀ v, (k'.sh.descs x.ptr).Usable v → ¬ (k.sh.descs x.ptr).Usable v →
        (getPhysicalAddress k'.sh.pmem k'.sh.vmm.pagingStructure v).mmapPresent = true) ↔
      (0 < n → getNoPaddingStartAddr (k.sh.descs x.ptr) % pageSize = 0 ∨
        (side = .bottom ∧ 0 < getNoPaddingSize (k.sh.descs x.ptr)))) := by
  obtain ⟨xs', owned', hr, h'⟩ := h.expand hg hn he
  have hroom := he.room
  have hok := h.layout.ok x hx
  have hpad := hok.padding
  have hptr := (@Side.grow_same side n x).1
  have hmem : side.grow n x ∈ xs' := by
    obtain ⟨pre, post, -, rfl⟩ := hr.places
    simp
  obtain ⟨hbase, hlength⟩ := h.layout.noPadding h.vmm hx
  obtain ⟨hbase', hlength'⟩ := h'.layout.noPadding h'.vmm hmem
  have husable' := h'.usable_iff hmem
  rw [hptr] at hbase' hlength' husable'
  refine ⟨?_, ?_⟩
  · cases side <;>
      simp only [Side.Extends, hbase, hlength, hbase', hlength', Side.grow, Side.room, Area.base,
        Area.length, true_and] at hroom ⊢ <;>
      omega
  · simp only [husable', h.usable_iff hx, hbase, hlength]
    exact h'.newPart_present_iff hok hmem he.backed hroom hn
      (h.whole x hx (isFreeType_of_isBacked he.backed))

theorem Mapped.expandsExactly_iff (h : Mapped full g k xs owned all) (hg : g ∣ pageSize) (hx : x ∈ xs)
    (hsize : size < 2 ^ 64)
    (hframes : x.type.isBacked = true → wholePages size ≤ side.room x →
      FramesLeft (wholePages size / pageSize * 4) k) :
    (∃ b k', (side.tryExpand x.ptr size).run k = .ok b k' ∧ side.ExpandsExactly x.ptr size k b k') ↔
      .vmm ∉ k.cpu.held ∧ (x.type.isBacked = true → side.CanExpand x.ptr size k) := by
  have htype := (h.vmm.list.fields hx).2.2.2.2
  have hpadding : side.padding (k.sh.descs x.ptr) = side.room x := Side.padding_eq h.vmm hx
  have hroom : side.room x < 2 ^ 64 := by
    have hpad := (h.layout.ok x hx).padding
    have hstop := h.layout.stop_lt hx
    unfold Area.stop at hstop
    cases side <;> simp only [Side.room] <;> omega
  rw [Side.tryExpand_eq]
  constructor
  · rintro ⟨b, k', hrun, hexact⟩
    obtain ⟨hl, hcases⟩ := expand_cases h.toVmmInv hx hrun
    refine ⟨hl, fun hb => ?_⟩
    have hgranted := hexact.granted_iff
    rw [htype, hpadding] at hgranted
    rcases hcases with ⟨rfl, rfl, hno⟩ | ⟨rfl, he⟩
    · -- refused: the size does not fit, and has not wrapped
      have hno' : side.room x < roundUpToPage size := hno.resolve_left (by rw [hb]; decide)
      refine ⟨Nat.le_of_not_lt fun hwrap => ?_, fun hfit => ?_⟩
      · rw [(roundUpToPage_wraps hwrap hsize).1] at hno'
        exact Nat.not_lt_zero _ hno'
      · rw [hpadding] at hfit
        exact absurd (hgranted.2 ⟨hb, hfit⟩) Bool.false_ne_true
    · have hfit := (hgranted.1 rfl).2
      have hsmall : size ≤ 2 ^ 64 - pageSize := by
        refine Nat.le_of_not_lt fun hwrap => ?_
        rw [(roundUpToPage_wraps hwrap hsize).2] at hfit
        omega
      refine ⟨hsmall, fun _ hpos => ?_⟩
      rw [roundUpToPage_eq_wholePages hsmall] at he
      exact (h.expanded hg hx (wholePages_mod size) he).2.1 (hexact.mapped rfl)
        (wholePages_pos.2 hpos)
  · rintro ⟨hl, hcan⟩
    by_cases hfit : x.type.isBacked = true ∧ wholePages size ≤ side.room x
    · obtain ⟨hsmall, hwhole⟩ := hcan hfit.1
      have hround := roundUpToPage_eq_wholePages hsmall
      obtain ⟨k', hrun⟩ : ∃ k', (tryExpandWith kmalloc side x.ptr size true).run k = .ok true k' :=
        h.tryExpand_returns hx hl hfit.1 (by rw [hround]; exact hfit.2)
          (by rw [hround]; exact hframes hfit.1 hfit.2)
      obtain ⟨-, ⟨hno, -⟩ | ⟨-, he⟩⟩ := expand_cases h.toVmmInv hx hrun
      · cases hno
      rw [hround] at he
      obtain ⟨hext, hmapped⟩ := h.expanded hg hx (wholePages_mod size) he
      refine ⟨true, k', hrun, ⟨iff_of_true rfl (by rw [htype, hpadding]; exact hfit), fun _ => hext,
        fun _ => hmapped.2 fun hpos => ?_, fun hno => absurd hno.symm Bool.false_ne_true⟩⟩
      exact hwhole (by rw [hpadding]; exact hfit.2) (wholePages_pos.1 hpos)
    · have hno : x.type.isBacked = false ∨ side.room x < roundUpToPage size := by
        cases hb : x.type.isBacked with
        | false => exact .inl rfl
        | true =>
          rw [roundUpToPage_eq_wholePages (hcan hb).small]
          exact .inr (Nat.lt_of_not_le fun hle => hfit ⟨hb, hle⟩)
      refine ⟨false, k.locked .vmm, h.tryExpand_refused hx hl hno, ⟨iff_of_false Bool.false_ne_true ?_,
        fun hyes => absurd hyes Bool.false_ne_true, fun hyes => absurd hyes Bool.false_ne_true,
        fun _ => ⟨rfl, rfl⟩⟩⟩
      rw [htype, hpadding]
      exact hfit

end

/-- In every run in which no request wraps, for every region and side: an expansion does exactly what
it is meant to if the lock is free and, for a region that can be expanded, `Side.CanExpand` holds. -/
theorem expand_exact_iff {k₀ k₁ k : Kernel} {ps : Nat} {owned all : List Nat}
    (h₀ : EmptySpace k₀ ps owned all) (hinit : (initializeKernelVMM ps).run k₀ = .ok () k₁)
    (hrun : ReflTransGen (MapStep False 1) k₁ k) (side : Side) {p : VMemHandle} (hp : InVmList k p)
    {size : Nat} (hsize : size < 2 ^ 64)
    (hframes : (k.sh.descs p).type.isBacked = true → wholePages size ≤ side.padding (k.sh.descs p) →
      FramesLeft (wholePages size / pageSize * 4) k) :
    (∃ b k', (side.tryExpand p size).run k = .ok b k' ∧ side.ExpandsExactly p size k b k') ↔
      .vmm ∉ k.cpu.held ∧ ((k.sh.descs p).type.isBacked = true → side.CanExpand p size k) := by
  obtain ⟨xs, owned', h⟩ := mapped_of_run (Nat.one_dvd _) h₀ hinit hrun
  obtain ⟨x, hx, rfl⟩ := hp.exists_area h.vmm.list h.vmm.head
  rw [(h.vmm.list.fields hx).2.2.2.2, Side.padding_eq h.vmm hx] at hframes
  rw [(h.vmm.list.fields hx).2.2.2.2]
  exact h.expandsExactly_iff (Nat.one_dvd _) hx hsize hframes

theorem expand_exact_heapSpace : ∃ b k', (Side.top.tryExpand (.early 1) 1).run heapSpace = .ok b k' ∧
    Side.top.ExpandsExactly (.early 1) 1 heapSpace b k' :=
  (expand_exact_iff twoStructures_empty newSpace_run
    (.single (.allocate rfl (by decide) (by decide) heapSpace_run)) .top heapSpace_inVmList (by decide)
    fun _ _ => ⟨by decide +kernel, by decide +kernel⟩).2
    ⟨by decide +kernel, fun _ => ⟨by decide, fun _ _ => .inl (by decide +kernel)⟩⟩

/-- An expansion of the heap by `2^64 - 1` bytes is granted, and adds nothing. -/
theorem exists_wrapped_expansion : ∃ k₀ k₁ k k' : Kernel, EmptySpace k₀ (5 * pageSize) [] startedFrames ∧
    (initializeKernelVMM (5 * pageSize)).run k₀ = .ok () k₁ ∧
    (allocateKernelVirtualMemory (2 * pageSize) .heap pageSize pageSize).run k₁ = .ok (.early 1) k ∧
    (k.sh.descs (.early 1)).upperPadding < wholePages (2 ^ 64 - 1) ∧
    (tryExpandVmemTop (.early 1) (2 ^ 64 - 1)).run k = .ok true k' ∧
    getNoPaddingSize (k'.sh.descs (.early 1)) = getNoPaddingSize (k.sh.descs (.early 1)) :=
  ⟨_, _, _, _, twoStructures_empty, newSpace_run, heapSpace_run, by decide +kernel,
    eq_of_returned (by decide +kernel), by decide +kernel⟩

end GarbageOS
