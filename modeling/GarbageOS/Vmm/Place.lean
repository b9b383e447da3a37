import GarbageOS.Vmm.Ops

/-!
# Placement at a requested address

`identity_map` and the copy operation look for the descriptor that contains the requested
address, refuse if it is not free or does not contain the range, and cut the range out of it
otherwise. The end of the range is computed in 64 bits.
-/

namespace GarbageOS

open Lib

section

variable {k k' k₁ : Kernel} {xs xs' pre post : List Area} {d u x : Area} {p : DescPtr}
  {a n size : Nat} {ft ut : VirtualMemoryType}

/-- Where the two operations look for the address `a`: in the area that contains it or, above
all areas, in the last one. -/
def FoundAt (xs : List Area) (a : Nat) (d : Area) : Prop :=
  ∃ pre post, xs = pre ++ d :: post ∧ (∀ x ∈ pre, x.stop ≤ a) ∧ (a < d.stop ∨ post = [])

theorem exists_foundAt (hv : VmmList k xs) (hlay : Layout xs) (a : Nat) :
    ∃ d, FoundAt xs a d ∧ (findFromHead (endsAbove a)).run k = .ok d.ptr k := by
  obtain ⟨pre, d, post, rfl, hfind, hpre, htest⟩ := run_findFromHead hv.list hv.head hlay
    (endsAbove a)
  refine ⟨d, ⟨pre, post, rfl, fun x hx => ?_, htest.imp_left fun htest => ?_⟩, hfind⟩
  · have := hpre x hx
    rw [endsAbove, hlay.endVaddr hv.list (by simp [hx])] at this
    exact Nat.le_of_not_lt (of_decide_eq_false this)
  · rw [endsAbove, hlay.endVaddr hv.list (by simp)] at htest
    exact of_decide_eq_true htest

theorem FoundAt.mem {a : Nat} (h : FoundAt xs a d) : d ∈ xs := by
  obtain ⟨pre, post, rfl, -, -⟩ := h
  simp

theorem FoundAt.eq {a : Nat} (h : FoundAt xs a d) (hlay : Layout xs) (hx : x ∈ xs)
    (hlo : x.start ≤ a) (hhi : a < x.stop) : x = d := by
  obtain ⟨pre, post, rfl, hpre, hfound⟩ := h
  rcases mem_splice.1 hx with rfl | hx
  · rfl
  · rcases List.mem_append.1 hx with hx | hx
    · have := hpre x hx
      omega
    · have hnext := (hlay.tiles.around fun y _ => y.start_le_bound).2 x hx
      have hle := d.stop_le_bound
      rcases hfound with hfound | rfl
      · omega
      · cases hx

theorem FoundAt.unique {d' : Area} (h : FoundAt xs a d) (h' : FoundAt xs a d') : d = d' := by
  obtain ⟨pre, post, rfl, hpre, hd⟩ := h
  obtain ⟨pre', post', he, hpre', hd'⟩ := h'
  -- of two different places the second one has the first area before it
  rcases List.append_eq_append_iff.1 he with ⟨as, rfl, has⟩ | ⟨as, rfl, has⟩
  · cases as with
    | nil => exact (List.cons.inj has).1
    | cons y ys =>
      obtain ⟨rfl, rfl⟩ := List.cons.inj has
      have := hpre' d (by simp)
      rcases hd with hd | hd
      · omega
      · simp at hd
  · cases as with
    | nil => exact (List.cons.inj has).1.symm
    | cons y ys =>
      obtain ⟨rfl, rfl⟩ := List.cons.inj has
      have := hpre d' (by simp)
      rcases hd' with hd' | hd'
      · omega
      · simp at hd'

/-- The range lies in one area of the type `t`. -/
def Contained (xs : List Area) (t : VirtualMemoryType) (a n : Nat) : Prop :=
  ∃ d ∈ xs, d.type = t ∧ d.start ≤ a ∧ a + n ≤ d.stop

/-- The test of the two operations, with the end of the range in 64 bits. -/
def RangePasses (ft : VirtualMemoryType) (a n : Nat) (d : Area) : Prop :=
  d.type = ft ∧ d.start ≤ a ∧ add64 a n ≤ d.stop

theorem rangePasses_iff (ft : VirtualMemoryType) (a n : Nat) (hlay : Layout xs) (hv : VmmList k xs)
    (hd : d ∈ xs) :
    (!containsRange (k.sh.descs d.ptr) a n || (k.sh.descs d.ptr).type != ft) = false ↔
      RangePasses ft a n d := by
  obtain ⟨hstart, -, -, -, htype⟩ := hv.list.fields hd
  rw [containsRange, hlay.endVaddr hv.list hd, hstart, htype]
  simp [RangePasses, and_comm]

theorem FoundAt.contained_iff (h : FoundAt xs a d) (hlay : Layout xs) (hpos : 0 < n)
    (hfit : a + n < 2 ^ 64) : Contained xs ft a n ↔ RangePasses ft a n d := by
  unfold RangePasses
  rw [add64_eq hfit]
  constructor
  · rintro ⟨x, hx, ht, hlo, hhi⟩
    obtain rfl := h.eq hlay hx hlo (by omega)
    exact ⟨ht, hlo, hhi⟩
  · rintro ⟨ht, hlo, hhi⟩
    exact ⟨d, h.mem, ht, hlo, hhi⟩

theorem Layout.stop_last (hlay : Layout (pre ++ [d])) : d.stop = kernelVmemEnd := by
  obtain ⟨b, -, -, hbound⟩ := tiles_append.1 hlay.tiles
  have hb : d.bound = kernelVmemEnd := hbound
  have hne : kernelVmemStart ≠ kernelVmemEnd := by decide
  unfold Area.bound at hb
  split at hb
  · exact (hne hb).elim
  · exact hb

/-- The end of a range that wraps is below that of the area it was looked for in. -/
theorem FoundAt.passes_of_wrap (h : FoundAt xs a d) (hlay : Layout xs) (ht : d.type = ft)
    (hlo : d.start ≤ a) (ha : a < 2 ^ 64 ∧ a % pageSize = 0) (hn : n < 2 ^ 64 ∧ n % pageSize = 0)
    (hwrap : 2 ^ 64 ≤ a + n) : RangePasses ft a n d := by
  refine ⟨ht, hlo, ?_⟩
  obtain ⟨pre, post, rfl, -, hd⟩ := h
  unfold add64
  simp only [pageSize] at ha hn
  rcases hd with hd | rfl
  · omega
  · have hstop := hlay.stop_last
    have hend : kernelVmemEnd = 2 ^ 64 - 4096 := by decide
    omega

/-! ## The critical section -/

theorem identityMap_eq (a n : Nat) : identityMap a n = (do
    kassert (a != 0)
    kassert (n % pageSize == 0)
    kassert (a % pageSize == 0)
    return (← withLock .vmm (placeRegion .identityMapFree .identityMap a n)).getD .null) := by
  unfold identityMap placeRegion withLock
  simp only [bind_assoc, pure_bind]
  refine bind_congr fun _ => bind_congr fun _ => bind_congr fun _ => bind_congr fun _ =>
    bind_congr fun _ => bind_congr fun _ => bind_congr fun _ => bind_congr fun d => ?_
  by_cases hc : containsRange d a n = true <;> by_cases ht : d.type = .identityMapFree <;>
    simp [hc, ht]

theorem CutReturns.setType {start : Nat} {f g : Option Area} {t : VirtualMemoryType}
    (h : CutReturns k k₁ pre d post start size p u f g) (hlay : Layout (pre ++ d :: post))
    (hused : isFreeType t = false) (halign : start % pageSize = 0) (hpos : 0 < size) :
    ∃ xs', Reserves k (k₁.setDesc u.ptr { k₁.sh.descs u.ptr with type := t })
      (pre ++ d :: post) ⟨p, start, size, 0, 0, t⟩ xs' := by
  have hv : VmmList k₁ (pre ++ f.toList ++ u :: (g.toList ++ post)) := by
    have := h.vmm
    rwa [cutPieces_append] at this
  obtain ⟨h1, h2, h3, h4, -⟩ := hv.list.fields (d := u) (by simp)
  have hv' := hv.edit (u := ⟨p, start, size, 0, 0, t⟩)
    (v := { k₁.sh.descs u.ptr with type := t })
    (by
      simp only [h1, h2, h3, h4]
      rw [h.ptr, h.start, h.size, h.piece.upper, h.piece.lower])
    rfl rfl rfl
  rw [← cutPieces_append] at hv'
  refine ⟨_, h.reserves hlay hv' (DescEffect.setDesc _ _ _) h.start.symm h.size.symm hused
    (Nat.zero_le _) halign hpos⟩

/-- Only the log of flushed addresses changes. -/
structure CpuEffect (k k' : Kernel) : Prop where
  eq : k' = { k with cpu := { k.cpu with flushed := k'.cpu.flushed } }

theorem CpuEffect.trans {k₁ k₂ k₃ : Kernel} (h₁ : CpuEffect k₁ k₂) (h₂ : CpuEffect k₂ k₃) :
    CpuEffect k₁ k₃ :=
  ⟨h₂.eq.trans (by rw [h₁.eq])⟩

instance : IsPreorder Kernel CpuEffect where
  refl _ := ⟨rfl⟩
  trans _ _ _ := CpuEffect.trans

theorem CpuEffect.sh (h : CpuEffect k k') : k'.sh = k.sh := by rw [h.eq]

theorem CpuEffect.paging (h : CpuEffect k k') : PagingEffect k k' := ⟨by rw [h.eq]⟩

instance (vaddr : Nat) : Kept CpuEffect (deletePageTranslationCache vaddr) :=
  ⟨.modify fun _ => ⟨rfl⟩⟩

/-- The critical section refuses or cuts, as the test says. Without a wrap the range is reserved. -/
theorem run_placeRegion_ok {r : Option DescPtr} (hv : VmmList k xs) (hlay : Layout xs)
    (hheld : .vmm ∈ k.cpu.held) (hused : isFreeType ut = false)
    (h : (placeRegion ft ut a n).run k = .ok r k') :
    ∃ d, FoundAt xs a d ∧ ((r = none ∧ ¬ RangePasses ft a n d ∧ k' = k) ∨
      ∃ p, r = some p ∧ p ≠ .null ∧ RangePasses ft a n d ∧
        (0 < n → a + n < 2 ^ 64 → CanAllocate (cutsNeeded d a n) k ∧
          ∃ xs', Reserves k k' xs ⟨p, a, n, 0, 0, ut⟩ xs')) := by
  unfold placeRegion at h
  rw [run_get_bind, run_kassert_bind] at h
  obtain ⟨-, h⟩ := h
  obtain ⟨d, hfound, hfind⟩ := exists_foundAt hv hlay a
  have hpass := rangePasses_iff ft a n hlay hv hfound.mem
  rw [run_ok_bind hfind, run_readDesc_bind] at h
  obtain ⟨-, h⟩ := h
  refine ⟨d, hfound, ?_⟩
  split at h
  · next hno =>
    cases h
    refine .inl ⟨rfl, fun hp => ?_, rfl⟩
    rw [hpass.2 hp] at hno
    cases hno
  · next hyes =>
    have hp := hpass.1 (Bool.eq_false_iff.2 hyes)
    obtain ⟨cut, k₁, hcut, h⟩ := run_bind_ok.1 h
    rw [run_readDesc_bind, run_kassert_bind, run_modifyDesc_bind] at h
    obtain ⟨hcut0, halign, -, h⟩ := h
    cases h
    refine .inr ⟨cut, rfl, hcut0, hp, fun hpos hfit => ?_⟩
    obtain ⟨-, hlo, hhi⟩ := hp
    rw [add64_eq hfit] at hhi
    have hd := hlay.ok d hfound.mem
    have hin := hd.inside hlo (by omega)
    obtain ⟨pre, post, rfl⟩ := List.append_of_mem hfound.mem
    obtain ⟨hcan, u, f, g, hret⟩ := run_cutDescriptor_ok hv hlay hheld hlo hhi hin hcut
    have hptr := hret.ptr
    subst hptr
    have hu : (k₁.sh.descs u.ptr).startVaddr = a := by
      rw [(hret.vmm.list.fields (d := u) (by simp [cutPieces])).1, hret.start]
    exact ⟨hcan, hret.setType hlay hused (by simpa [hu] using halign) hpos⟩

/-! ## The two operations -/

end

/-- The operations that take an address. -/
inductive Placement where
  | identity
  | copy (src flags : Nat)

namespace Placement

def call : Placement → (a n : Nat) → KM VMemHandle
  | identity, a, n => identityMap a n
  | copy src flags, a, n => copyMemoryMappingFromPagingStructure src a n flags

def ft : Placement → VirtualMemoryType
  | identity => .identityMapFree
  | copy .. => .free

def ut : Placement → VirtualMemoryType
  | identity => .identityMap
  | copy .. => .memoryMapping

/-- What is done with a reserved range. -/
def fill : Placement → (a n : Nat) → KM Unit
  | identity, _, _ => pure ()
  | copy src flags, a, n => fillCopy src flags a n

section

variable {pl : Placement} {k k' : Kernel} {xs : List Area} {p : VMemHandle} {a n : Nat}

theorem isFreeType_ft (pl : Placement) : isFreeType pl.ft = true := by cases pl <;> rfl

theorem isFreeType_ut (pl : Placement) : isFreeType pl.ut = false := by cases pl <;> rfl

theorem place_of_run (h : (pl.call a n).run k = .ok p k') : .vmm ∉ k.cpu.held ∧
    ∃ r t, (placeRegion pl.ft pl.ut a n).run (k.locked .vmm) = .ok r t ∧ p = r.getD .null ∧
      (r = none → k' = t.unlocked .vmm k.cpu.interrupts) ∧
      (r ≠ none → (pl.fill a n).run (t.unlocked .vmm k.cpu.interrupts) = .ok () k') := by
  cases pl with
  | identity =>
    rw [call, identityMap_eq, run_kassert_bind, run_kassert_bind, run_kassert_bind] at h
    obtain ⟨-, -, -, h⟩ := h
    obtain ⟨r, k₁, hplace, h⟩ := run_bind_ok.1 h
    cases h
    obtain ⟨hl, t, hbody, rfl⟩ := run_withLock_ok.1 hplace
    exact ⟨hl, r, t, hbody, rfl, fun _ => rfl, fun _ => rfl⟩
  | copy src flags =>
    rw [call, copyMemoryMapping_eq, run_kassert_bind] at h
    obtain ⟨r, k₁, hplace, h⟩ := run_bind_ok.1 h.2
    obtain ⟨hl, t, hbody, rfl⟩ := run_withLock_ok.1 hplace
    refine ⟨hl, r, t, hbody, ?_⟩
    cases r with
    | none =>
      cases h
      exact ⟨rfl, fun _ => rfl, fun hno => (hno rfl).elim⟩
    | some cut =>
      obtain ⟨_, k₂, hfill, hret⟩ := run_bind_ok.1 h
      cases hret
      exact ⟨rfl, nofun, fun _ => hfill⟩

/-- A request that does not wrap is refused, or its range is reserved and filled. -/
theorem run_call_ok (hi : VmmInv k xs) (hsize : 0 < n) (hfit : a + n < 2 ^ 64)
    (h : (pl.call a n).run k = .ok p k') :
    (p = .null ∧ ¬ Contained xs pl.ft a n ∧ k = k') ∨
      (p ≠ .null ∧ Contained xs pl.ft a n ∧ ∃ xs' k₁,
        Reserves k k₁ xs ⟨p, a, n, 0, 0, pl.ut⟩ xs' ∧ (pl.fill a n).run k₁ = .ok () k') := by
  obtain ⟨-, r, t, hplace, rfl, hnone, hsome⟩ := place_of_run h
  have hv : VmmList (k.locked .vmm) xs := hi.vmm.congr_sh rfl
  obtain ⟨d, hfound, ⟨rfl, hno, rfl⟩ | ⟨q, rfl, hq0, hp, hr⟩⟩ :=
    run_placeRegion_ok hv hi.layout List.mem_cons_self pl.isFreeType_ut hplace
  · rw [← hfound.contained_iff hi.layout hsize hfit] at hno
    exact .inl ⟨rfl, hno, k.relocked.symm.trans (hnone rfl).symm⟩
  · obtain ⟨-, xs', hr⟩ := hr hsize hfit
    exact .inr ⟨hq0, (hfound.contained_iff hi.layout hsize hfit).2 hp, xs', _, hr.unlock,
      hsome (Option.some_ne_none q)⟩

theorem run_fill_copy_ok {src flags : Nat} (hi : VmmInv k xs)
    (h : ((copy src flags).fill a n).run k = .ok () k') :
    ∃ k₁, (copyPagingStructureMappingNoPageInvalidation src k.sh.vmm.pagingStructure a n flags).run k =
      .ok () k₁ ∧ PagingEffect k k₁ ∧ CpuEffect k₁ k' := by
  unfold fill fillCopy at h
  rw [run_get_bind] at h
  obtain ⟨_, k₁, hcopy, h⟩ := run_bind_ok.1 h
  obtain ⟨_, k₂, hflush, h⟩ := run_bind_ok.1 h
  obtain ⟨_, k₃, hshoot, hlock⟩ := run_bind_ok.1 h
  obtain ⟨-, t, ht, rfl⟩ := run_withLock_ok.1 hlock
  cases ht
  have heff₁ : PagingEffect k k₁ := .of_run hcopy
  have heff₂ : CpuEffect k₁ k₂ := Kept.keeps hflush
  obtain ⟨rfl, -⟩ := shootdown_quiet (hi.paging (heff₁.trans heff₂.paging)).quiet hshoot
  exact ⟨k₁, hcopy, heff₁, by rw [Kernel.relocked]; exact heff₂⟩

theorem fill_paging (hi : VmmInv k xs) (h : (pl.fill a n).run k = .ok () k') : PagingEffect k k' := by
  cases pl with
  | identity => cases h; exact ⟨rfl⟩
  | copy src flags =>
    obtain ⟨k₁, -, heff₁, heff₂⟩ := run_fill_copy_ok hi h
    exact heff₁.trans heff₂.paging

end

end Placement

end GarbageOS
