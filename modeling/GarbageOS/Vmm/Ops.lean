import GarbageOS.Vmm.Release
import GarbageOS.Vmm.Restore

/-!
# The operations of the virtual memory manager on the address space

What each operation that returns did to the areas: `memory_map` and
`allocate_kernel_virtual_memory` reserve an area, the expansions take pages out of a padding
and `deallocate_kernel_virtual_memory` releases an area. What they then do to the page tables
is left as the run of their loop.
-/

namespace GarbageOS

open Lib

/-- The area `u` was cut out of a free one. -/
structure Reserved (xs : List Area) (u : Area) (xs' : List Area) : Prop where
  used : isFreeType u.type = false
  places : ∃ pre d post f g, xs = pre ++ d :: post ∧ xs' = pre ++ (cutPieces u f g ++ post) ∧
    isFreeType d.type = true ∧ Cuts d u f g

/-- The kernel address space, before the shootdown subsystem is initialised. -/
structure VmmInv (k : Kernel) (xs : List Area) : Prop where
  vmm : VmmList k xs
  layout : Layout xs
  quiet : k.sh.queueArray = 0

section

variable {k k' k₁ : Kernel} {xs xs' pre post : List Area} {d u x : Area} {p : DescPtr}
  {size up lo : Nat} {type : VirtualMemoryType}

theorem Reserved.mem_used (h : Reserved xs u xs') (hx : isFreeType x.type = false) :
    x ∈ xs' ↔ x = u ∨ x ∈ xs := by
  obtain ⟨pre, d, post, f, g, rfl, rfl, hd, hc⟩ := h.places
  have hxd : x ≠ d := fun e => by rw [e, hd] at hx; cases hx
  have hpiece : ∀ y : Area, y.PieceOf d → x ≠ y := by
    rintro y hy rfl
    rw [hy.type, hd] at hx
    cases hx
  have hf : x ∉ f.toList := fun hm => hpiece x (hc.before x (Option.mem_toList.1 hm)).1 rfl
  have hg : x ∉ g.toList := fun hm => hpiece x (hc.after x (Option.mem_toList.1 hm)).1 rfl
  simp only [cutPieces, List.mem_append, List.mem_cons]
  tauto

theorem Area.Ok.kernelPart (h : d.Ok) (ht : d.type = .free) : kernelVmemStart ≤ d.start := by
  have hlow := (h.low_iff ht rfl).not.2 (by decide)
  have hpart := h.inPart
  unfold Area.InPart at hpart
  omega

theorem VmmList.congr_sh (h : VmmList k xs) (hsh : k'.sh = k.sh) : VmmList k' xs :=
  ⟨hsh ▸ h.list, hsh ▸ h.head, hsh ▸ h.pool⟩

/-- Frames and page tables say nothing about the descriptors. -/
theorem VmmInv.paging (h : VmmInv k xs) (heff : PagingEffect k k') : VmmInv k' xs := by
  refine ⟨⟨?_, ?_, ?_⟩, h.layout, ?_⟩
  · rw [heff.descs]; exact h.vmm.list
  · rw [heff.vmm]; exact h.vmm.head
  · have hp := h.vmm.pool
    rw [heff.eq]
    exact { hp with }
  · rw [heff.eq]; exact h.quiet

theorem DescEffect.quiet (h : DescEffect k k') : k'.sh.queueArray = k.sh.queueArray := by rw [h.eq]

theorem shootdown_quiet {kmalloc : Nat → KM Nat} {a n : Nat} {v : Unit} (hq : k.sh.queueArray = 0)
    (h : (shootdown kmalloc a n).run k = .ok v k') : k' = k ∧ n % pageSize = 0 := by
  unfold shootdown at h
  rw [run_kassert_bind, shootdownRange_uninitialized hq] at h
  obtain ⟨hmod, h⟩ := h
  cases h
  exact ⟨rfl, by simpa using hmod⟩

theorem run_loadIdentityMapPages_ok {a n : Nat} {handle : VMemHandle} {v : Unit}
    (hq : k.sh.queueArray = 0) (h : (loadIdentityMapPages a n handle).run k = .ok v k') :
    n % pageSize = 0 ∧ (mapIdentityPages a (addressPageCount a (add64 a n))).run k = .ok () k' := by
  unfold loadIdentityMapPages at h
  rw [run_kassert_bind, run_kassert_bind, run_kassert_bind] at h
  obtain ⟨-, -, -, h⟩ := h
  obtain ⟨_, k₁, hlock, h⟩ := run_bind_ok.1 h
  obtain ⟨_, k₂, hmap, hshoot⟩ := run_bind_ok.1 h
  obtain ⟨-, t, ht, rfl⟩ := run_withLock_ok.1 hlock
  rw [run_get_bind, run_kassert_ok] at ht
  obtain ⟨-, rfl⟩ := ht
  rw [k.relocked] at hmap
  obtain ⟨rfl, hmod⟩ :=
    shootdown_quiet (by rw [(PagingEffect.of_run hmap).eq]; exact hq) hshoot
  exact ⟨hmod, hmap⟩

theorem shootdown_returns {a n : Nat} (hq : k.sh.queueArray = 0) (hn : n % pageSize = 0) :
    (shootdown kmalloc a n).run k = .ok () k := by
  unfold shootdown
  rw [run_kassert_bind]
  exact ⟨by simpa using hn, shootdownRange_uninitialized hq⟩

/-! ## Reserving an area -/

/-- What a reserving operation did in its critical section. -/
structure Reserves (k k' : Kernel) (xs : List Area) (u : Area) (xs' : List Area) : Prop where
  vmm : VmmList k' xs'
  layout : Layout xs'
  reserved : Reserved xs u xs'
  effect : DescEffect k k'

theorem Reserves.inv (h : Reserves k k' xs u xs') (hi : VmmInv k xs) : VmmInv k' xs' :=
  ⟨h.vmm, h.layout, h.effect.quiet.trans hi.quiet⟩

theorem Reserves.unlock {l : Lock} (h : Reserves (k.locked l) k' xs u xs') :
    Reserves k (k'.unlocked l k.cpu.interrupts) xs u xs' :=
  ⟨h.vmm.congr_sh rfl, h.layout, h.reserved, h.effect.unlock⟩

/-- The end of each of these operations: the area that was cut gets its type and padding. -/
theorem CutReturns.reserves {start : Nat} {v : Area} {f g : Option Area}
    (h : CutReturns k k₁ pre d post start size p u f g) (hlay : Layout (pre ++ d :: post))
    (hv : VmmList k' (pre ++ (cutPieces v f g ++ post))) (heff : DescEffect k₁ k')
    (hstart : v.start = u.start) (hsize : v.size = u.size) (hused : isFreeType v.type = false)
    (hpad : v.lower + v.upper ≤ v.size) (halign : v.start % pageSize = 0) (hpos : 0 < v.size) :
    Reserves k k' (pre ++ d :: post) v (pre ++ (cutPieces v f g ++ post)) := by
  have hstop : v.stop = u.stop := by unfold Area.stop; rw [hstart, hsize]
  have hc : Cuts d v f g := by
    have := h.cuts
    exact ⟨hstart ▸ this.before, hstop ▸ this.after, hstart ▸ this.start, hstop ▸ this.stop,
      hstart ▸ this.inside⟩
  refine ⟨hv, hlay.cut hc h.free hused hpad halign (hsize ▸ h.size_aligned) hpos, ⟨hused, ?_⟩,
    h.effect.trans heff⟩
  exact ⟨pre, d, post, f, g, rfl, rfl, h.free, hc⟩

theorem cutPieces_append (u : Area) (f g : Option Area) (post : List Area) :
    pre ++ (cutPieces u f g ++ post) = pre ++ f.toList ++ u :: (g.toList ++ post) := by
  simp [cutPieces]

/-- The area at `a` is the first free one of the kernel part with `n` bytes. -/
def FirstFit (xs : List Area) (n a : Nat) : Prop :=
  ∃ pre d post, xs = pre ++ d :: post ∧ d.start = a ∧ d.type = .free ∧ n ≤ d.size ∧
    ∀ x ∈ pre, ¬ (x.type = .free ∧ n ≤ x.size)

/-- The first bytes of `d` are cut for a request, with a new descriptor for the rest of it. -/
structure FitsAt (k : Kernel) (xs : List Area) (n : Nat) (d : Area) : Prop where
  mem : d ∈ xs
  first : FirstFit xs n d.start
  rest : n < d.size → CanAllocate 1 k

theorem FirstFit.kernelPart {n a : Nat} (h : FirstFit xs n a) (hlay : Layout xs) :
    kernelVmemStart ≤ a := by
  obtain ⟨pre, d, post, rfl, rfl, hfree, -⟩ := h
  exact (hlay.ok d (by simp)).kernelPart hfree

theorem isFreeOfSize_eq (hv : VmmList k xs) (hx : x ∈ xs) (n : Nat) :
    isFreeOfSize n (k.sh.descs x.ptr) = decide (x.type = .free ∧ n ≤ x.size) := by
  obtain ⟨-, hsize, -, -, htype⟩ := hv.list.fields hx
  rw [isFreeOfSize, hsize, htype, Bool.eq_iff_iff]
  simp [and_comm]

theorem findFreeOfSize_ok (size : Nat) (hv : VmmList k xs) (hlay : Layout xs) :
    ∃ pre d post, xs = pre ++ d :: post ∧
      (findFromHead (isFreeOfSize size)).run k = .ok d.ptr k ∧
      (∀ y ∈ pre, ¬ (y.type = .free ∧ size ≤ y.size)) ∧
      ((d.type = .free ∧ size ≤ d.size) ∨ post = []) := by
  obtain ⟨pre, d, post, hxs, hfind, hpre, hd⟩ := run_findFromHead hv.list hv.head hlay
    (isFreeOfSize size)
  refine ⟨pre, d, post, hxs, hfind, fun y hy => ?_, ?_⟩
  · have := hpre y hy
    rw [isFreeOfSize_eq hv (by simp [hxs, hy])] at this
    exact of_decide_eq_false this
  · rw [isFreeOfSize_eq hv (by simp [hxs]), decide_eq_true_eq] at hd
    exact hd

theorem run_cutRegion_ok (hv : VmmList k xs) (hlay : Layout xs) (hheld : .vmm ∈ k.cpu.held)
    (hused : isFreeType type = false) (hpad : lo + up ≤ size) (hpos : 0 < size)
    (h : (cutRegion size type up lo).run k = .ok p k') :
    ∃ d xs', FitsAt k xs size d ∧ Reserves k k' xs ⟨p, d.start, size, up, lo, type⟩ xs' := by
  unfold cutRegion at h
  obtain ⟨pre, d, post, rfl, hfind, hbefore, -⟩ := findFreeOfSize_ok size hv hlay
  have hd := hlay.ok d (by simp)
  have htype := (hv.list.fields (d := d) (by simp)).2.2.2.2
  rw [run_ok_bind hfind, run_readDesc_bind, run_check_bind, htype] at h
  obtain ⟨-, hfree, h⟩ := h
  have hdfree : d.type = .free := by simpa using hfree
  obtain ⟨q, k₁, hcut, h⟩ := run_bind_ok.1 h
  obtain ⟨hle, hcan, u, g, hret⟩ := run_cutDescriptorStart_ok hv hlay hheld hcut
  have hptr := hret.ptr
  subst hptr
  rw [run_modifyDesc_bind] at h
  obtain ⟨-, h⟩ := h
  rw [run_readDesc_bind, run_kassert_bind, run_modifyDesc_bind] at h
  obtain ⟨-, halign, -, h⟩ := h
  cases h
  have hv₁ : VmmList k₁ (pre ++ u :: (g.toList ++ post)) := by
    have := hret.vmm
    rw [cutPieces_append] at this
    simpa using this
  obtain ⟨hustart, husize, -, -, -⟩ := hv₁.list.fields (d := u) (by simp)
  simp only [Kernel.setDesc_descs, Function.update_self, hustart, beq_iff_eq] at halign
  -- the type and the padding of the new area
  have hv₂ : VmmList _ (pre ++ (⟨u.ptr, u.start, u.size, u.upper, u.lower, type⟩ : Area) ::
      (g.toList ++ post)) :=
    hv₁.edit (v := { k₁.sh.descs u.ptr with type := type }) (by
      obtain ⟨h1, h2, h3, h4, -⟩ := hv₁.list.fields (d := u) (by simp)
      simp only [h1, h2, h3, h4]) rfl rfl rfl
  have hv₃ : VmmList _ (pre ++ (⟨u.ptr, u.start, u.size, up, lo, type⟩ : Area) ::
      (g.toList ++ post)) :=
    hv₂.edit (v := { k₁.sh.descs u.ptr with
      type := type, lowerPadding := lo, upperPadding := up }) (by
      simp only [hustart, husize]) (by simp) (by simp) (by simp)
  have hsize := hret.size
  subst hsize
  refine ⟨d, _, ⟨by simp, ⟨pre, d, post, rfl, rfl, hdfree, hle, hbefore⟩, hcan⟩, hret.start ▸
    hret.reserves hlay (v := ⟨u.ptr, u.start, u.size, up, lo, type⟩) ?_
      ((DescEffect.setDesc _ _ _).trans (DescEffect.setDesc _ _ _)) rfl rfl hused hpad halign hpos⟩
  rw [cutPieces_append]
  simpa using hv₃

/-! ## The part of an area between its paddings -/

namespace Area

def base (x : Area) : Nat := x.start + x.lower

def length (x : Area) : Nat := x.size - x.lower - x.upper

end Area

theorem Layout.noPadding (hlay : Layout xs) (hv : VmmList k xs) (hx : x ∈ xs) :
    getNoPaddingStartAddr (k.sh.descs x.ptr) = x.base ∧
      getNoPaddingSize (k.sh.descs x.ptr) = x.length := by
  obtain ⟨hstart, hsize, hupper, hlower, -⟩ := hv.list.fields hx
  have hpad := (hlay.ok x hx).padding
  have hstop := hlay.stop_lt hx
  unfold Area.stop at hstop
  have hsub : sub64 x.size x.upper = x.size - x.upper := sub64_eq (by omega) (by omega)
  rw [getNoPaddingStartAddr, getNoPaddingSize, hstart, hsize, hupper, hlower,
    add64_eq (by omega), hsub, sub64_eq (by omega) (by omega)]
  refine ⟨rfl, ?_⟩
  unfold Area.length
  omega

theorem Reserves.mem (h : Reserves k k' xs u xs') : u ∈ xs' :=
  (h.reserved.mem_used h.reserved.used).2 (.inl rfl)

/-! ## `memory_map` and `allocate_kernel_virtual_memory` -/

def mapFrames (vaddr size : Nat) : KM Unit :=
  forPages size fun i => mapNewFrame (add64 vaddr (i * pageSize))

instance (vaddr size : Nat) : Kept PagingEffect (mapFrames vaddr size) := by
  unfold mapFrames; infer_instance

/-- The critical section the two share, and the descriptor they read in it. -/
theorem run_reserveRegion_ok {t : Kernel} {v : VirtualMemoryDescriptor} (hi : VmmInv k xs)
    (hused : isFreeType type = false) (hpad : lo + up ≤ size) (hpos : 0 < size)
    (h : (do
        let cut ← cutRegion size type up lo
        return (cut, ← readDesc cut)).run (k.locked .vmm) = .ok (p, v) t) :
    ∃ d xs', FitsAt (k.locked .vmm) xs size d ∧
      Reserves k (t.unlocked .vmm k.cpu.interrupts) xs ⟨p, d.start, size, up, lo, type⟩ xs' ∧
      getNoPaddingStartAddr v = d.start + lo ∧ getNoPaddingSize v = size - lo - up := by
  obtain ⟨q, k₁, hcut, h⟩ := run_bind_ok.1 h
  rw [run_readDesc_bind] at h
  obtain ⟨-, h⟩ := h
  cases h
  have hv : VmmList (k.locked .vmm) xs := hi.vmm.congr_sh rfl
  obtain ⟨d, xs', hd, hr⟩ := run_cutRegion_ok hv hi.layout List.mem_cons_self hused hpad hpos hcut
  obtain ⟨h1, h2⟩ := hr.layout.noPadding hr.vmm hr.mem
  exact ⟨d, xs', hd, hr.unlock, h1, h2⟩

end

/-- The operations that choose the address. -/
inductive Request where
  | memoryMap (paddr size flags : Nat)
  | allocate (size : Nat) (type : VirtualMemoryType) (upper lower : Nat)

namespace Request

def call : Request → KM VMemHandle
  | memoryMap paddr size flags => GarbageOS.memoryMap paddr size flags
  | allocate size type upper lower => allocateKernelVirtualMemory size type upper lower

def size : Request → Nat
  | memoryMap _ size _ => size
  | allocate size .. => size

def upper : Request → Nat
  | memoryMap .. => memoryMapPadding
  | allocate _ _ upper _ => upper

def lower : Request → Nat
  | memoryMap .. => memoryMapPadding
  | allocate _ _ _ lower => lower

def type : Request → VirtualMemoryType
  | memoryMap .. => .memoryMapping
  | allocate _ type _ _ => type

def padded (r : Request) : Nat := r.size + (r.lower + r.upper)

/-- `allocate_kernel_virtual_memory` is asked for a heap, a stack or memory of general use. -/
def Typed : Request → Prop
  | memoryMap .. => True
  | allocate _ type _ _ => type.isBacked = true

def PageAddress : Request → Prop
  | memoryMap paddr _ _ => paddr % pageSize = 0
  | allocate .. => True

def area (r : Request) (p : VMemHandle) (start : Nat) : Area :=
  ⟨p, start, r.padded, r.upper, r.lower, r.type⟩

/-! ### The parts of a call -/

/-- What is checked before the lock is taken. -/
def before : Request → KM Unit
  | memoryMap .. => pure ()
  | r@(allocate _ type _ _) => do
    kassert (r.padded % pageSize == 0)
    check (type != .identityMapFree && type != .identityMap && type != .memoryMapping)
      (.panic .vmmError)

/-- What is checked with the lock held. -/
def checks : Request → KM Unit
  | r@(memoryMap paddr _ _) => do
    kassert (r.padded % pageSize == 0)
    kassert (paddr % pageSize == 0)
  | allocate .. => pure ()

def reserve (r : Request) : KM (DescPtr × VirtualMemoryDescriptor) := do
  kassert (← get).sh.vmm.kernelMode
  r.checks
  let cut ← cutRegion r.padded r.type r.upper r.lower
  return (cut, ← readDesc cut)

def mapPages : Request → (vaddr size : Nat) → KM Unit
  | memoryMap paddr _ flags, vaddr, size => forPages size fun i => do
    pagingMap (← get).sh.vmm.pagingStructure (add64 vaddr (i * pageSize))
      (add64 paddr (i * pageSize)) (flags ||| pagePresent)
  | allocate .., vaddr, size => mapFrames vaddr size

/-- The start of the range that is handed to the shootdown subsystem. -/
def handed : Request → (vaddr size : Nat) → Nat
  | memoryMap .., vaddr, _ => vaddr
  | allocate .., vaddr, size => add64 vaddr (pageCount size * pageSize)

def finish (r : Request) (d : VirtualMemoryDescriptor) : KM Unit := do
  r.mapPages (getNoPaddingStartAddr d) (getNoPaddingSize d)
  shootdown kmalloc (r.handed (getNoPaddingStartAddr d) (getNoPaddingSize d)) (getNoPaddingSize d)

theorem call_eq {r : Request} (hfit : r.padded < 2 ^ 64) : r.call = (do
    r.before
    let (cut, d) ← withLock .vmm r.reserve
    r.finish d
    return cut) := by
  cases r with
  | memoryMap paddr size flags =>
    have hsize : add64 size (memoryMapPadding * 2) = size + (memoryMapPadding + memoryMapPadding) := by
      rw [Nat.mul_two]
      exact add64_eq hfit
    simp only [call, before, reserve, checks, finish, mapPages, handed, padded, Request.size, lower,
      upper, type, GarbageOS.memoryMap, hsize, bind_assoc, pure_bind]
  | allocate size type up lo =>
    have hfit' : size + (lo + up) < 2 ^ 64 := hfit
    have hsize : add64 size (add64 lo up) = size + (lo + up) := by
      rw [add64_eq (show lo + up < 2 ^ 64 by omega)]
      exact add64_eq hfit
    simp only [call, before, reserve, checks, finish, mapPages, handed, padded, Request.size, lower,
      upper, Request.type, allocateKernelVirtualMemory, mapFrames, hsize, bind_assoc, pure_bind]

section

variable {r : Request} {k k' : Kernel} {xs : List Area} {p : VMemHandle} {u : Unit}

theorem isFreeType_type (ht : r.Typed) : isFreeType r.type = false := by
  cases r with
  | memoryMap => rfl
  | allocate size type upper lower =>
    have ht' : type.isBacked = true := ht
    show isFreeType type = false
    revert ht'
    cases type <;> decide

theorem run_before_ok (h : r.before.run k = .ok u k') : k' = k := by
  cases r with
  | memoryMap => cases h; rfl
  | allocate =>
    unfold before at h
    rw [run_kassert_bind, run_check_ok] at h
    exact h.2.2

theorem run_checks_ok (h : r.checks.run k = .ok u k') : r.PageAddress ∧ k' = k := by
  cases r with
  | memoryMap =>
    unfold checks at h
    rw [run_kassert_bind, run_kassert_ok] at h
    exact ⟨by simpa [PageAddress] using h.2.1, h.2.2⟩
  | allocate => cases h; exact ⟨trivial, rfl⟩

theorem padding_le : r.lower + r.upper ≤ r.padded := Nat.le_add_left _ _

theorem length_area (p : VMemHandle) (start : Nat) : (r.area p start).length = r.size := by
  show r.size + (r.lower + r.upper) - r.lower - r.upper = r.size
  omega

theorem run_reserve_ok {v : VirtualMemoryDescriptor} {t : Kernel} (hi : VmmInv k xs) (ht : r.Typed)
    (hpos : 0 < r.padded) (h : r.reserve.run (k.locked .vmm) = .ok (p, v) t) :
    r.PageAddress ∧ ∃ d xs', FitsAt (k.locked .vmm) xs r.padded d ∧
      Reserves k (t.unlocked .vmm k.cpu.interrupts) xs (r.area p d.start) xs' ∧
      getNoPaddingStartAddr v = d.start + r.lower ∧ getNoPaddingSize v = r.size := by
  unfold reserve at h
  rw [run_get_bind, run_kassert_bind] at h
  obtain ⟨_, k₁, hchecks, h⟩ := run_bind_ok.1 h.2
  obtain ⟨hpage, rfl⟩ := run_checks_ok hchecks
  obtain ⟨d, xs', hd, hr, hbase, hlen⟩ :=
    run_reserveRegion_ok hi (isFreeType_type ht) padding_le hpos h
  exact ⟨hpage, d, xs', hd, hr, hbase, hlen.trans (length_area p d.start)⟩

instance (r : Request) (vaddr size : Nat) : Kept PagingEffect (r.mapPages vaddr size) := by
  cases r <;> (unfold mapPages; infer_instance)

/-- A call that returns reserved an area with its paddings and mapped the pages between them. -/
theorem run_call_ok (hi : VmmInv k xs) (ht : r.Typed) (hn : 0 < r.padded ∧ r.padded < 2 ^ 64)
    (h : r.call.run k = .ok p k') :
    .vmm ∉ k.cpu.held ∧ r.PageAddress ∧ r.size % pageSize = 0 ∧ ∃ d xs' k₁,
      FitsAt (k.locked .vmm) xs r.padded d ∧ Reserves k k₁ xs (r.area p d.start) xs' ∧
      (r.mapPages (d.start + r.lower) r.size).run k₁ = .ok () k' := by
  rw [call_eq hn.2] at h
  obtain ⟨_, k₀, hbefore, hcall⟩ := run_bind_ok.1 h
  obtain rfl := run_before_ok hbefore
  obtain ⟨⟨cut, v⟩, k₁, hlock, hcall⟩ := run_bind_ok.1 hcall
  obtain ⟨hl, t, hreserve, rfl⟩ := run_withLock_ok.1 hlock
  obtain ⟨_, k₂, hfinish, hret⟩ := run_bind_ok.1 hcall
  cases hret
  obtain ⟨hpage, d, xs', hd, hr, hbase, hlen⟩ := run_reserve_ok hi ht hn.1 hreserve
  rw [finish, hbase, hlen] at hfinish
  obtain ⟨_, k₃, hmap, hshoot⟩ := run_bind_ok.1 hfinish
  obtain ⟨rfl, hmod⟩ :=
    shootdown_quiet ((hr.inv hi).paging (PagingEffect.of_run hmap)).quiet hshoot
  exact ⟨hl, hpage, hmod, d, xs', _, hd, hr, hmap⟩

end

end Request

section

variable {k k' : Kernel} {xs pre post : List Area} {x : Area} {size : Nat}

theorem Layout.endVaddr (hlay : Layout xs) (hl : DescList k.sh.descs xs) (hx : x ∈ xs) :
    (k.sh.descs x.ptr).endVaddr = x.stop := by
  obtain ⟨hstart, hsize, -, -, -⟩ := hl.fields hx
  rw [VirtualMemoryDescriptor.endVaddr, hstart, hsize]
  exact add64_eq (hlay.stop_lt hx)

/-! ## Expansion -/

/-- The area `d` was given other paddings. -/
structure Repadded (xs : List Area) (d v : Area) (xs' : List Area) : Prop where
  same : v.ptr = d.ptr ∧ v.start = d.start ∧ v.size = d.size ∧ v.type = d.type
  places : ∃ pre post, xs = pre ++ d :: post ∧ xs' = pre ++ v :: post

namespace Side

def room : Side → Area → Nat
  | .top, d => d.upper
  | .bottom, d => d.lower

def grow : Side → Nat → Area → Area
  | .top, n, d => { d with upper := d.upper - n }
  | .bottom, n, d => { d with lower := d.lower - n }

/-- The first of the new pages. -/
def newPages : Side → Nat → Area → Nat
  | .top, _, d => d.base + d.length
  | .bottom, n, d => d.base - n

variable {side : Side} {n : Nat}

theorem padding_eq (hv : VmmList k xs) (hx : x ∈ xs) :
    side.padding (k.sh.descs x.ptr) = side.room x := by
  obtain ⟨-, -, hupper, hlower, -⟩ := hv.list.fields hx
  cases side
  · exact hupper
  · exact hlower

theorem firstPage_eq (hlay : Layout xs) (hv : VmmList k xs) (hx : x ∈ xs) (hn : n ≤ side.room x) :
    side.firstPage (k.sh.descs x.ptr) n = side.newPages n x := by
  obtain ⟨hbase, hlength⟩ := hlay.noPadding hv hx
  have hpad := (hlay.ok x hx).padding
  have hstop := hlay.stop_lt hx
  unfold Area.stop at hstop
  cases side with
  | top =>
    rw [firstPage, hbase, hlength]
    apply add64_eq
    unfold Area.base Area.length
    omega
  | bottom =>
    have hn' : n ≤ x.lower := hn
    rw [firstPage, hbase]
    apply sub64_eq <;> unfold Area.base <;> omega

theorem run_forRange_kassert_ok {p : Nat → Bool} {f : Nat → KM Unit} {w : Unit} :
    ∀ {count first : Nat} {k : Kernel},
      (forRange (fun i => do kassert (p i); f i) count first).run k = .ok w k' ↔
        (∀ i, first ≤ i → i < first + count → p i = true) ∧
          (forRange f count first).run k = .ok w k' := by
  intro count
  induction count with
  | zero =>
    intro first k
    exact ⟨fun h => ⟨fun i h1 h2 => by omega, h⟩, And.right⟩
  | succ count ih =>
    intro first k
    unfold forRange
    constructor
    · intro h
      obtain ⟨u, t, hround, hloop⟩ := run_bind_ok.1 h
      obtain ⟨hp, hbody⟩ := run_kassert_bind.1 hround
      obtain ⟨hrest, hloop⟩ := ih.1 hloop
      refine ⟨fun i h1 h2 => ?_, run_bind_ok.2 ⟨u, t, hbody, hloop⟩⟩
      rcases Nat.eq_or_lt_of_le h1 with rfl | h1
      · exact hp
      · exact hrest i h1 (by omega)
    · rintro ⟨hp, h⟩
      obtain ⟨u, t, hbody, hloop⟩ := run_bind_ok.1 h
      refine run_bind_ok.2 ⟨u, t, run_kassert_bind.2 ⟨?_, hbody⟩, ih.2 ⟨fun i h1 h2 => ?_, hloop⟩⟩
      · exact hp first (Nat.le_refl _) (by omega)
      · exact hp i (by omega) (by omega)

theorem run_expandPages_ok {d : VirtualMemoryDescriptor} {w : Unit} :
    (expandPages side d n).run k = .ok w k' ↔
      (∀ i < pageCount n, side.isInside d (add64 (side.firstPage d n) (i * pageSize)) = true) ∧
        (mapFrames (side.firstPage d n) n).run k = .ok () k' := by
  unfold expandPages mapFrames forPages
  simp only [run_bind_ok, run_forRange_kassert_ok]
  constructor
  · rintro ⟨u, t, ⟨hin, hloop⟩, hcheck⟩
    exact ⟨fun i hi => hin i (Nat.zero_le i) (by omega), u, t, hloop, hcheck⟩
  · rintro ⟨hin, u, t, hloop, hcheck⟩
    exact ⟨u, t, ⟨fun i _ hi => hin i (by omega), hloop⟩, hcheck⟩

theorem vmmList_grow (hv : VmmList k (pre ++ x :: post)) (hlay : Layout (pre ++ x :: post))
    (hn : n ≤ side.room x) :
    VmmList (k.setDesc x.ptr (side.shrinkPadding n (k.sh.descs x.ptr)))
      (pre ++ side.grow n x :: post) ∧ Layout (pre ++ side.grow n x :: post) := by
  obtain ⟨hstart, hsize, hupper, hlower, htype⟩ := hv.list.fields (d := x) (by simp)
  have hpad := (hlay.ok x (by simp)).padding
  have hstop := hlay.stop_lt (x := x) (by simp)
  unfold Area.stop at hstop
  cases side with
  | top =>
    have hn' : n ≤ x.upper := hn
    refine ⟨hv.edit ?_ rfl rfl rfl, hlay.repad rfl rfl rfl ⟨Nat.le_refl _, Nat.sub_le _ _⟩⟩
    simp only [grow, shrinkPadding, hstart, hsize, hupper, hlower, htype]
    rw [sub64_eq hn' (by omega)]
  | bottom =>
    have hn' : n ≤ x.lower := hn
    refine ⟨hv.edit ?_ rfl rfl rfl, hlay.repad rfl rfl rfl ⟨Nat.sub_le _ _, Nat.le_refl _⟩⟩
    simp only [grow, shrinkPadding, hstart, hsize, hupper, hlower, htype]
    rw [sub64_eq hn' (by omega)]

theorem grow_same (n : Nat) (x : Area) : (side.grow n x).ptr = x.ptr ∧
    (side.grow n x).start = x.start ∧ (side.grow n x).size = x.size ∧
    (side.grow n x).type = x.type := by
  cases side <;> exact ⟨rfl, rfl, rfl, rfl⟩

end Side

/-- What a granted expansion by `n` bytes did. -/
structure Expands (side : Side) (k k' : Kernel) (xs : List Area) (x : Area) (n : Nat) : Prop where
  backed : x.type.isBacked = true
  room : n ≤ side.room x
  grows : ∃ xs' k₁, Repadded xs x (side.grow n x) xs' ∧ VmmInv k₁ xs' ∧ DescEffect k k₁ ∧
    (mapFrames (side.newPages n x) n).run k₁ = .ok () k'

/-- The end of a granted expansion, from where the descriptor has its new padding on. -/
theorem VmmInv.expands {side : Side} {n a m : Nat} {k₀ k₁ : Kernel} {v w : Unit}
    (hi : VmmInv k xs) (hx : x ∈ xs) (hbacked : x.type.isBacked = true) (hroom : n ≤ side.room x)
    (heff : DescEffect k k₀)
    (hsh : k₀.sh = (k.setDesc x.ptr (side.shrinkPadding n (k.sh.descs x.ptr))).sh)
    (hpages : (expandPages side (k.sh.descs x.ptr) n).run k₀ = .ok v k₁)
    (hshoot : (shootdown kmalloc a m).run k₁ = .ok w k') : Expands side k k' xs x n := by
  have hrun := (Side.run_expandPages_ok.1 hpages).2
  rw [Side.firstPage_eq hi.layout hi.vmm hx hroom] at hrun
  obtain ⟨pre, post, rfl⟩ := List.append_of_mem hx
  obtain ⟨hv, hlay⟩ := Side.vmmList_grow hi.vmm hi.layout hroom
  have hi₀ : VmmInv k₀ (pre ++ side.grow n x :: post) :=
    ⟨hv.congr_sh hsh, hlay, heff.quiet.trans hi.quiet⟩
  obtain ⟨rfl, -⟩ := shootdown_quiet (hi₀.paging (PagingEffect.of_run hrun)).quiet hshoot
  exact ⟨hbacked, hroom, _, k₀, ⟨Side.grow_same n x, pre, post, rfl, rfl⟩, hi₀, heff, hrun⟩

theorem expand_cases {side : Side} {b : Bool} (hi : VmmInv k xs) (hx : x ∈ xs)
    (h : (tryExpandWith kmalloc side x.ptr size true).run k = .ok b k') :
    .vmm ∉ k.cpu.held ∧
      ((b = false ∧ k' = k.locked .vmm ∧
        (x.type.isBacked = false ∨ side.room x < roundUpToPage size)) ∨
      (b = true ∧ Expands side k k' xs x (roundUpToPage size))) := by
  obtain ⟨hl, hcases⟩ := tryExpandWith_cases h
  have htype := (hi.vmm.list.fields hx).2.2.2.2
  unfold Side.Refuses Side.Grants at hcases
  rw [htype, Side.padding_eq hi.vmm hx] at hcases
  refine ⟨hl, hcases.imp_right ?_⟩
  rintro ⟨rfl, hbacked, hroom, k₁, hpages, hshoot⟩
  have heff : DescEffect k
      (k.setDesc x.ptr (side.shrinkPadding (roundUpToPage size) (k.sh.descs x.ptr))) := ⟨rfl⟩
  exact ⟨rfl, hi.expands hx hbacked hroom heff rfl hpages hshoot⟩

/-! ## Deallocation -/

def unmapPages (type : VirtualMemoryType) (vaddr size : Nat) : KM Unit :=
  forPages size fun i => unmapPage type (add64 vaddr (i * pageSize))

instance (type : VirtualMemoryType) (vaddr size : Nat) :
    Kept PagingEffect (unmapPages type vaddr size) := by
  unfold unmapPages; infer_instance

theorem deallocate_cases {b : Bool} (hi : VmmInv k xs) (hkheap : .kheap ∉ k.cpu.held) (hx : x ∈ xs)
    (h : (deallocateKernelVirtualMemory x.ptr).run k = .ok b k') :
    .vmm ∉ k.cpu.held ∧ b = true ∧ isFreeType x.type = false ∧ Mergeable xs x ∧ ∃ k₁ k₂ m xs',
      (unmapPages x.type x.base x.length).run (k.locked .vmm) = .ok () k₁ ∧
      Released xs x m xs' ∧ VmmInv k₂ xs' ∧ DescEffect k₁ k₂ ∧
      k' = k₂.unlocked .vmm k.cpu.interrupts := by
  unfold deallocateKernelVirtualMemory at h
  obtain ⟨hl, t, ht, rfl⟩ := run_withLock_ok.1 h
  have hi₀ : VmmInv (k.locked .vmm) xs := ⟨hi.vmm.congr_sh rfl, hi.layout, hi.quiet⟩
  obtain ⟨hstart, -, -, -, htype⟩ := hi₀.vmm.list.fields hx
  obtain ⟨hbase, hlength⟩ := hi.layout.noPadding hi₀.vmm hx
  rw [run_get_bind, run_kassert_bind, run_readDesc_bind, run_kassert_bind, run_kassert_bind] at ht
  obtain ⟨-, -, hne, hne', ht⟩ := ht
  simp only [hbase, hlength, hstart, htype] at ht hne hne'
  have hused : isFreeType x.type = false := by
    revert hne hne'
    cases x.type <;> decide
  obtain ⟨_, k₁, hpages, ht⟩ := run_bind_ok.1 ht
  obtain ⟨_, k₁', hshoot, ht⟩ := run_bind_ok.1 ht
  have hi₁ := hi₀.paging (PagingEffect.of_run hpages)
  obtain ⟨hk, -⟩ := shootdown_quiet hi₁.quiet hshoot
  rw [hk] at ht
  have ht' : ((do
      modifyDesc x.ptr fun n =>
        { n with type := freeTypeAt x.start, lowerPadding := 0, upperPadding := 0 }
      coalesce (← freePredecessor x.ptr (freeTypeAt x.start)) (freeTypeAt x.start)) >>=
        fun _ => pure true).run k₁ = .ok b t := by
    simpa only [bind_assoc, freeTypeAt] using ht
  obtain ⟨_, k₂, hrelease, hret⟩ := run_bind_ok.1 ht'
  cases hret
  obtain ⟨pre, post, rfl⟩ := List.append_of_mem hx
  have hmerge := mergeable_of_release hi₁.vmm rfl hrelease
  have hheld : .kheap ∉ k₁.cpu.held := by
    rw [(PagingEffect.of_run hpages).held]
    simpa [Kernel.locked] using hkheap
  obtain ⟨_, xs', m, hrun, hv, hlay, hreleased, heff⟩ :=
    release_runs hi₁.vmm hi₁.layout rfl hmerge hheld
  rw [hrun] at hrelease
  cases hrelease
  exact ⟨hl, rfl, hused, hmerge, k₁, _, m, xs', hpages, hreleased,
    ⟨hv, hlay, heff.quiet.trans hi₁.quiet⟩, heff, rfl⟩

end

end GarbageOS
