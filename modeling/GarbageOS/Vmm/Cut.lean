import GarbageOS.Vmm.DescPool

/-!
# Cutting a descriptor

`cut_descriptor` replaces a free descriptor by one for the requested range and free
ones for what is left before and after it. In each of its cases the list afterwards
has the areas of `Cuts` in the place of the old one.
-/

namespace GarbageOS

open Lib Function

/-- The descriptor list of the kernel and the descriptors in use. -/
structure VmmList (k : Kernel) (xs : List Area) : Prop where
  list : DescList k.sh.descs xs
  head : k.sh.vmm.vmListHead = headPtr xs
  pool : DescPool k.sh (xs.map Area.ptr)

theorem run_findFromHead {k : Kernel} {xs : List Area} (hl : DescList k.sh.descs xs)
    (hh : k.sh.vmm.vmListHead = headPtr xs) (hlay : Layout xs)
    (test : VirtualMemoryDescriptor → Bool) :
    ∃ pre d post, xs = pre ++ d :: post ∧ (findFromHead test).run k = .ok d.ptr k ∧
      (∀ x ∈ pre, test (k.sh.descs x.ptr) = false) ∧
      (test (k.sh.descs d.ptr) = true ∨ post = []) := by
  obtain ⟨pre, d, post, rfl, hpre, hd, hrun⟩ := run_findDescriptor test hlay.ne_nil
    (show DescList k.sh.descs ([] ++ xs) from hl)
  have hlen := hlay.length_lt
  rw [List.length_append] at hlen
  refine ⟨pre, d, post, rfl, ?_, hpre, hd⟩
  unfold findFromHead
  rw [run_get_bind, hh]
  exact hrun (2 ^ 64 - 1) (by omega)

/-- Only descriptors and the head of their list change. -/
structure LinkEffect (k k' : Kernel) : Prop where
  eq : k' =
    { k with
      sh := { k.sh with
        descs := k'.sh.descs, vmm := { k.sh.vmm with vmListHead := k'.sh.vmm.vmListHead } } }

theorem LinkEffect.trans {k₁ k₂ k₃ : Kernel} (h₁ : LinkEffect k₁ k₂) (h₂ : LinkEffect k₂ k₃) :
    LinkEffect k₁ k₃ :=
  ⟨h₂.eq.trans (by rw [h₁.eq])⟩

section

variable {k k' k₁ : Kernel} {ps : List DescPtr} {p q : DescPtr} {d : VirtualMemoryDescriptor}
  {f : VirtualMemoryDescriptor → VirtualMemoryDescriptor}

theorem LinkEffect.desc (h : LinkEffect k k') : DescEffect k k' := ⟨by rw [h.eq]⟩

theorem LinkEffect.pool (h : LinkEffect k k') (hp : DescPool k.sh ps) : DescPool k'.sh ps := by
  rw [h.eq]; exact { hp with }

/-- The kernel after `if(p != NULL) *p = ...`. -/
def Kernel.setDescIf (k : Kernel) (p : DescPtr)
    (f : VirtualMemoryDescriptor → VirtualMemoryDescriptor) : Kernel :=
  if p = .null then k else k.setDesc p (f (k.sh.descs p))

theorem Kernel.setDescIf_descs (hq : q ≠ .null) :
    (k.setDescIf p f).sh.descs q = if q = p then f (k.sh.descs q) else k.sh.descs q := by
  unfold setDescIf
  by_cases hp : p = .null
  · have hqp : q ≠ p := by rw [hp]; exact hq
    rw [if_pos hp, if_neg hqp]
  · rw [if_neg hp, Kernel.setDesc_descs, update_apply]
    split
    · next he => rw [he]
    · rfl

/-- The kernel with the descriptor at `p` changed. -/
def Kernel.editDesc (k : Kernel) (p : DescPtr)
    (f : VirtualMemoryDescriptor → VirtualMemoryDescriptor) : Kernel :=
  k.setDesc p (f (k.sh.descs p))

theorem Kernel.editDesc_descs :
    (k.editDesc p f).sh.descs q = if q = p then f (k.sh.descs q) else k.sh.descs q := by
  rw [editDesc, Kernel.setDesc_descs, update_apply]
  split
  · next he => rw [he]
  · rfl

@[simp] theorem Kernel.editDesc_vmm : (k.editDesc p f).sh.vmm = k.sh.vmm := rfl

theorem run_editDesc_bind {α : Type} {a : α} {g : Unit → KM α} :
    (modifyDesc p f >>= g).run k = .ok a k' ↔
      p ≠ .null ∧ (g ()).run (k.editDesc p f) = .ok a k' :=
  run_modifyDesc_bind

theorem LinkEffect.then_edit (h : LinkEffect k k₁) : LinkEffect k (k₁.editDesc p f) :=
  h.trans ⟨rfl⟩

theorem LinkEffect.then_if (h : LinkEffect k k₁) : LinkEffect k (k₁.setDescIf p f) := by
  unfold Kernel.setDescIf
  split
  · exact h
  · exact h.trans ⟨rfl⟩

theorem LinkEffect.setHead (k : Kernel) (p : DescPtr) : LinkEffect k (k.setHead p) := ⟨rfl⟩

@[simp] theorem Kernel.setDescIf_vmm : (k.setDescIf p f).sh.vmm = k.sh.vmm := by
  unfold Kernel.setDescIf
  split <;> rfl

@[simp] theorem Kernel.setDesc_vmm : (k.setDesc p d).sh.vmm = k.sh.vmm := rfl

theorem run_modifyDescIf_bind {α : Type} {a : α} {g : Unit → KM α} :
    (modifyDescIf p f >>= g).run k = .ok a k' ↔ (g ()).run (k.setDescIf p f) = .ok a k' := by
  unfold modifyDescIf Kernel.setDescIf
  by_cases hp : p = .null
  · rw [onlyIf_neg (by simpa using hp), pure_bind, if_pos hp]
  · rw [onlyIf_pos hp, run_modifyDesc_bind, if_neg hp]
    exact and_iff_right hp

end

theorem VmmList.edit {k : Kernel} {pre post : List Area} {d u : Area} {v : VirtualMemoryDescriptor}
    (hv : VmmList k (pre ++ d :: post))
    (hu : u = ⟨d.ptr, v.startVaddr, v.sizeBytes, v.upperPadding, v.lowerPadding, v.type⟩)
    (hnext : v.next = (k.sh.descs d.ptr).next) (hprev : v.prev = (k.sh.descs d.ptr).prev)
    (horigin : v.isFromHeap = (k.sh.descs d.ptr).isFromHeap) :
    VmmList (k.setDesc d.ptr v) (pre ++ u :: post) := by
  have hmap : (pre ++ u :: post).map Area.ptr = (pre ++ d :: post).map Area.ptr := by simp [hu]
  refine ⟨hv.list.edit ?_ hnext hprev horigin, ?_, ?_⟩
  · simp only [areaAt, update_self, hu]
  · rw [Kernel.setDesc_vmm, hv.head, headPtr, headPtr, hmap]
  · rw [hmap]
    exact { hv.pool with }

/-! ## Linking a new descriptor after another one -/

section

variable {k k' : Kernel} {descs : DescPtr → VirtualMemoryDescriptor} {pre post xs : List Area}
  {d : Area} {new p q : DescPtr} {u : Unit} {start size : Nat}

theorem headPtr_mem {xs : List Area} (h : xs ≠ []) : headPtr xs ∈ xs.map Area.ptr := by
  obtain ⟨x, xs, rfl⟩ := List.exists_cons_of_ne_nil h
  simp [headPtr]

theorem ne_lastPtr (hp : p ≠ .null) (h : p ∉ (pre ++ post).map Area.ptr) : p ≠ lastPtr pre := by
  intro e
  rcases getLastD_eq_or_mem (pre.map Area.ptr) .null with ⟨-, he⟩ | ⟨he, -⟩
  · exact hp (e.trans he)
  · rw [List.map_append, List.mem_append] at h
    exact h (.inl (e ▸ he))

theorem ne_headPtr (hp : p ≠ .null) (h : p ∉ (pre ++ post).map Area.ptr) : p ≠ headPtr post := by
  intro e
  rcases headD_eq_or_mem (post.map Area.ptr) .null with ⟨-, he⟩ | ⟨he, -⟩
  · exact hp (e.trans he)
  · rw [List.map_append, List.mem_append] at h
    exact h (.inr (e ▸ he))

/-- The kernel with `before`, `p`, `new` and `after` linked in this order. -/
def Kernel.linkedAfter (k : Kernel) (before p new after : DescPtr) : Kernel :=
  (((k.setDescIf before fun n => { n with next := p }).editDesc p
    fun n => { n with prev := before, next := new }).editDesc new
    fun n => { n with next := after, prev := p }).setDescIf after
    fun n => { n with prev := new }

theorem run_linkAfter_iff {before after : DescPtr} :
    (linkAfter before p new after).run k = .ok u k' ↔ (p ≠ .null ∧ new ≠ .null) ∧
      ((k.linkedAfter before p new after).sh.descs p).endVaddr =
        ((k.linkedAfter before p new after).sh.descs new).startVaddr ∧
      updateHead.run (k.linkedAfter before p new after) = .ok u k' := by
  unfold linkAfter
  rw [run_modifyDescIf_bind, run_editDesc_bind, run_editDesc_bind, run_modifyDescIf_bind,
    run_readDesc_bind, run_readDesc_bind, run_kassert_bind, beq_iff_eq]
  constructor
  · rintro ⟨hp, hn, -, -, hseam, h⟩
    exact ⟨⟨hp, hn⟩, hseam, h⟩
  · rintro ⟨⟨hp, hn⟩, hseam, h⟩
    exact ⟨hp, hn, hp, hn, hseam, h⟩

theorem LinkEffect.linkedAfter (k : Kernel) (before p new after : DescPtr) :
    LinkEffect k (k.linkedAfter before p new after) :=
  LinkEffect.then_if (.then_edit (.then_edit (.then_if ⟨rfl⟩)))

theorem notMem_rest (h : p ∉ (pre ++ d :: post).map Area.ptr) : p ∉ (pre ++ post).map Area.ptr := by
  intro hm
  obtain ⟨x, hx, rfl⟩ := List.mem_map.1 hm
  exact h (List.mem_map_of_mem (mem_splice.2 (.inr hx)))

theorem DescList.linkedAfter_self (hl : DescList descs (pre ++ d :: post))
    (hnew : new ∉ (pre ++ d :: post).map Area.ptr) :
    (k.linkedAfter (lastPtr pre) d.ptr new (headPtr post)).sh.descs d.ptr =
      { k.sh.descs d.ptr with prev := lastPtr pre, next := new } := by
  have hd0 : d.ptr ≠ .null := hl.ptr_ne_null (by simp)
  have hnd : d.ptr ≠ new := fun e => hnew (by simp [← e])
  have hout := hl.ptr_notMem
  rw [Kernel.linkedAfter, Kernel.setDescIf_descs hd0, if_neg (ne_headPtr hd0 hout),
    Kernel.editDesc_descs, if_neg hnd, Kernel.editDesc_descs, if_pos rfl,
    Kernel.setDescIf_descs hd0, if_neg (ne_lastPtr hd0 hout)]

theorem linkedAfter_new (hnull : new ≠ .null) (hnew : new ∉ (pre ++ d :: post).map Area.ptr) :
    (k.linkedAfter (lastPtr pre) d.ptr new (headPtr post)).sh.descs new =
      { k.sh.descs new with next := headPtr post, prev := d.ptr } := by
  have hnd : d.ptr ≠ new := fun e => hnew (by simp [← e])
  have hnew' := notMem_rest hnew
  rw [Kernel.linkedAfter, Kernel.setDescIf_descs hnull, if_neg (ne_headPtr hnull hnew'),
    Kernel.editDesc_descs, if_pos rfl, Kernel.editDesc_descs, if_neg hnd.symm,
    Kernel.setDescIf_descs hnull, if_neg (ne_lastPtr hnull hnew')]

/-- The links put a new descriptor after that of `d`; both may say something new. -/
theorem DescList.linkedAfter (hl : DescList descs (pre ++ d :: post)) (hnull : new ≠ .null)
    (hnew : new ∉ (pre ++ d :: post).map Area.ptr)
    (hsame : ∀ q, q ≠ d.ptr → q ≠ new → k.sh.descs q = descs q)
    (horigin : (k.sh.descs d.ptr).isFromHeap = (descs d.ptr).isFromHeap)
    (horigin' : (k.sh.descs new).isFromHeap = new.isHeap) :
    DescList (k.linkedAfter (lastPtr pre) d.ptr new (headPtr post)).sh.descs
      (pre ++ ([areaAt k.sh.descs d.ptr, areaAt k.sh.descs new] ++ post)) := by
  have hd0 : d.ptr ≠ .null := hl.ptr_ne_null (by simp)
  have hnd : d.ptr ≠ new := fun e => hnew (by simp [← e])
  have hout := hl.ptr_notMem
  have hnew' := notMem_rest hnew
  have hd₄ := hl.linkedAfter_self (k := k) hnew
  have hn₄ := linkedAfter_new (k := k) hnull hnew
  have hrest₄ : ∀ x ∈ pre ++ post,
      (k.linkedAfter (lastPtr pre) d.ptr new (headPtr post)).sh.descs x.ptr =
        relinkDesc descs (lastPtr pre) d.ptr new (headPtr post) x.ptr := by
    intro x hx
    have hx0 : x.ptr ≠ .null := hl.ptr_ne_null (mem_splice.2 (.inr hx))
    have hxd : x.ptr ≠ d.ptr := fun e => hout (e ▸ List.mem_map_of_mem hx)
    have hxn : x.ptr ≠ new := fun e => hnew' (e ▸ List.mem_map_of_mem hx)
    rw [Kernel.linkedAfter, Kernel.setDescIf_descs hx0, Kernel.editDesc_descs, if_neg hxn,
      Kernel.editDesc_descs, if_neg hxd, Kernel.setDescIf_descs hx0, hsame _ hxd hxn]
    unfold relinkDesc
    split <;> split <;> rfl
  generalize k.linkedAfter (lastPtr pre) d.ptr new (headPtr post) = k₄ at hd₄ hn₄ hrest₄ ⊢
  refine hl.splice (o := [d]) ?_ ?_ ?_ ?_ ?_ ?_
  · simp [areaAt, hd₄, hn₄]
  · simpa [areaAt] using hnd
  · simp only [List.map_cons, List.map_nil, areaAt, List.mem_cons, List.not_mem_nil, or_false]
    exact fun e => e.elim (fun e => hd0 e.symm) fun e => hnull e.symm
  · simp only [List.mem_cons, List.not_mem_nil, or_false]
    rintro x (rfl | rfl)
    · exact hout
    · exact hnew'
  · simp only [List.mem_cons, List.not_mem_nil, or_false]
    rintro x (rfl | rfl)
    · refine ⟨by simp only [areaAt, hd₄], ?_⟩
      show (k₄.sh.descs d.ptr).isFromHeap = _
      rw [hd₄]
      exact horigin.trans (hl.origin d (by simp))
    · refine ⟨by simp only [areaAt, hn₄], ?_⟩
      show (k₄.sh.descs new).isFromHeap = _
      rw [hn₄]
      exact horigin'
  · intro x hx
    rw [hrest₄ x hx]
    simp [headPtr, lastPtr, areaAt, List.getLastD_eq_getLast?]

variable (new) in
theorem linkedAfter_head (hhead : k.sh.vmm.vmListHead = headPtr (pre ++ d :: post)) :
    (k.linkedAfter (lastPtr pre) d.ptr new (headPtr post)).sh.vmm.vmListHead ∈
      (pre ++ ([areaAt k.sh.descs d.ptr, areaAt k.sh.descs new] ++ post)).map Area.ptr := by
  have hvmm : (k.linkedAfter (lastPtr pre) d.ptr new (headPtr post)).sh.vmm = k.sh.vmm := by
    simp [Kernel.linkedAfter]
  have := headPtr_mem (show pre ++ d :: post ≠ [] by simp)
  rw [hvmm, hhead]
  simp only [List.map_append, List.map_cons, List.cons_append, List.nil_append,
    List.mem_append, List.mem_cons, areaAt] at this ⊢
  tauto

/-! ## The cases of a cut -/

/-- A cut of `d` returned `p`, whose descriptor says `[start, start + size)` now. -/
structure CutReturns (k k' : Kernel) (pre : List Area) (d : Area) (post : List Area)
    (start size : Nat) (p : DescPtr) (u : Area) (f g : Option Area) : Prop where
  vmm : VmmList k' (pre ++ (cutPieces u f g ++ post))
  free : isFreeType d.type = true
  cuts : Cuts d u f g
  piece : u.PieceOf d
  ptr : u.ptr = p
  start : u.start = start
  size : u.size = size
  size_aligned : u.size % pageSize = 0
  effect : DescEffect k k'

theorem Area.Ok.piece_self (hd : d.Ok) (hfree : isFreeType d.type = true) : d.PieceOf d :=
  ⟨rfl, (hd.free hfree).2.1, (hd.free hfree).1⟩

theorem Area.Ok.start_ne (hd : d.Ok) : d.start ≠ identityMapVmemEnd := by
  have hlt := identityMapVmemEnd_lt
  have hpart := hd.inPart
  unfold Area.InPart at hpart
  omega

section

variable (hv : VmmList k (pre ++ d :: post))

include hv

theorem CutReturns.whole (hd : d.Ok) (hfree : isFreeType d.type = true) :
    CutReturns k k pre d post d.start d.size d.ptr d none none where
  vmm := hv
  free := hfree
  cuts := ⟨by simp, by simp, fun _ => rfl, fun _ => rfl, hd.start_ne⟩
  piece := hd.piece_self hfree
  ptr := rfl
  start := rfl
  size := rfl
  size_aligned := hd.size_aligned
  effect := ⟨rfl⟩

variable (hheld : .vmm ∈ k.cpu.held) (hnew : allocateVmemDescriptor.run k = .ok new k₁)

include hheld hnew

theorem VmmList.fresh :
    new ≠ .null ∧ d.ptr ≠ new ∧ k₁.sh.descs d.ptr = k.sh.descs d.ptr ∧
      k₁.sh.descs new = freshDesc k.sh.descs new := by
  obtain ⟨hn0, hnmem, -, -, -, hdescs⟩ := run_allocateVmemDescriptor_ok hv.pool hheld hnew
  have hnd : d.ptr ≠ new := fun e => hnmem (by simp [← e])
  rw [hdescs, update_of_ne hnd, update_self]
  exact ⟨hn0, hnd, rfl, rfl⟩

theorem VmmList.written {k₂ : Kernel} {v w : VirtualMemoryDescriptor}
    (hk₂ : k₂ = (k₁.setDesc d.ptr v).setDesc new w) :
    k₂.sh.descs d.ptr = v ∧ k₂.sh.descs new = w ∧
      (∀ q, q ≠ d.ptr → q ≠ new → k₂.sh.descs q = k.sh.descs q) ∧
      k₂.sh.vmm.vmListHead = headPtr (pre ++ d :: post) := by
  obtain ⟨-, hnmem, -, -, hvmm, hdescs⟩ := run_allocateVmemDescriptor_ok hv.pool hheld hnew
  have hnd : d.ptr ≠ new := fun e => hnmem (by simp [← e])
  subst hk₂
  refine ⟨?_, ?_, fun q hq hqn => ?_, ?_⟩
  · rw [Kernel.setDesc_descs, update_of_ne hnd, Kernel.setDesc_descs, update_self]
  · rw [Kernel.setDesc_descs, update_self]
  · rw [Kernel.setDesc_descs, update_of_ne hqn, Kernel.setDesc_descs, update_of_ne hq, hdescs,
      update_of_ne hqn]
  · rw [Kernel.setDesc_vmm, Kernel.setDesc_vmm, hvmm]
    exact hv.head

variable (hlay : Layout (pre ++ d :: post))

include hlay

/-- The descriptor and a new one after it share the range: `x` and `y` are what they say
when they are linked. -/
theorem linkAfter_runs {x y : Area} {v w : VirtualMemoryDescriptor}
    (hx : x = ⟨d.ptr, v.startVaddr, v.sizeBytes, v.upperPadding, v.lowerPadding, v.type⟩)
    (hy : y = ⟨new, w.startVaddr, w.sizeBytes, w.upperPadding, w.lowerPadding, w.type⟩)
    (hvo : v.isFromHeap = (k.sh.descs d.ptr).isFromHeap) (hwo : w.isFromHeap = new.isHeap)
    (hseam : v.endVaddr = w.startVaddr) :
    ∃ k', (linkAfter (k.sh.descs d.ptr).prev d.ptr new (k.sh.descs d.ptr).next).run
        ((k₁.setDesc d.ptr v).setDesc new w) = .ok () k' ∧
      VmmList k' (pre ++ ([x, y] ++ post)) ∧ DescEffect k k' := by
  obtain ⟨hn0, hnmem, hpool, heff, -, -⟩ := run_allocateVmemDescriptor_ok hv.pool hheld hnew
  obtain ⟨hprev, hnext⟩ := hv.list.around
  generalize hk₂ : (k₁.setDesc d.ptr v).setDesc new w = k₂
  obtain ⟨hd₂, hn₂, hrest, hhead⟩ := hv.written hheld hnew hk₂.symm
  have hlist := hv.list.linkedAfter hn0 hnmem hrest (by rw [hd₂, hvo]) (by rw [hn₂, hwo])
  have hmem := linkedAfter_head new hhead
  have hxy : [areaAt k₂.sh.descs d.ptr, areaAt k₂.sh.descs new] = [x, y] := by
    simp only [areaAt, hd₂, hn₂, hx, hy]
  rw [hxy] at hlist hmem
  have hlen := hlay.length_lt
  have hup := run_updateHead hlist hmem (by
    simp only [List.length_append, List.length_cons, List.length_nil] at hlen ⊢
    omega)
  have heff₂ : LinkEffect k₁ k₂ := by rw [← hk₂]; exact ⟨rfl⟩
  have hlink := LinkEffect.linkedAfter k₂ (lastPtr pre) d.ptr new (headPtr post)
  have heff' := heff₂.trans (hlink.trans (.setHead _ (headPtr (pre ++ ([x, y] ++ post)))))
  have hrun := run_linkAfter_iff.2 ⟨⟨hv.list.ptr_ne_null (by simp), hn0⟩, by
    rw [hv.list.linkedAfter_self hnmem, linkedAfter_new hn0 hnmem, hd₂, hn₂]
    exact hseam, hup⟩
  rw [hprev, hnext]
  refine ⟨_, hrun, ⟨hlist, rfl, heff'.pool (hpool.mono fun q hq => ?_)⟩, heff.trans heff'.desc⟩
  simp only [hx, hy, List.map_append, List.map_cons, List.map_nil, List.mem_append,
    List.mem_cons, List.not_mem_nil, or_false] at hq ⊢
  tauto

section

variable (hfree : isFreeType d.type = true) (hmod : size % pageSize = 0)

include hfree hmod

theorem cutDescriptorStart_runs (hlt : size < d.size) :
    ∃ k' u g, (cutDescriptorStart d.ptr size).run k = .ok d.ptr k' ∧
      CutReturns k k' pre d post d.start size d.ptr u none g := by
  obtain ⟨hstart, hsize, hupper, hlower, htype⟩ := hv.list.fields (d := d) (by simp)
  have hd0 : d.ptr ≠ .null := hv.list.ptr_ne_null (by simp)
  have hd := hlay.ok d (by simp)
  have hstop := hlay.stop_lt (x := d) (by simp)
  unfold Area.stop at hstop
  obtain ⟨-, hup0, hlow0⟩ := hd.piece_self hfree
  obtain ⟨hn0, hnd, hd₁, hn₁⟩ := hv.fresh hheld hnew
  obtain ⟨k', hlink, hvmm, heff⟩ := linkAfter_runs hv hheld hnew hlay
    (v := { k.sh.descs d.ptr with startVaddr := d.start, sizeBytes := size, type := d.type })
    (w := { freshDesc k.sh.descs new with
      sizeBytes := sub64 d.size size, type := d.type, startVaddr := add64 d.start size })
    (x := ⟨d.ptr, d.start, size, d.upper, d.lower, d.type⟩)
    (y := ⟨new, d.start + size, d.size - size, 0, 0, d.type⟩)
    (by simp only [hupper, hlower])
    (by rw [add64_eq (by omega), sub64_eq (by omega) (by omega)]; rfl) rfl rfl rfl
  refine ⟨k', _, some _, ?_, hvmm, hfree, ⟨by simp, ?_, fun _ => rfl, by simp, hd.start_ne⟩,
    ⟨rfl, hup0, hlow0⟩, rfl, rfl, rfl, hmod, heff⟩
  · unfold cutDescriptorStart
    simp only [run_readDesc_bind, run_kassert_bind, htype, hsize, decide_eq_true_eq, beq_iff_eq,
      if_neg hlt.ne', run_ok_bind hnew, run_modifyDesc_bind, Kernel.setDesc_descs, update_self,
      update_of_ne hnd.symm, hd₁, hn₁, VirtualMemoryDescriptor.endVaddr, hstart]
    exact ⟨hd0, hfree, hlt.le, hd.size_aligned, hmod, hd0, hd0, hd0, hn0,
      run_bind_ok.2 ⟨(), k', hlink, rfl⟩⟩
  · rintro y ⟨⟩
    refine ⟨⟨rfl, rfl, rfl⟩, rfl, ?_, ?_⟩
    · show d.start + size + (d.size - size) = d.start + d.size
      omega
    · show d.start + size < d.start + d.size
      omega

theorem cutDescriptorEnd_runs (hlo : d.start < start) (hend : start + size = d.stop)
    (hin : start ≠ identityMapVmemEnd) :
    ∃ k' u f, (cutDescriptorEnd d.ptr start size).run k = .ok new k' ∧
      CutReturns k k' pre d post start size new u f none := by
  obtain ⟨hstart, hsize, hupper, hlower, htype⟩ := hv.list.fields (d := d) (by simp)
  have hd0 : d.ptr ≠ .null := hv.list.ptr_ne_null (by simp)
  have hstop := hlay.stop_lt (x := d) (by simp)
  unfold Area.stop at hstop hend
  obtain ⟨-, hup0, hlow0⟩ := (hlay.ok d (by simp)).piece_self hfree
  obtain ⟨hn0, hnd, hd₁, hn₁⟩ := hv.fresh hheld hnew
  have hsub : sub64 d.size size = d.size - size := sub64_eq (by omega) (by omega)
  have hseam : add64 d.start (d.size - size) = start := by
    rw [add64_eq (by omega)]
    omega
  obtain ⟨k', hlink, hvmm, heff⟩ := linkAfter_runs hv hheld hnew hlay
    (v := { k.sh.descs d.ptr with
      startVaddr := d.start, sizeBytes := d.size - size, type := d.type })
    (w := { freshDesc k.sh.descs new with sizeBytes := size, startVaddr := start, type := d.type })
    (x := ⟨d.ptr, d.start, d.size - size, d.upper, d.lower, d.type⟩)
    (y := ⟨new, start, size, 0, 0, d.type⟩)
    (by simp only [hupper, hlower]) rfl rfl rfl hseam
  refine ⟨k', _, some _, ?_, hvmm, hfree, ⟨?_, by simp, by simp, fun _ => hend, hin⟩,
    ⟨rfl, rfl, rfl⟩, rfl, rfl, rfl, hmod, heff⟩
  · unfold cutDescriptorEnd
    simp only [run_readDesc_bind, run_kassert_bind, run_ok_bind hnew,
      run_modifyDesc_bind, Kernel.setDesc_descs, update_self, update_of_ne hnd.symm, hd₁, hn₁,
      VirtualMemoryDescriptor.endVaddr, hstart, hsize, htype, hsub, hseam, beq_iff_eq]
    exact ⟨hd0, hd0, hd0, hn0, hn0, trivial, run_bind_ok.2 ⟨(), k', hlink, rfl⟩⟩
  · rintro x ⟨⟩
    refine ⟨⟨rfl, hup0, hlow0⟩, rfl, ?_, hlo⟩
    show d.start + (d.size - size) = start
    omega

end

end

/-- The links of a cut from the middle of the descriptor `p`, which is of type `t` and was
between `before` and `after`: `pd` comes before it and `nd` after it. -/
def Kernel.linkMiddle (k : Kernel) (before pd p nd after : DescPtr) (t : VirtualMemoryType) :
    Kernel :=
  ((((((k.editDesc pd fun n => { n with type := t }).editDesc nd
    fun n => { n with type := t }).setDescIf before
    fun n => { n with next := pd }).editDesc pd
    fun n => { n with prev := before, next := p }).editDesc p
    fun n => { n with prev := pd, next := nd }).editDesc nd
    fun n => { n with prev := p, next := after }).setDescIf after
    fun n => { n with prev := nd }

def Kernel.cutMiddle (k : Kernel) (before pd p nd after : DescPtr) (t : VirtualMemoryType)
    (range cut rest : Nat × Nat) : Kernel :=
  (((k.linkMiddle before pd p nd after t).editDesc pd
    fun n => { n with startVaddr := range.1, sizeBytes := range.2 }).editDesc p
    fun n => { n with startVaddr := cut.1, sizeBytes := cut.2 }).editDesc nd
    fun n => { n with startVaddr := rest.1, sizeBytes := rest.2 }

section

variable {before pd nd after : DescPtr} {t : VirtualMemoryType} {range cut rest : Nat × Nat}

theorem LinkEffect.cutMiddle (k : Kernel) :
    LinkEffect k (k.cutMiddle before pd p nd after t range cut rest) := by
  unfold Kernel.cutMiddle Kernel.linkMiddle
  iterate 3 apply LinkEffect.then_edit
  apply LinkEffect.then_if
  iterate 3 apply LinkEffect.then_edit
  apply LinkEffect.then_if
  iterate 2 apply LinkEffect.then_edit
  exact ⟨rfl⟩

theorem Kernel.cutMiddle_vmm (k : Kernel) :
    (k.cutMiddle before pd p nd after t range cut rest).sh.vmm = k.sh.vmm := by
  simp [cutMiddle, linkMiddle]

theorem Kernel.cutMiddle_before (k : Kernel) (h0 : pd ≠ .null) (hn : pd ≠ nd) (hp : pd ≠ p)
    (hb : pd ≠ before) (ha : pd ≠ after) :
    (k.cutMiddle before pd p nd after t range cut rest).sh.descs pd =
      { k.sh.descs pd with
        type := t, prev := before, next := p, startVaddr := range.1, sizeBytes := range.2 } := by
  simp only [cutMiddle, linkMiddle, editDesc_descs, setDescIf_descs h0, if_neg hn, if_neg hp,
    if_neg hb, if_neg ha, if_true]

theorem Kernel.cutMiddle_middle (k : Kernel) (h0 : p ≠ .null) (hn : p ≠ nd) (hp : p ≠ pd)
    (hb : p ≠ before) (ha : p ≠ after) :
    (k.cutMiddle before pd p nd after t range cut rest).sh.descs p =
      { k.sh.descs p with prev := pd, next := nd, startVaddr := cut.1, sizeBytes := cut.2 } := by
  simp only [cutMiddle, linkMiddle, editDesc_descs, setDescIf_descs h0, if_neg hn, if_neg hp,
    if_neg hb, if_neg ha, if_true]

theorem Kernel.cutMiddle_after (k : Kernel) (h0 : nd ≠ .null) (hp : nd ≠ p) (hpd : nd ≠ pd)
    (hb : nd ≠ before) (ha : nd ≠ after) :
    (k.cutMiddle before pd p nd after t range cut rest).sh.descs nd =
      { k.sh.descs nd with
        type := t, prev := p, next := after, startVaddr := rest.1, sizeBytes := rest.2 } := by
  simp only [cutMiddle, linkMiddle, editDesc_descs, setDescIf_descs h0, if_neg hp, if_neg hpd,
    if_neg hb, if_neg ha, if_true]

theorem Kernel.cutMiddle_other (k : Kernel) (h0 : q ≠ .null) (hn : q ≠ nd) (hp : q ≠ p)
    (hpd : q ≠ pd) :
    (k.cutMiddle before pd p nd after t range cut rest).sh.descs q =
      relinkDesc k.sh.descs before pd nd after q := by
  simp only [cutMiddle, linkMiddle, editDesc_descs, setDescIf_descs h0, if_neg hn, if_neg hp,
    if_neg hpd]
  unfold relinkDesc
  split <;> split <;> rfl

end

def middlePieces (pd nd : DescPtr) (d : Area) (range cut rest : Nat × Nat) : List Area :=
  [⟨pd, range.1, range.2, 0, 0, d.type⟩, ⟨d.ptr, cut.1, cut.2, d.upper, d.lower, d.type⟩,
    ⟨nd, rest.1, rest.2, 0, 0, d.type⟩]

theorem cutMiddle_list {k₁ k₂ k₃ : Kernel} {pd nd : DescPtr} (range cut rest : Nat × Nat)
    (hv : VmmList k (pre ++ d :: post)) (hheld : .vmm ∈ k.cpu.held)
    (hpd : allocateVmemDescriptor.run k = .ok pd k₁)
    (hnd : allocateVmemDescriptor.run k₁ = .ok nd k₂)
    (hk₃ : k₂.cutMiddle (lastPtr pre) pd d.ptr nd (headPtr post) d.type range cut rest = k₃) :
    DescList k₃.sh.descs (pre ++ (middlePieces pd nd d range cut rest ++ post)) ∧
      k₃.sh.vmm.vmListHead ∈ (pre ++ (middlePieces pd nd d range cut rest ++ post)).map Area.ptr ∧
      DescPool k₃.sh ((pre ++ (middlePieces pd nd d range cut rest ++ post)).map Area.ptr) ∧
      DescEffect k k₃ := by
  obtain ⟨hstart, hsize, hupper, hlower, htype⟩ := hv.list.fields (d := d) (by simp)
  obtain ⟨hp0, hpmem, hpool₁, heff₁, hvmm₁, hdescs₁⟩ :=
    run_allocateVmemDescriptor_ok hv.pool hheld hpd
  obtain ⟨hn0, hnmem, hpool₂, heff₂, hvmm₂, hdescs₂⟩ :=
    run_allocateVmemDescriptor_ok hpool₁ (heff₁.held ▸ hheld) hnd
  obtain ⟨hnp, hnmem⟩ := not_or.1 (List.mem_cons.not.1 hnmem)
  -- the three descriptors are distinct, and none of them is another one of the list
  have hd0 : d.ptr ≠ .null := hv.list.ptr_ne_null (by simp)
  have hdp : d.ptr ≠ pd := fun e => hpmem (by simp [← e])
  have hdn : d.ptr ≠ nd := fun e => hnmem (by simp [← e])
  have hout := hv.list.ptr_notMem
  have hpout := notMem_rest hpmem
  have hnout := notMem_rest hnmem
  have hbase : ∀ q, q ≠ pd → q ≠ nd → k₂.sh.descs q = k.sh.descs q := fun q h1 h2 => by
    rw [hdescs₂, update_of_ne h2, hdescs₁, update_of_ne h1]
  have hp₂ : k₂.sh.descs pd = freshDesc k.sh.descs pd := by
    rw [hdescs₂, update_of_ne (Ne.symm hnp), hdescs₁, update_self]
  have hn₂ : k₂.sh.descs nd = freshDesc k₁.sh.descs nd := by rw [hdescs₂, update_self]
  have hp₃ := hk₃ ▸ Kernel.cutMiddle_before k₂ hp0 (Ne.symm hnp) hdp.symm (ne_lastPtr hp0 hpout)
    (ne_headPtr hp0 hpout)
  have hd₃ := hk₃ ▸ Kernel.cutMiddle_middle k₂ hd0 hdn hdp (ne_lastPtr hd0 hout)
    (ne_headPtr hd0 hout)
  have hn₃ := hk₃ ▸ Kernel.cutMiddle_after k₂ hn0 hdn.symm hnp (ne_lastPtr hn0 hnout)
    (ne_headPtr hn0 hnout)
  have hvmm₃ : k₃.sh.vmm = k.sh.vmm := by rw [← hk₃, Kernel.cutMiddle_vmm, hvmm₂, hvmm₁]
  have hlink : LinkEffect k₂ k₃ := hk₃ ▸ LinkEffect.cutMiddle k₂
  rw [hp₂] at hp₃
  rw [hn₂] at hn₃
  rw [hbase _ hdp hdn] at hd₃
  refine ⟨?_, ?_, hlink.pool (hpool₂.mono fun q hq => ?_), heff₁.trans (heff₂.trans hlink.desc)⟩
  · refine hv.list.splice (o := [d]) ?_ ?_ ?_ ?_ ?_ fun z hz => ?_
    · simp [middlePieces, hp₃, hd₃, hn₃]
    · simp [middlePieces, hdp.symm, hdn, Ne.symm hnp]
    · simp [middlePieces, hp0.symm, hd0.symm, hn0.symm]
    · simp only [middlePieces, List.mem_cons, List.not_mem_nil, or_false]
      rintro z (rfl | rfl | rfl)
      · exact hpout
      · exact hout
      · exact hnout
    · simp only [middlePieces, List.mem_cons, List.not_mem_nil, or_false]
      rintro z (rfl | rfl | rfl)
      · simp only [areaAt, hp₃, freshDesc, and_self]
      · have horigin := hv.list.origin d (by simp)
        simp only [areaAt, hd₃, hupper, hlower, htype, horigin, and_self]
      · simp only [areaAt, hn₃, freshDesc, and_self]
    · have hz0 : z.ptr ≠ .null := hv.list.ptr_ne_null (mem_splice.2 (.inr hz))
      have hzd : z.ptr ≠ d.ptr := fun e => hout (e ▸ List.mem_map_of_mem hz)
      have hzp : z.ptr ≠ pd := fun e => hpout (e ▸ List.mem_map_of_mem hz)
      have hzn : z.ptr ≠ nd := fun e => hnout (e ▸ List.mem_map_of_mem hz)
      rw [← hk₃, Kernel.cutMiddle_other k₂ hz0 hzn hzd hzp]
      simp [relinkDesc, hbase _ hzp hzn, headPtr, lastPtr, middlePieces, List.getLastD_eq_getLast?]
  · have := headPtr_mem (show pre ++ d :: post ≠ [] by simp)
    rw [hvmm₃, hv.head]
    simp only [middlePieces, List.map_append, List.map_cons, List.cons_append, List.nil_append,
      List.mem_append, List.mem_cons] at this ⊢
    tauto
  · simp only [middlePieces, List.map_append, List.map_cons, List.map_nil,
      List.mem_append, List.mem_cons, List.not_mem_nil, or_false] at hq ⊢
    tauto

/-- `allocate_vmem_descriptor` returns `n` times in a row. -/
def CanAllocate : (n : Nat) → Kernel → Prop
  | 0, _ => True
  | n + 1, k => ∃ p k', allocateVmemDescriptor.run k = .ok p k' ∧ CanAllocate n k'

/-- How many descriptors it takes to cut `n` bytes at `a` out of the area `d`. -/
def cutsNeeded (d : Area) (a n : Nat) : Nat :=
  (if d.start < a then 1 else 0) + (if a + n < d.stop then 1 else 0)

section

variable (hv : VmmList k (pre ++ d :: post)) (hlay : Layout (pre ++ d :: post))
  (hheld : .vmm ∈ k.cpu.held)

include hv hlay hheld

theorem cutDescriptorMiddle_runs (hfree : isFreeType d.type = true) (hmod : size % pageSize = 0)
    (hlo : d.start < start) (hend : start + size < d.stop) (hin : start ≠ identityMapVmemEnd)
    {pd nd : DescPtr} {k₂ : Kernel} (hpd : allocateVmemDescriptor.run k = .ok pd k₁)
    (hnd : allocateVmemDescriptor.run k₁ = .ok nd k₂) :
    ∃ k' u f g, (cutDescriptorMiddle d.ptr start size).run k = .ok d.ptr k' ∧
      CutReturns k k' pre d post start size d.ptr u f g := by
  obtain ⟨hstart, hsize, -, -, htype⟩ := hv.list.fields (d := d) (by simp)
  have hd0 : d.ptr ≠ .null := hv.list.ptr_ne_null (by simp)
  have hstop := hlay.stop_lt (x := d) (by simp)
  unfold Area.stop at hend hstop
  obtain ⟨-, hup0, hlow0⟩ := (hlay.ok d (by simp)).piece_self hfree
  obtain ⟨hprev, hnext⟩ := hv.list.around
  obtain ⟨hp0, -, hpool₁, heff₁, -, -⟩ := run_allocateVmemDescriptor_ok hv.pool hheld hpd
  obtain ⟨hn0, -, -, -, -, -⟩ :=
    run_allocateVmemDescriptor_ok hpool₁ (heff₁.held ▸ hheld) hnd
  have hadd : add64 start size = start + size := add64_eq (by omega)
  have hadd' : add64 d.start d.size = d.start + d.size := add64_eq hstop
  have hsub : sub64 start d.start = start - d.start := sub64_eq (by omega) (by omega)
  have hsub' : sub64 (d.start + d.size) (start + size) = d.start + d.size - (start + size) :=
    sub64_eq (by omega) (by omega)
  have hlen := hlay.length_lt
  obtain ⟨k₃, hk₃⟩ : ∃ k₃, k₂.cutMiddle (lastPtr pre) pd d.ptr nd (headPtr post) d.type
      (d.start, start - d.start) (start, size) (start + size, d.start + d.size - (start + size)) =
    k₃ := ⟨_, rfl⟩
  obtain ⟨hlist, hmem, hpool, heff⟩ := cutMiddle_list _ _ _ hv hheld hpd hnd hk₃
  have hup := run_updateHead hlist hmem (by
    simp only [middlePieces, List.length_append, List.length_cons, List.length_nil] at hlen ⊢
    omega)
  refine ⟨k₃.setHead (headPtr _), ⟨d.ptr, start, size, d.upper, d.lower, d.type⟩,
    some ⟨pd, d.start, start - d.start, 0, 0, d.type⟩,
    some ⟨nd, start + size, d.start + d.size - (start + size), 0, 0, d.type⟩, ?_,
    ⟨hlist, rfl, (LinkEffect.setHead _ _).pool hpool⟩, hfree, ⟨?_, ?_, by simp, by simp, hin⟩,
    ⟨rfl, hup0, hlow0⟩, rfl, rfl, rfl, hmod, heff.trans (DescEffect.setHead _ _)⟩
  · unfold cutDescriptorMiddle
    rw [run_readDesc_bind, run_kassert_bind, run_ok_bind hpd, run_ok_bind hnd, run_editDesc_bind,
      run_editDesc_bind, run_modifyDescIf_bind, run_editDesc_bind, run_editDesc_bind,
      run_editDesc_bind, run_modifyDescIf_bind, run_editDesc_bind, run_readDesc_bind,
      run_kassert_bind, run_editDesc_bind, run_editDesc_bind, run_readDesc_bind, run_kassert_bind]
    simp only [Kernel.editDesc_descs, if_true, VirtualMemoryDescriptor.endVaddr, hprev, hnext,
      htype, hstart, hsize, hadd, hadd', hsub, hsub', decide_eq_true_eq, beq_iff_eq]
    refine ⟨hd0, hlo, hp0, hn0, hp0, hd0, hn0, hp0, hp0, ?_, hd0, hn0, hn0, ?_,
      run_bind_ok.2 ⟨(), _, hk₃ ▸ hup, rfl⟩⟩
    · rw [add64_eq (by omega)]
      omega
    · rw [add64_eq (by omega)]
      omega
  · rintro z ⟨⟩
    refine ⟨⟨rfl, rfl, rfl⟩, rfl, ?_, hlo⟩
    show d.start + (start - d.start) = start
    omega
  · rintro z ⟨⟩
    refine ⟨⟨rfl, rfl, rfl⟩, rfl, ?_, hend⟩
    show start + size + (d.start + d.size - (start + size)) = d.start + d.size
    omega

theorem run_cutDescriptorStart_ok (h : (cutDescriptorStart d.ptr size).run k = .ok p k') :
    size ≤ d.size ∧ (size < d.size → CanAllocate 1 k) ∧
      ∃ u g, CutReturns k k' pre d post d.start size p u none g := by
  obtain ⟨-, hsize, -, -, htype⟩ := hv.list.fields (d := d) (by simp)
  have hrun := h
  unfold cutDescriptorStart at h
  rw [run_readDesc_bind, run_kassert_bind, run_kassert_bind, run_kassert_bind,
    run_kassert_bind, htype, hsize] at h
  obtain ⟨-, hfree, hle, -, hmod, h⟩ := h
  simp only [decide_eq_true_eq, beq_iff_eq, ge_iff_le] at hle hmod
  refine ⟨hle, ?_⟩
  split at h
  · next he =>
    cases h
    subst he
    exact ⟨fun hlt => (Nat.lt_irrefl _ hlt).elim, d, none, .whole hv (hlay.ok d (by simp)) hfree⟩
  · next hne =>
    obtain ⟨new, k₁, hnew, -⟩ := run_bind_ok.1 h
    obtain ⟨_, u, g, hrun', hret⟩ :=
      cutDescriptorStart_runs hv hheld hnew hlay hfree hmod (by omega)
    rw [hrun'] at hrun
    cases hrun
    exact ⟨fun _ => ⟨new, k₁, hnew, trivial⟩, u, g, hret⟩

theorem run_cutDescriptor_ok (hlo : d.start ≤ start) (hhi : start + size ≤ d.stop)
    (hin : start ≠ identityMapVmemEnd) (h : (cutDescriptor d.ptr start size).run k = .ok p k') :
    CanAllocate (cutsNeeded d start size) k ∧
      ∃ u f g, CutReturns k k' pre d post start size p u f g := by
  obtain ⟨hstart, hsize, -, -, htype⟩ := hv.list.fields (d := d) (by simp)
  have hstop := hlay.stop_lt (x := d) (by simp)
  have hend : (k.sh.descs d.ptr).endVaddr = d.stop := by
    rw [VirtualMemoryDescriptor.endVaddr, hstart, hsize]
    exact add64_eq hstop
  unfold cutDescriptor at h
  rw [run_readDesc_bind, run_kassert_bind, run_kassert_bind, run_kassert_bind,
    hstart, hsize, hend, htype, add64_eq (by omega)] at h
  obtain ⟨hd0, hfree, -, hmod, h⟩ := h
  rw [beq_iff_eq] at hmod
  unfold cutsNeeded
  split at h
  · next he =>
    obtain ⟨rfl, rfl⟩ := he
    cases h
    rw [if_neg (Nat.lt_irrefl _), if_neg (show ¬ d.start + d.size < d.stop from Nat.lt_irrefl _)]
    exact ⟨trivial, d, none, none, .whole hv (hlay.ok d (by simp)) hfree⟩
  · next hne =>
    split at h
    · next he =>
      subst he
      obtain ⟨hle, hcan, u, g, hret⟩ := run_cutDescriptorStart_ok hv hlay hheld h
      rw [if_neg (Nat.lt_irrefl _), if_pos (by unfold Area.stop; omega)]
      exact ⟨hcan (by omega), u, none, g, hret⟩
    · next hne' =>
      have hlt : d.start < start := by omega
      have hrun := h
      split at h
      · next he =>
        unfold cutDescriptorEnd at h
        rw [run_readDesc_bind] at h
        obtain ⟨new, k₁, hnew, -⟩ := run_bind_ok.1 h.2
        obtain ⟨_, u, f, hrun', hret⟩ :=
          cutDescriptorEnd_runs hv hheld hnew hlay hfree hmod hlt he.symm hin
        rw [if_pos he, hrun'] at hrun
        cases hrun
        rw [if_pos hlt, if_neg (by omega)]
        exact ⟨⟨p, k₁, hnew, trivial⟩, u, f, none, hret⟩
      · next he =>
        unfold cutDescriptorMiddle at h
        rw [run_readDesc_bind, run_kassert_bind] at h
        obtain ⟨pd, k₁, hpd, h⟩ := run_bind_ok.1 h.2.2
        obtain ⟨nd, k₂, hnd, -⟩ := run_bind_ok.1 h
        obtain ⟨_, u, f, g, hrun', hret⟩ :=
          cutDescriptorMiddle_runs hv hlay hheld hfree hmod hlt (by omega) hin hpd hnd
        rw [if_neg he, hrun'] at hrun
        cases hrun
        rw [if_pos hlt, if_pos (by omega)]
        exact ⟨⟨pd, k₁, hpd, nd, k₂, hnd, trivial⟩, u, f, g, hret⟩

end

end

end GarbageOS
