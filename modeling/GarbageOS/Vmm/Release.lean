import GarbageOS.Vmm.Cut

/-!
# Coalescing free descriptors

A descriptor that becomes free is merged with the free descriptor before it, if there
is one, and with the run of free descriptors after it, whose descriptors are given back.
-/

namespace GarbageOS

open Lib

section

variable {k k' : Kernel} {pre post rest : List Area} {d f : Area} {t : VirtualMemoryType}
  {p : DescPtr} {u : Unit}

theorem tiles_totalSize_le {xs : List Area} {a e : Nat} (h : Tiles Area.start Area.bound a xs e) :
    a + totalSize xs ≤ e := by
  induction xs generalizing a with
  | nil => exact Nat.le_of_eq h
  | cons x xs ih =>
    obtain ⟨hx, hxs⟩ := h
    have h1 := ih hxs
    have h2 := x.stop_le_bound
    unfold Area.stop at h2
    simp only [totalSize, List.map_cons, List.sum_cons] at h1 ⊢
    omega

theorem Layout.totalSize_lt (h : Layout (pre ++ rest)) : totalSize rest < 2 ^ 64 := by
  obtain ⟨a, -, hrest⟩ := tiles_append.1 h.tiles
  have := tiles_totalSize_le hrest
  have hend : kernelVmemEnd < 2 ^ 64 := by decide
  omega

theorem DescList.others_kept {descs : DescPtr → VirtualMemoryDescriptor} {keep : List Area} {x : Area}
    (hl : DescList descs (pre ++ x :: rest)) (hkeep : ∀ y ∈ keep, y ∈ pre) :
    ∀ q ∈ (keep ++ rest).map Area.ptr, q ∈ (keep ++ x :: rest).map Area.ptr ∧ q ≠ x.ptr := by
  intro q hq
  obtain ⟨y, hy, rfl⟩ := List.mem_map.1 hq
  have hy' : y ∈ pre ++ rest := by
    rcases List.mem_append.1 hy with hy | hy
    · exact List.mem_append_left _ (hkeep y hy)
    · exact List.mem_append_right _ hy
  refine ⟨List.mem_map_of_mem (mem_splice.2 (.inr hy)), fun e => ?_⟩
  exact hl.ptr_notMem (e ▸ List.mem_map_of_mem hy')

/-- The loop over the descriptors after the first one: it gives back the run of those of
type `t` and adds up their sizes. -/
theorem absorbFollowing_runs {keep : List Area} :
    ∀ {steps n : Nat} {k : Kernel} {pre rest : List Area}, rest.length < steps →
      DescList k.sh.descs (pre ++ rest) → (∀ x ∈ keep, x ∈ pre) →
      DescPool k.sh ((keep ++ rest).map Area.ptr) → .kheap ∉ k.cpu.held →
      n + totalSize rest < 2 ^ 64 → ∃ k' gs post, rest = gs ++ post ∧
        (absorbFollowing t steps (headPtr rest) n).run k =
          .ok (headPtr post, n + totalSize gs) k' ∧
        (∀ x ∈ gs, x.type = t) ∧ (∀ s ∈ (post.map Area.type).head?, s ≠ t) ∧ HeapEffect k k' ∧
        DescPool k'.sh ((keep ++ post).map Area.ptr) := by
  intro steps
  induction steps with
  | zero => intro _ _ _ _ hlen; exact (Nat.not_lt_zero _ hlen).elim
  | succ steps ih =>
    intro n k pre rest hlen hl hkeep hpool hheld hfit
    unfold absorbFollowing
    cases rest with
    | nil => exact ⟨k, [], [], rfl, rfl, by simp, by simp, ⟨rfl⟩, hpool⟩
    | cons x rest =>
      have hx0 : x.ptr ≠ .null := hl.ptr_ne_null (by simp)
      have hx : headPtr (x :: rest) = x.ptr := rfl
      obtain ⟨-, hsize, -, -, htype⟩ := hl.fields (d := x) (by simp)
      obtain ⟨-, hnext⟩ := hl.around
      simp only [hx, if_neg hx0, run_readDesc_bind, htype]
      split
      · next hne =>
        exact ⟨k, [], x :: rest, rfl, ⟨hx0, rfl⟩, by simp, by simpa using hne, ⟨rfl⟩, hpool⟩
      · next he =>
        obtain ⟨k₁, hfree, heff, hpool₁⟩ := deallocateVmmDescriptor_runs hpool (p := x.ptr) (by simp)
          hx0 (hl.origin x (by simp)) hheld
        have hdescs : k₁.sh.descs = k.sh.descs := by rw [heff.eq]
        have happ : pre ++ x :: rest = pre ++ [x] ++ rest := by simp
        have hsum : totalSize (x :: rest) = x.size + totalSize rest := by simp [totalSize]
        have hadd : add64 n x.size = n + x.size := add64_eq (by omega)
        rw [run_ok_bind hfree, hnext, hsize, hadd]
        obtain ⟨k', gs, post, rfl, hrun, htypes, hhead, heff', hpool'⟩ :=
          ih (n := n + x.size) (Nat.lt_of_succ_lt_succ hlen) (by rw [hdescs, ← happ]; exact hl)
            (fun y hy => List.mem_append_left _ (hkeep y hy)) (hpool₁ _ (hl.others_kept hkeep))
            (heff.held ▸ hheld) (by omega)
        refine ⟨k', x :: gs, post, rfl, ⟨hx0, ?_⟩, ?_, hhead, heff.trans heff', hpool'⟩
        · rw [hrun, Nat.add_assoc]
          simp [totalSize]
        · rw [List.forall_mem_cons]
          exact ⟨by simpa using he, htypes⟩

theorem DescList.next_lastPtr {descs : DescPtr → VirtualMemoryDescriptor} {x : Area}
    (hl : DescList descs (pre ++ rest)) (hx : x ∈ pre ++ rest) (he : x.ptr = lastPtr pre) :
    (descs x.ptr).next = headPtr rest := by
  rcases List.eq_nil_or_concat pre with rfl | ⟨init, y, rfl⟩
  · exact (hl.ptr_ne_null hx he).elim
  · have hy : x = y := hl.ptr_inj hx (by simp)
      (by rw [he]; simp [lastPtr, List.getLastD_eq_getLast?])
    subst hy
    have happ : init.concat x ++ rest = init ++ x :: rest := by simp
    rw [happ] at hl
    exact hl.around.2

theorem coalesce_runs (t : VirtualMemoryType) (hv : VmmList k (pre ++ f :: rest))
    (hfit : totalSize (f :: rest) < 2 ^ 64) (hne : rest ≠ []) (hlen : rest.length < 2 ^ 64)
    (hheld : .kheap ∉ k.cpu.held) : ∃ k' gs post, rest = gs ++ post ∧
      (coalesce f.ptr t).run k = .ok () k' ∧ (∀ x ∈ gs, x.type = t) ∧
      (∀ s ∈ (post.map Area.type).head?, s ≠ t) ∧ DescEffect k k' ∧
      VmmList k' (pre ++ ([{ f with size := f.size + totalSize gs }] ++ post)) := by
  obtain ⟨hstart, hsize, hupper, hlower, htype⟩ := hv.list.fields (d := f) (by simp)
  obtain ⟨hprev, hnext⟩ := hv.list.around
  have happ : pre ++ f :: rest = pre ++ [f] ++ rest := by simp
  have hf0 : f.ptr ≠ .null := hv.list.ptr_ne_null (by simp)
  obtain ⟨y, ys, rfl⟩ := List.exists_cons_of_ne_nil hne
  have hy0 : headPtr (y :: ys) ≠ .null := hv.list.ptr_ne_null (d := y) (by simp)
  have hytype : (k.sh.descs (headPtr (y :: ys))).type = y.type :=
    (hv.list.fields (d := y) (by simp)).2.2.2.2
  unfold coalesce
  simp only [run_readDesc_bind, hnext, hytype, hsize]
  split
  · have hsum : totalSize (f :: y :: ys) = f.size + totalSize (y :: ys) := by simp [totalSize]
    obtain ⟨k₁, gs, post, hsplit, habs, htypes, hhead, heff, hpool⟩ :=
      absorbFollowing_runs (t := t) (n := f.size) hlen (happ ▸ hv.list) (fun x hx => hx)
        (happ ▸ hv.pool) hheld (by omega)
    rw [run_ok_bind habs]
    simp only [run_editDesc_bind]
    rw [← bind_pure (modifyDescIf _ _)]
    simp only [run_modifyDescIf_bind]
    rw [hsplit] at hv
    have hdescs : k₁.sh.descs = k.sh.descs := by rw [heff.eq]
    have hvmm : k₁.sh.vmm = k.sh.vmm := by rw [heff.eq]
    have hout := hv.list.ptr_notMem
    have hout' : f.ptr ∉ (pre ++ post).map Area.ptr := fun hm => hout (by
      simp only [List.map_append, List.mem_append] at hm ⊢
      tauto)
    obtain ⟨k₂, hk₂⟩ : ∃ k₂, (k₁.editDesc f.ptr fun n =>
        { n with sizeBytes := f.size + totalSize gs, next := headPtr post }).setDescIf (headPtr post)
          (fun n => { n with prev := f.ptr }) = k₂ := ⟨_, rfl⟩
    have hlink : LinkEffect k₁ k₂ := hk₂ ▸ LinkEffect.then_if (.then_edit ⟨rfl⟩)
    have hf₂ : k₂.sh.descs f.ptr =
        { k.sh.descs f.ptr with sizeBytes := f.size + totalSize gs, next := headPtr post } := by
      rw [← hk₂, Kernel.setDescIf_descs hf0, if_neg (ne_headPtr hf0 hout'),
        Kernel.editDesc_descs, if_pos rfl, hdescs]
    refine ⟨k₂, gs, post, hsplit, ⟨hf0, hy0, hf0, by rw [← hk₂]; rfl⟩, htypes, hhead,
      heff.desc.trans hlink.desc, ?_, ?_, ?_⟩
    · refine DescList.splice (o := f :: gs) hv.list ?_ ?_ ?_ ?_ ?_ fun z hz => ?_
      · simp [hf₂, hprev]
      · simp
      · simpa using hf0.symm
      · simpa using hout'
      · simp only [List.mem_singleton, forall_eq]
        have horigin := hv.list.origin f (by simp)
        simp only [areaAt, hf₂, hstart, hupper, hlower, htype, horigin, and_self]
      · have hz' : z ∈ pre ++ f :: (gs ++ post) := by
          simp only [List.mem_append, List.mem_cons] at hz ⊢
          tauto
        have hz0 : z.ptr ≠ .null := hv.list.ptr_ne_null hz'
        have hzf : z.ptr ≠ f.ptr := fun e => hout' (e ▸ List.mem_map_of_mem hz)
        have hfirst : headPtr ([{ f with size := f.size + totalSize gs }] ++ post) = f.ptr := rfl
        have hlast : lastPtr (pre ++ [{ f with size := f.size + totalSize gs }]) = f.ptr := by
          simp [lastPtr, List.getLastD_eq_getLast?]
        rw [hfirst, hlast, ← hk₂, Kernel.setDescIf_descs hz0, Kernel.editDesc_descs, if_neg hzf,
          hdescs]
        -- the descriptor before `f` points to it already
        unfold relinkDesc
        by_cases hzl : z.ptr = lastPtr pre
        · have hzn := hv.list.next_lastPtr hz' hzl
          rw [if_pos hzl, ← show headPtr (f :: (gs ++ post)) = f.ptr from rfl, ← hzn]
          split <;> rfl
        · rw [if_neg hzl]
          split <;> rfl
    · rw [← hk₂, Kernel.setDescIf_vmm, Kernel.editDesc_vmm, hvmm, hv.head]
      cases pre <;> rfl
    · refine hlink.pool (hpool.mono fun q hq => ?_)
      simpa using hq
  · next hyne =>
    exact ⟨k, [], y :: ys, rfl, ⟨hf0, hy0, rfl⟩, by simp, by simpa using hyne, ⟨rfl⟩, hv⟩

theorem run_freePredecessor (t : VirtualMemoryType) (hv : VmmList k (pre ++ d :: post)) :
    ∃ p, (freePredecessor d.ptr t).run k = .ok p k ∧
      ((∃ init f, pre = init ++ [f] ∧ f.type = t ∧ p = f.ptr) ∨
        (p = d.ptr ∧ ∀ s ∈ (pre.map Area.type).getLast?, s ≠ t)) := by
  have hd0 : d.ptr ≠ .null := hv.list.ptr_ne_null (by simp)
  obtain ⟨hprev, -⟩ := hv.list.around
  unfold freePredecessor
  simp only [run_readDesc_bind, hprev]
  rcases List.eq_nil_or_concat pre with rfl | ⟨init, f, rfl⟩
  · exact ⟨d.ptr, ⟨hd0, rfl⟩, .inr ⟨rfl, by simp⟩⟩
  · have hf : lastPtr (init.concat f) = f.ptr := by simp [lastPtr, List.getLastD_eq_getLast?]
    have hf0 : f.ptr ≠ .null := hv.list.ptr_ne_null (by simp)
    have hftype : (k.sh.descs f.ptr).type = f.type :=
      (hv.list.fields (d := f) (by simp)).2.2.2.2
    simp only [hf, if_neg hf0, run_readDesc_bind, hftype]
    by_cases he : f.type = t
    · exact ⟨f.ptr, ⟨hd0, hf0, by rw [if_pos he]; rfl⟩, .inl ⟨init, f, by simp, he, rfl⟩⟩
    · exact ⟨d.ptr, ⟨hd0, hf0, by rw [if_neg he]; rfl⟩, .inr ⟨rfl, by simpa using he⟩⟩

end

/-! ## Giving an area back -/

/-- The area `d` became free: `m` has taken its place and that of the free areas next to it. -/
structure Released (xs : List Area) (d m : Area) (xs' : List Area) : Prop where
  type : m.type = freeTypeAt d.start
  places : ∃ pre fs gs post, xs = pre ++ (fs ++ d :: gs ++ post) ∧ xs' = pre ++ ([m] ++ post) ∧
    ∀ x ∈ fs ++ gs, x.type = freeTypeAt d.start

/-- There is a descriptor after the one that takes the others in: `d` is not the last, or the area
before it is free. -/
def Mergeable (xs : List Area) (d : Area) : Prop :=
  ∃ pre post, xs = pre ++ d :: post ∧
    (post ≠ [] ∨ ∃ init f, pre = init ++ [f] ∧ f.type = freeTypeAt d.start)

section

variable {k k' : Kernel} {xs xs' pre post : List Area} {d m : Area} {u : Unit}

theorem Released.used (h : Released xs d m xs') (hnd : xs.Nodup) {x : Area}
    (hx : isFreeType x.type = false) : x ∈ xs' ↔ x ∈ xs ∧ x ≠ d := by
  obtain ⟨pre, fs, gs, post, rfl, rfl, htypes⟩ := h.places
  have hfree : ∀ y ∈ fs ++ gs, x ≠ y := by
    rintro y hy rfl
    rw [htypes x hy, isFreeType_freeTypeAt] at hx
    cases hx
  have hm : x ≠ m := by
    rintro rfl
    rw [h.type, isFreeType_freeTypeAt] at hx
    cases hx
  have hd : d ∉ pre ∧ d ∉ post := by
    have hperm : (pre ++ (fs ++ d :: gs ++ post)).Perm (d :: (pre ++ (fs ++ gs ++ post))) := by
      have hmiddle : (pre ++ fs ++ d :: (gs ++ post)).Perm (d :: (pre ++ fs ++ (gs ++ post))) :=
        List.perm_middle
      simpa using hmiddle
    have := (List.nodup_cons.1 (hperm.nodup_iff.1 hnd)).1
    simp only [List.mem_append, not_or] at this
    exact ⟨this.1, this.2.2⟩
  have hfs : x ∉ fs := fun hm => hfree x (List.mem_append_left _ hm) rfl
  have hgs : x ∉ gs := fun hm => hfree x (List.mem_append_right _ hm) rfl
  simp only [List.mem_append, List.mem_cons, List.not_mem_nil, or_false]
  constructor
  · rintro (hx | hx | hx)
    · exact ⟨.inl hx, fun e => hd.1 (e ▸ hx)⟩
    · exact (hm hx).elim
    · exact ⟨.inr (.inr hx), fun e => hd.2 (e ▸ hx)⟩
  · tauto

theorem Layout.before_free {f : Area} (h : Layout (pre ++ f :: post))
    (hf : isFreeType f.type = true) : ∀ s ∈ (pre.map Area.type).getLast?, s ≠ f.type := by
  intro s hs e
  have hapart := h.apart
  rw [List.map_append, List.map_cons] at hapart
  obtain ⟨-, -, hmeet⟩ := List.isChain_append.1 hapart
  exact hmeet s hs f.type rfl (e ▸ hf) e

section

variable {t : VirtualMemoryType} (hv : VmmList k (pre ++ d :: post))

include hv

/-- The descriptor of `d` is set free, and it or the free one before it takes in those after it. -/
theorem run_release (t : VirtualMemoryType) : ∃ k₀ p, DescEffect k k₀ ∧
    VmmList k₀ (pre ++ (⟨d.ptr, d.start, d.size, 0, 0, t⟩ : Area) :: post) ∧
    ((∃ init f, pre = init ++ [f] ∧ f.type = t ∧ p = f.ptr) ∨
      (p = d.ptr ∧ ∀ s ∈ (pre.map Area.type).getLast?, s ≠ t)) ∧
    (do modifyDesc d.ptr fun n => { n with type := t, lowerPadding := 0, upperPadding := 0 }
        coalesce (← freePredecessor d.ptr t) t).run k = (coalesce p t).run k₀ := by
  obtain ⟨hstart, hsize, -, -, -⟩ := hv.list.fields (d := d) (by simp)
  have hv' : VmmList (k.setDesc d.ptr { k.sh.descs d.ptr with
      type := t, lowerPadding := 0, upperPadding := 0 })
      (pre ++ (⟨d.ptr, d.start, d.size, 0, 0, t⟩ : Area) :: post) :=
    hv.edit (by simp only [hstart, hsize]) rfl rfl rfl
  obtain ⟨p, hpred, hcases⟩ := run_freePredecessor t hv'
  refine ⟨_, p, DescEffect.setDesc _ _ _, hv', hcases, ?_⟩
  rw [run_ok_bind (run_modifyDesc_ok (u := ()).2 ⟨hv.list.ptr_ne_null (by simp), rfl⟩)]
  exact run_ok_bind hpred

/-- The descriptor after the one that takes the others in is read. -/
theorem mergeable_of_release (ht : t = freeTypeAt d.start) (h : (do
      modifyDesc d.ptr fun n => { n with type := t, lowerPadding := 0, upperPadding := 0 }
      coalesce (← freePredecessor d.ptr t) t).run k = .ok u k') : Mergeable (pre ++ d :: post) d := by
  obtain ⟨k₀, p, -, hv', hcases, hrun⟩ := run_release hv t
  refine ⟨pre, post, rfl, ?_⟩
  rcases hcases with ⟨init, f, rfl, hft, -⟩ | ⟨rfl, -⟩
  · exact .inr ⟨init, f, rfl, hft.trans ht⟩
  · obtain ⟨-, hnext⟩ := hv'.list.around
    rw [hrun, coalesce, run_readDesc_bind, hnext, run_readDesc_bind] at h
    exact .inl fun e => h.2.1 (by rw [e]; rfl)

end

theorem release_runs {t : VirtualMemoryType} (hv : VmmList k xs) (hlay : Layout xs)
    (ht : t = freeTypeAt d.start) (hmerge : Mergeable xs d) (hheld : .kheap ∉ k.cpu.held) :
    ∃ k' xs' m, (do
        modifyDesc d.ptr fun n => { n with type := t, lowerPadding := 0, upperPadding := 0 }
        coalesce (← freePredecessor d.ptr t) t).run k = .ok () k' ∧
      VmmList k' xs' ∧ Layout xs' ∧ Released xs d m xs' ∧ DescEffect k k' := by
  obtain ⟨pre, post, rfl, hmerge⟩ := hmerge
  obtain ⟨k₀, p, heff, hv', hcases, hrun⟩ := run_release hv t
  have htfree : isFreeType t = true := by rw [ht]; exact isFreeType_freeTypeAt _
  have hlen := hlay.length_lt
  rw [List.length_append, List.length_cons] at hlen
  have hheld' : .kheap ∉ k₀.cpu.held := heff.held ▸ hheld
  rw [hrun]
  rcases hcases with ⟨init, f, rfl, hft, rfl⟩ | ⟨rfl, hpre⟩
  · -- the area before it is free: it takes in `d` and what follows
    rw [List.append_assoc, List.singleton_append] at hv'
    have hlay₀ : Layout (init ++ f :: (d :: post)) := by simpa using hlay
    have hfit : totalSize (f :: ⟨d.ptr, d.start, d.size, 0, 0, t⟩ :: post) < 2 ^ 64 := by
      have := hlay₀.totalSize_lt
      simpa [totalSize] using this
    obtain ⟨k', gs₀, post', hsplit, hrun', htypes, hhead, heff', hv''⟩ :=
      coalesce_runs t hv' hfit (by simp) (by rw [List.length_cons]; omega) hheld'
    cases gs₀ with
    | nil =>
      rw [List.nil_append] at hsplit
      exact (hhead t (by rw [← hsplit]; rfl) rfl).elim
    | cons y gs =>
      obtain ⟨rfl, rfl⟩ := List.cons.inj hsplit
      have htypes' : ∀ x ∈ [f] ++ gs, x.type = t := by
        simp only [List.singleton_append, List.forall_mem_cons]
        exact ⟨hft, (List.forall_mem_cons.1 htypes).2⟩
      have hlay' : Layout (init ++ ([f] ++ d :: gs ++ post')) := by simpa using hlay
      obtain ⟨hlow0, hup0, -⟩ := (hlay₀.ok f (by simp)).free (by rw [hft]; exact htfree)
      refine ⟨k', _, { f with size := f.size + totalSize (_ :: gs) }, hrun', hv'', ?_,
        ⟨hft.trans ht, init, [f], gs, post', by simp, rfl, ht ▸ htypes'⟩, heff.trans heff'⟩
      refine hlay'.release ht htypes' ⟨hft, hup0, hlow0⟩ rfl ?_ (fun s hs => ?_) hhead
      · simp [totalSize]
      · exact hft ▸ hlay₀.before_free (by rw [hft]; exact htfree) s hs
  · have hne : post ≠ [] := hmerge.resolve_right (by
      rintro ⟨init, f, hpre', hf⟩
      exact hpre t (by simp [hpre', hf, ht]) rfl)
    have hfit : totalSize (⟨d.ptr, d.start, d.size, 0, 0, t⟩ :: post) < 2 ^ 64 := by
      have := hlay.totalSize_lt
      simpa [totalSize] using this
    obtain ⟨k', gs, post', rfl, hrun', htypes, hhead, heff', hv''⟩ :=
      coalesce_runs t hv' hfit hne (by omega) hheld'
    have hlay' : Layout (pre ++ ([] ++ d :: gs ++ post')) := by simpa using hlay
    have htypes' : ∀ x ∈ [] ++ gs, x.type = t := by simpa using htypes
    refine ⟨k', _, _, hrun', hv'', ?_, ⟨ht, pre, [], gs, post', by simp, rfl, ht ▸ htypes'⟩,
      heff.trans heff'⟩
    refine hlay'.release ht htypes' ⟨rfl, rfl, rfl⟩ rfl ?_ hpre hhead
    simp [totalSize]

end

end GarbageOS
