import GarbageOS.Lib.Links
import GarbageOS.Vmm.Areas
import GarbageOS.Vmm.Expand

/-!
# The descriptor list

`DescList descs xs`: the descriptors of the areas `xs` are linked in this order, both
ways, and say what the areas say. Edits of the list replace some consecutive areas
(`DescList.splice`) or what one descriptor says (`DescList.edit`). The two walks of
`vmm.c` follow: `update_head` back to the first descriptor and the search for the
first descriptor that passes a test.
-/

namespace GarbageOS

open Lib Function

def DescPtr.isHeap : DescPtr → Bool
  | .heap _ => true
  | _ => false

/-- The area of the descriptor at `p`. -/
def areaAt (descs : DescPtr → VirtualMemoryDescriptor) (p : DescPtr) : Area where
  ptr := p
  start := (descs p).startVaddr
  size := (descs p).sizeBytes
  upper := (descs p).upperPadding
  lower := (descs p).lowerPadding
  type := (descs p).type

def headPtr (xs : List Area) : DescPtr := (xs.map Area.ptr).headD .null

def lastPtr (xs : List Area) : DescPtr := (xs.map Area.ptr).getLastD .null

/-- The descriptors at the pointers of `xs` are a list with these areas. -/
structure DescList (descs : DescPtr → VirtualMemoryDescriptor) (xs : List Area) : Prop where
  links : Segment (fun p => (descs p).next) (fun p => (descs p).prev) .null (xs.map Area.ptr) .null
  nodup : (xs.map Area.ptr).Nodup
  null : .null ∉ xs.map Area.ptr
  area : ∀ x ∈ xs, areaAt descs x.ptr = x
  origin : ∀ x ∈ xs, (descs x.ptr).isFromHeap = x.ptr.isHeap

section

variable {descs descs' : DescPtr → VirtualMemoryDescriptor} {xs pre post : List Area} {d : Area}

theorem DescList.ptr_ne_null (h : DescList descs xs) (hd : d ∈ xs) : d.ptr ≠ .null := fun e =>
  h.null (List.mem_map.2 ⟨d, hd, e⟩)

theorem DescList.fields (h : DescList descs xs) (hd : d ∈ xs) :
    (descs d.ptr).startVaddr = d.start ∧ (descs d.ptr).sizeBytes = d.size ∧
      (descs d.ptr).upperPadding = d.upper ∧ (descs d.ptr).lowerPadding = d.lower ∧
      (descs d.ptr).type = d.type := by
  have ha := h.area d hd
  exact ⟨congrArg Area.start ha, congrArg Area.size ha, congrArg Area.upper ha,
    congrArg Area.lower ha, congrArg Area.type ha⟩

theorem DescList.ptr_inj (h : DescList descs xs) {x y : Area} (hx : x ∈ xs) (hy : y ∈ xs)
    (he : x.ptr = y.ptr) : x = y := by
  rw [← h.area x hx, ← h.area y hy, he]

theorem DescList.around (h : DescList descs (pre ++ d :: post)) :
    (descs d.ptr).prev = lastPtr pre ∧ (descs d.ptr).next = headPtr post := by
  have hl := h.links
  rw [List.map_append, segment_append] at hl
  exact ⟨hl.2.1, hl.2.2.1⟩

theorem DescList.headPtr_eq_null (h : DescList descs (pre ++ post)) :
    headPtr post = .null ↔ post = [] := by
  cases post with
  | nil => simp [headPtr]
  | cons x post =>
    have : x.ptr ≠ .null := h.ptr_ne_null (by simp)
    simpa [headPtr] using this

theorem DescList.ptr_notMem (h : DescList descs (pre ++ d :: post)) :
    d.ptr ∉ (pre ++ post).map Area.ptr := by
  have hnd := h.nodup
  rw [List.map_append, List.map_cons, List.nodup_middle] at hnd
  rw [List.map_append]
  exact (List.nodup_cons.1 hnd).1

/-- The link fields of a descriptor whose neighbours are replaced. -/
def relinkDesc (descs : DescPtr → VirtualMemoryDescriptor) (before first last after p : DescPtr) :
    VirtualMemoryDescriptor :=
  { descs p with
    next := if p = before then first else (descs p).next
    prev := if p = after then last else (descs p).prev }

theorem DescList.splice {o n : List Area} (h : DescList descs (pre ++ (o ++ post)))
    (hlinks : Segment (fun p => (descs' p).next) (fun p => (descs' p).prev) (lastPtr pre)
      (n.map Area.ptr) (headPtr post))
    (hnd : (n.map Area.ptr).Nodup) (hnull : .null ∉ n.map Area.ptr)
    (hfresh : ∀ x ∈ n, x.ptr ∉ (pre ++ post).map Area.ptr)
    (harea : ∀ x ∈ n, areaAt descs' x.ptr = x ∧ (descs' x.ptr).isFromHeap = x.ptr.isHeap)
    (hrest : ∀ x ∈ pre ++ post, descs' x.ptr =
      relinkDesc descs (lastPtr pre) (headPtr (n ++ post)) (lastPtr (pre ++ n)) (headPtr post) x.ptr) :
    DescList descs' (pre ++ (n ++ post)) := by
  have hmem : ∀ x ∈ pre ++ post, x ∈ pre ++ (o ++ post) := by
    intro x hx
    simp only [List.mem_append] at hx ⊢
    tauto
  have hold := h.nodup
  simp only [List.map_append] at hold
  have hnd' : ((pre ++ post).map Area.ptr).Nodup := by
    rw [List.map_append]
    refine hold.sublist ?_
    exact List.Sublist.append_left (List.sublist_append_right _ _) _
  have hnull' : .null ∉ (pre ++ post).map Area.ptr := fun hm => by
    obtain ⟨x, hx, he⟩ := List.mem_map.1 hm
    exact h.ptr_ne_null (hmem x hx) he
  refine ⟨?_, ?_, ?_, ?_, ?_⟩
  · have hl := h.links
    simp only [List.map_append] at hl hnd' hnull' ⊢
    refine hl.splice hnd' hnull' hnull' hlinks (fun p hp => ?_) fun p hp => ?_ <;>
    · rw [← List.map_append] at hp
      obtain ⟨x, hx, rfl⟩ := List.mem_map.1 hp
      simp only [hrest x hx, relinkDesc, lastPtr, headPtr, List.map_append]
  · simp only [List.map_append] at hnd' hfresh ⊢
    refine List.perm_append_comm_assoc (n.map Area.ptr) _ _ |>.nodup_iff.1 ?_
    refine List.nodup_append.2 ⟨hnd, hnd', fun p hp q hq he => ?_⟩
    obtain ⟨x, hx, rfl⟩ := List.mem_map.1 hp
    exact hfresh x hx (he ▸ hq)
  · intro hm
    simp only [List.map_append, List.mem_append] at hm hnull'
    tauto
  · intro x hx
    by_cases hxn : x ∈ n
    · exact (harea x hxn).1
    · have hx' : x ∈ pre ++ post := by
        simp only [List.mem_append] at hx ⊢
        tauto
      have ha := h.area x (hmem x hx')
      simp only [areaAt, hrest x hx', relinkDesc] at ha ⊢
      exact ha
  · intro x hx
    by_cases hxn : x ∈ n
    · exact (harea x hxn).2
    · have hx' : x ∈ pre ++ post := by
        simp only [List.mem_append] at hx ⊢
        tauto
      rw [hrest x hx']
      exact h.origin x (hmem x hx')

theorem DescList.edit {u : Area} {v : VirtualMemoryDescriptor} (h : DescList descs (pre ++ d :: post))
    (hu : u = areaAt (update descs d.ptr v) d.ptr) (hnext : v.next = (descs d.ptr).next)
    (hprev : v.prev = (descs d.ptr).prev) (horigin : v.isFromHeap = (descs d.ptr).isFromHeap) :
    DescList (update descs d.ptr v) (pre ++ u :: post) := by
  have hptr : u.ptr = d.ptr := by rw [hu]; rfl
  have hmap : (pre ++ u :: post).map Area.ptr = (pre ++ d :: post).map Area.ptr := by
    simp [hptr]
  have hne : ∀ x ∈ pre ++ post, x.ptr ≠ d.ptr := fun x hx he =>
    h.ptr_notMem (he ▸ List.mem_map_of_mem hx)
  have hold : ∀ x ∈ pre ++ post, x ∈ pre ++ d :: post := by
    intro x hx
    simp only [List.mem_append, List.mem_cons] at hx ⊢
    tauto
  refine ⟨?_, hmap ▸ h.nodup, hmap ▸ h.null, fun x hx => ?_, fun x hx => ?_⟩
  · rw [hmap]
    refine h.links.congr fun p _ => ?_
    by_cases hp : p = d.ptr
    · subst hp
      simp [hnext, hprev]
    · simp [update_of_ne hp]
  · rcases mem_splice.1 hx with rfl | hx
    · rw [hptr, ← hu]
    · simp only [areaAt, update_of_ne (hne x hx)]
      exact h.area x (hold x hx)
  · rcases mem_splice.1 hx with rfl | hx
    · rw [hptr, update_self, horigin]
      exact h.origin d (by simp)
    · rw [update_of_ne (hne x hx)]
      exact h.origin x (hold x hx)

end

/-! ## Walks -/

def Kernel.setHead (k : Kernel) (p : DescPtr) : Kernel :=
  { k with sh := { k.sh with vmm := { k.sh.vmm with vmListHead := p } } }

section

variable {k : Kernel} {xs pre rest : List Area}

theorem run_updateHeadFrom : ∀ {steps : Nat} {k : Kernel} {l r : List Area} {x : Area},
    DescList k.sh.descs (l ++ x :: r) → k.sh.vmm.vmListHead = x.ptr → l.length < steps →
    (updateHeadFrom steps).run k = .ok () (k.setHead (headPtr (l ++ x :: r))) := by
  intro steps
  induction steps with
  | zero => exact fun _ _ hlen => (Nat.not_lt_zero _ hlen).elim
  | succ steps ih =>
    intro k l r x hl hhead hlen
    have hx0 : x.ptr ≠ .null := hl.ptr_ne_null (by simp)
    obtain ⟨hprev, -⟩ := hl.around
    unfold updateHeadFrom
    rw [run_get_bind, hhead, run_readDesc_bind, and_iff_right hx0]
    rcases List.eq_nil_or_concat l with rfl | ⟨l', y, rfl⟩
    · have hnull : (k.sh.descs x.ptr).prev = .null := hprev
      rw [if_pos hnull, show headPtr ([] ++ x :: r) = k.sh.vmm.vmListHead from hhead.symm]
      rfl
    · have hy : (k.sh.descs x.ptr).prev = y.ptr := by
        rw [hprev]; simp [lastPtr, List.getLastD_eq_getLast?]
      have hyn : y.ptr ≠ .null := hl.ptr_ne_null (by simp)
      have happ : l'.concat y ++ x :: r = l' ++ y :: (x :: r) := by simp
      rw [List.length_concat] at hlen
      rw [hy, if_neg hyn, run_modifyShared_bind, happ]
      exact ih (k := k.setHead y.ptr) (happ ▸ hl) rfl (Nat.lt_of_succ_lt_succ hlen)

theorem run_updateHead (hl : DescList k.sh.descs xs) (hhead : k.sh.vmm.vmListHead ∈ xs.map Area.ptr)
    (hlen : xs.length ≤ 2 ^ 64) : updateHead.run k = .ok () (k.setHead (headPtr xs)) := by
  obtain ⟨x, hx, he⟩ := List.mem_map.1 hhead
  obtain ⟨l, r, rfl⟩ := List.append_of_mem hx
  rw [List.length_append, List.length_cons] at hlen
  exact run_updateHeadFrom hl he.symm (by omega)

theorem run_findDescriptor (test : VirtualMemoryDescriptor → Bool) (hne : rest ≠ [])
    (hl : DescList k.sh.descs (pre ++ rest)) :
    ∃ mid d post, rest = mid ++ d :: post ∧ (∀ x ∈ mid, test (k.sh.descs x.ptr) = false) ∧
      (test (k.sh.descs d.ptr) = true ∨ post = []) ∧ ∀ steps, mid.length ≤ steps →
        (findDescriptor test (steps + 1) (headPtr rest)).run k = .ok d.ptr k := by
  induction rest generalizing pre with
  | nil => exact absurd rfl hne
  | cons x rest ih =>
    have hx0 : x.ptr ≠ .null := hl.ptr_ne_null (by simp)
    have hx (l : List Area) : headPtr (x :: l) = x.ptr := rfl
    obtain ⟨-, hnext⟩ := hl.around
    have happ : pre ++ x :: rest = pre ++ [x] ++ rest := by simp
    rw [happ] at hl
    by_cases hstop : (k.sh.descs x.ptr).next = .null ∨ test (k.sh.descs x.ptr) = true
    · refine ⟨[], x, rest, rfl, by simp, ?_, fun steps _ => ?_⟩
      · exact hstop.symm.imp_right fun h => hl.headPtr_eq_null.1 (hnext ▸ h)
      · rw [hx, findDescriptor, run_readDesc_bind, if_pos hstop]
        exact ⟨hx0, rfl⟩
    · have hrest : rest ≠ [] := fun e => hstop (.inl (hnext.trans (hl.headPtr_eq_null.2 e)))
      obtain ⟨mid, d, post, rfl, hmid, hd, hrun⟩ := ih hrest hl
      refine ⟨x :: mid, d, post, rfl, ?_, hd, fun steps hsteps => ?_⟩
      · rw [List.forall_mem_cons]
        exact ⟨by simpa using (not_or.1 hstop).2, hmid⟩
      · obtain ⟨steps, rfl⟩ := Nat.exists_eq_add_of_lt hsteps
        rw [hx, findDescriptor, run_readDesc_bind, if_neg hstop, hnext]
        exact ⟨hx0, hrun _ (by omega)⟩

end

end GarbageOS
