import GarbageOS.Lib.Tiling
import GarbageOS.Vmm.Code
import Mathlib.Algebra.GroupWithZero.Nat
import Mathlib.Data.List.Chain

/-!
# The kernel address space as a list of areas

What the descriptor list says, without its pointers: areas that follow one another
from the first page to the end of the identity-mapped part and from the start of the
kernel part to its end. A request cuts a used area out of a free one, an expansion
shrinks the padding of an area, and a deallocation merges an area with the free
areas around it; each of these keeps the `Layout`.
-/

namespace GarbageOS

open Lib

/-- What a descriptor says of its address range. -/
@[ext] structure Area where
  ptr : DescPtr
  start : Nat
  size : Nat
  upper : Nat
  lower : Nat
  type : VirtualMemoryType
  deriving DecidableEq

/-- Where the last area ends: the last page is left out. -/
def kernelVmemEnd : Nat := 0xfffffffffffff000

theorem identityMapVmemEnd_eq : identityMapVmemEnd = 2 ^ 39 := by decide

theorem kernelVmemStart_eq : kernelVmemStart = 2 ^ 64 - 2 ^ 47 := by decide

theorem identityMapVmemEnd_lt : identityMapVmemEnd < kernelVmemStart := by decide

/-- The free type of the part of the address space that `addr` lies in. -/
def freeTypeAt (addr : Nat) : VirtualMemoryType :=
  if addr < identityMapVmemEnd then .identityMapFree else .free

theorem isFreeType_freeTypeAt (addr : Nat) : isFreeType (freeTypeAt addr) = true := by
  unfold freeTypeAt; split <;> rfl

namespace Area

def stop (x : Area) : Nat := x.start + x.size

/-- Where the next area starts: after the identity-mapped part comes the kernel part. -/
def bound (x : Area) : Nat := if x.stop = identityMapVmemEnd then kernelVmemStart else x.stop

/-- The area lies in one of the two parts. -/
def InPart (x : Area) : Prop :=
  x.start < identityMapVmemEnd ∧ x.stop ≤ identityMapVmemEnd ∨ kernelVmemStart ≤ x.start

/-- What every area of the list satisfies by itself. -/
structure Ok (x : Area) : Prop where
  start_aligned : x.start % pageSize = 0
  size_aligned : x.size % pageSize = 0
  nonempty : 0 < x.size
  inPart : x.InPart
  padding : x.lower + x.upper ≤ x.size
  free : isFreeType x.type = true → x.lower = 0 ∧ x.upper = 0 ∧ x.type = freeTypeAt x.start

theorem start_le_stop (x : Area) : x.start ≤ x.stop := Nat.le_add_right _ _

theorem stop_le_bound (x : Area) : x.stop ≤ x.bound := by
  unfold bound
  split
  · next h => rw [h]; decide
  · exact Nat.le_refl _

theorem start_le_bound (x : Area) : x.start ≤ x.bound := x.start_le_stop.trans x.stop_le_bound

theorem bound_eq_stop {x : Area} (h : x.stop ≠ identityMapVmemEnd) : x.bound = x.stop := if_neg h

theorem bound_congr {x y : Area} (h : x.stop = y.stop) : x.bound = y.bound := by
  unfold bound; rw [h]

/-- A free area without padding, of the type of `d`. -/
structure PieceOf (x d : Area) : Prop where
  type : x.type = d.type
  upper : x.upper = 0
  lower : x.lower = 0

end Area

/-- Areas next to each other are not both of the same free type. -/
def Unmergeable (s t : VirtualMemoryType) : Prop := isFreeType s = true → s ≠ t

/-- The areas of the kernel address space. -/
structure Layout (xs : List Area) : Prop where
  tiles : Tiles Area.start Area.bound pageSize xs kernelVmemEnd
  ok : ∀ x ∈ xs, x.Ok
  apart : (xs.map Area.type).IsChain Unmergeable

section

variable {xs pre post : List Area} {d u x : Area} {f g : Option Area}

theorem Layout.bounds (h : Layout xs) (hx : x ∈ xs) :
    pageSize ≤ x.start ∧ x.stop ≤ kernelVmemEnd := by
  obtain ⟨h1, h2⟩ := (h.tiles.bounds fun y _ => y.start_le_bound).2 x hx
  exact ⟨h1, x.stop_le_bound.trans h2⟩

/-- Replace consecutive areas by others over the same addresses. -/
theorem Layout.splice {o n : List Area} (h : Layout (pre ++ (o ++ post)))
    (htiles : ∀ a e, Tiles Area.start Area.bound a o e → Tiles Area.start Area.bound a n e)
    (hok : (∀ x ∈ o, x.Ok) → ∀ x ∈ n, x.Ok)
    (hapart : ((pre ++ (n ++ post)).map Area.type).IsChain Unmergeable) :
    Layout (pre ++ (n ++ post)) where
  tiles := by
    obtain ⟨a, hpre, hrest⟩ := tiles_append.1 h.tiles
    obtain ⟨e, hmid, hpost⟩ := tiles_append.1 hrest
    exact tiles_append.2 ⟨a, hpre, tiles_append.2 ⟨e, htiles a e hmid, hpost⟩⟩
  ok x hx := by
    simp only [List.mem_append] at hx
    rcases hx with hx | hx | hx
    · exact h.ok x (by simp [hx])
    · exact hok (fun y hy => h.ok y (by simp [hy])) x hx
    · exact h.ok x (by simp [hx])
  apart := hapart

/-! ## Cutting -/

/-- The area `u` is cut out of `d`, with `f` left before it and `g` after it. -/
structure Cuts (d u : Area) (f g : Option Area) : Prop where
  before : ∀ x ∈ f, x.PieceOf d ∧ x.start = d.start ∧ x.stop = u.start ∧ d.start < u.start
  after : ∀ x ∈ g, x.PieceOf d ∧ x.start = u.stop ∧ x.stop = d.stop ∧ u.stop < d.stop
  start : f = none → u.start = d.start
  stop : g = none → u.stop = d.stop
  inside : u.start ≠ identityMapVmemEnd

theorem Cuts.start_le (h : Cuts d u f g) : d.start ≤ u.start := by
  cases f with
  | none => exact Nat.le_of_eq (h.start rfl).symm
  | some x => exact Nat.le_of_lt (h.before x rfl).2.2.2

theorem Cuts.stop_le (h : Cuts d u f g) : u.stop ≤ d.stop := by
  cases g with
  | none => exact Nat.le_of_eq (h.stop rfl)
  | some x => exact Nat.le_of_lt (h.after x rfl).2.2.2

/-- The areas in the place of `d`. -/
def cutPieces (u : Area) (f g : Option Area) : List Area := f.toList ++ u :: g.toList

theorem Area.Ok.inside {a : Nat} (h : d.Ok) (h1 : d.start ≤ a) (h2 : a < d.stop) :
    a ≠ identityMapVmemEnd := by
  have hlt := identityMapVmemEnd_lt
  rcases h.inPart with ⟨-, hp⟩ | hp <;> omega

theorem Area.Ok.stop_le_low (h : d.Ok) (hlow : d.start < identityMapVmemEnd) :
    d.stop ≤ identityMapVmemEnd := by
  have hlt := identityMapVmemEnd_lt
  rcases h.inPart with ⟨-, hp⟩ | hp <;> omega

theorem Cuts.tiles (h : Cuts d u f g) (hd : d.Ok) {a e : Nat}
    (ht : Tiles Area.start Area.bound a [d] e) :
    Tiles Area.start Area.bound a (cutPieces u f g) e := by
  obtain ⟨hstart, hbound⟩ := ht
  have hlo := h.start_le
  have hu := u.start_le_stop
  -- what comes from `u` on
  have hrest : Tiles Area.start Area.bound u.start (u :: g.toList) e := by
    cases g with
    | none => exact ⟨rfl, (Area.bound_congr (h.stop rfl)).trans hbound⟩
    | some y =>
      obtain ⟨-, hy, hye, hlt⟩ := h.after y rfl
      refine ⟨rfl, ?_, (Area.bound_congr hye).trans hbound⟩
      rw [Area.bound_eq_stop (hd.inside (by omega) hlt)]
      exact hy
  cases f with
  | none =>
    rw [h.start rfl, hstart] at hrest
    exact hrest
  | some y =>
    obtain ⟨-, hy, hye, -⟩ := h.before y rfl
    refine ⟨hy.trans hstart, ?_⟩
    rw [Area.bound_eq_stop (by rw [hye]; exact h.inside), hye]
    exact hrest

theorem Area.Ok.piece {y : Area} (hd : d.Ok) (hfree : isFreeType d.type = true) (hy : y.PieceOf d)
    (hlo : d.start ≤ y.start) (hin : y.start ≠ identityMapVmemEnd) (hhi : y.stop ≤ d.stop)
    (ha : y.start % pageSize = 0 ∧ y.size % pageSize = 0 ∧ 0 < y.size) : y.Ok where
  start_aligned := ha.1
  size_aligned := ha.2.1
  nonempty := ha.2.2
  inPart := by
    have hle := y.start_le_stop
    rcases hd.inPart with ⟨h1, h2⟩ | h1
    · exact .inl ⟨by omega, by omega⟩
    · exact .inr (by omega)
  padding := by rw [hy.upper, hy.lower]; exact Nat.zero_le _
  free _ := by
    refine ⟨hy.lower, hy.upper, ?_⟩
    rw [hy.type, (hd.free hfree).2.2]
    have hlt := identityMapVmemEnd_lt
    have hle := y.start_le_stop
    unfold freeTypeAt
    rcases hd.inPart with ⟨h1, h2⟩ | h1
    · rw [if_pos h1, if_pos (by omega)]
    · rw [if_neg (by omega), if_neg (by omega)]

theorem Cuts.ok (h : Cuts d u f g) (hd : d.Ok) (hfree : isFreeType d.type = true)
    (hused : isFreeType u.type = false) (hpad : u.lower + u.upper ≤ u.size)
    (ha : u.start % pageSize = 0) (hb : u.size % pageSize = 0) (hpos : 0 < u.size) :
    ∀ x ∈ cutPieces u f g, x.Ok := by
  have hlo := h.start_le
  have hhi := h.stop_le
  have hu := u.start_le_stop
  have hin := h.inside
  have hlt := identityMapVmemEnd_lt
  have hpart := hd.inPart
  unfold Area.InPart at hpart
  have hda := hd.start_aligned
  have hdb := hd.size_aligned
  simp only [pageSize] at hda hdb
  intro x hx
  simp only [cutPieces, List.mem_append, List.mem_cons, Option.mem_toList] at hx
  rcases hx with hx | rfl | hx
  · obtain ⟨hp, h1, h2, h3⟩ := h.before x hx
    have hsize : x.start + x.size = u.start := h2
    refine hd.piece hfree hp (by omega) (by omega) (by omega) ?_
    simp only [pageSize] at ha ⊢
    omega
  · refine ⟨ha, hb, hpos, ?_, hpad, fun hf => ?_⟩
    · unfold Area.InPart
      omega
    · rw [hused] at hf; cases hf
  · obtain ⟨hp, h1, h2, h3⟩ := h.after x hx
    have hsize : x.start + x.size = d.start + d.size := h2
    have hstart : x.start = u.start + u.size := h1
    have hlt' : u.start + u.size < d.start + d.size := h3
    have hin' := hd.inside (a := x.start) (by omega) (by omega)
    refine hd.piece hfree hp (by omega) hin' (by omega) ?_
    simp only [pageSize] at ha hb ⊢
    omega

/-- A used area among free ones of one type: nothing to merge. -/
theorem isChain_cut {ss ts : List VirtualMemoryType} {t v : VirtualMemoryType}
    (h : (ss ++ t :: ts).IsChain Unmergeable) (hv : isFreeType v = false) {fs gs : List VirtualMemoryType}
    (hfs : fs = [] ∨ fs = [t]) (hgs : gs = [] ∨ gs = [t]) :
    (ss ++ (fs ++ v :: gs) ++ ts).IsChain Unmergeable := by
  have hto : ∀ s, Unmergeable s v := fun s hs e => by rw [e, hv] at hs; cases hs
  have hfrom : ∀ s, Unmergeable v s := fun s hs => by rw [hv] at hs; cases hs
  obtain ⟨hss, hts, hmeet⟩ := List.isChain_append.1 h
  have hts' : ts.IsChain Unmergeable := hts.of_cons
  have hleft : (ss ++ fs).IsChain Unmergeable := by
    rcases hfs with rfl | rfl
    · simpa using hss
    · exact List.isChain_append.2 ⟨hss, .singleton t, by simpa using hmeet⟩
  have hright : (gs ++ ts).IsChain Unmergeable := by
    rcases hgs with rfl | rfl
    · simpa using hts'
    · exact hts
  have hassoc : ss ++ (fs ++ v :: gs) ++ ts = ss ++ fs ++ v :: (gs ++ ts) := by simp
  rw [hassoc]
  refine List.isChain_append.2 ⟨hleft, ?_, fun x _ y hy => ?_⟩
  · exact List.isChain_cons.2 ⟨fun y _ => hfrom y, hright⟩
  · cases hy
    exact hto x

theorem Layout.cut (h : Layout (pre ++ d :: post)) (hc : Cuts d u f g)
    (hfree : isFreeType d.type = true) (hused : isFreeType u.type = false)
    (hpad : u.lower + u.upper ≤ u.size) (ha : u.start % pageSize = 0) (hb : u.size % pageSize = 0)
    (hpos : 0 < u.size) : Layout (pre ++ (cutPieces u f g ++ post)) := by
  have hd : d.Ok := h.ok d (by simp)
  have htype : ∀ {o : Option Area}, (∀ x ∈ o, x.PieceOf d) →
      o.toList.map Area.type = [] ∨ o.toList.map Area.type = [d.type] := by
    intro o ho
    cases o with
    | none => exact .inl rfl
    | some x => exact .inr (by simp [(ho x rfl).type])
  refine h.splice (o := [d]) (fun a e => hc.tiles hd) (fun _ => hc.ok hd hfree hused hpad ha hb hpos) ?_
  have := isChain_cut (by simpa using h.apart) hused (htype fun x hx => (hc.before x hx).1)
    (htype fun x hx => (hc.after x hx).1)
  simpa [cutPieces] using this

/-! ## Shrinking the padding -/

theorem Layout.repad (h : Layout (pre ++ d :: post)) (hstart : u.start = d.start)
    (hsize : u.size = d.size) (htype : u.type = d.type)
    (hpad : u.lower ≤ d.lower ∧ u.upper ≤ d.upper) : Layout (pre ++ u :: post) := by
  have hstop : u.stop = d.stop := by unfold Area.stop; rw [hstart, hsize]
  refine h.splice (o := [d]) (n := [u]) (fun a e ht => ?_) (fun hok x hx => ?_) ?_
  · exact ⟨hstart.trans ht.1, (Area.bound_congr hstop).trans ht.2⟩
  · rw [List.mem_singleton.1 hx]
    have hd := hok d (by simp)
    have hp := hd.padding
    refine ⟨hstart ▸ hd.start_aligned, hsize ▸ hd.size_aligned, hsize ▸ hd.nonempty, ?_, by omega,
      fun hf => ?_⟩
    · have := hd.inPart
      unfold Area.InPart at this ⊢
      rwa [hstart, hstop]
    · obtain ⟨h1, h2, h3⟩ := hd.free (htype ▸ hf)
      exact ⟨by omega, by omega, by rw [htype, hstart, h3]⟩
  · simpa [htype] using h.apart

/-! ## Merging -/

def totalSize (xs : List Area) : Nat := (xs.map Area.size).sum

theorem totalSize_aligned (h : ∀ x ∈ xs, x.Ok) : totalSize xs % pageSize = 0 := by
  induction xs with
  | nil => rfl
  | cons x xs ih =>
    have hx := (h x (by simp)).size_aligned
    have hxs := ih fun y hy => h y (List.mem_cons_of_mem _ hy)
    simp only [totalSize, List.map_cons, List.sum_cons, pageSize] at hx hxs ⊢
    omega

/-- Which part a free area lies in is told by its type. -/
theorem Area.Ok.low_iff {t : VirtualMemoryType} (h : x.Ok) (hx : x.type = t)
    (hfree : isFreeType t = true) : x.start < identityMapVmemEnd ↔ t = .identityMapFree := by
  have ht := (h.free (hx ▸ hfree)).2.2
  rw [hx, freeTypeAt] at ht
  constructor
  · intro hlt
    rw [ht, if_pos hlt]
  · intro he
    by_contra hge
    rw [if_neg hge, he] at ht
    cases ht

/-- Free areas in a row, all of one type, are one range of their part. -/
theorem tiles_merge {t : VirtualMemoryType} (hfree : isFreeType t = true) :
    ∀ {xs : List Area} {x m : Area} {a e : Nat}, (∀ y ∈ x :: xs, y.Ok ∧ y.type = t) →
      m.start = x.start → m.size = totalSize (x :: xs) →
      Tiles Area.start Area.bound a (x :: xs) e →
      Tiles Area.start Area.bound a [m] e ∧ m.InPart
  | [], x, m, a, e, hok, hs, hz, ht => by
    have hstop : m.stop = x.stop := by
      unfold Area.stop; rw [hs, hz]; simp [totalSize]
    have hpart := (hok x (by simp)).1.inPart
    refine ⟨⟨hs.trans ht.1, (Area.bound_congr hstop).trans ht.2⟩, ?_⟩
    unfold Area.InPart at hpart ⊢
    rwa [hs, hstop]
  | y :: xs, x, m, a, e, hok, hs, hz, ht => by
    obtain ⟨hxok, hxt⟩ := hok x (by simp)
    obtain ⟨hyok, hyt⟩ := hok y (by simp)
    obtain ⟨hx, hy, hrest⟩ := ht
    have hlt := identityMapVmemEnd_lt
    have hparts : x.start < identityMapVmemEnd ↔ y.start < identityMapVmemEnd :=
      (hxok.low_iff hxt hfree).trans (hyok.low_iff hyt hfree).symm
    have hxpart := hxok.inPart
    have hxle := x.start_le_stop
    -- both areas lie in the same part, so the first one ends where the second starts
    have hseam : x.bound = x.stop := by
      apply Area.bound_eq_stop
      intro hend
      have hkern : y.start = kernelVmemStart := by rw [hy, Area.bound, if_pos hend]
      unfold Area.InPart at hxpart
      omega
    -- merge the rest first, then it with `x`
    obtain ⟨htiles, hpart⟩ := tiles_merge hfree (m := ⟨m.ptr, y.start, totalSize (y :: xs), 0, 0, t⟩)
      (fun z hz => hok z (List.mem_cons_of_mem _ hz)) rfl rfl ⟨hy, hrest⟩
    have hstop : m.stop = y.start + totalSize (y :: xs) := by
      have hsum : totalSize (x :: y :: xs) = x.size + totalSize (y :: xs) := by simp [totalSize]
      rw [hy, hseam]
      unfold Area.stop
      rw [hs, hz, hsum, Nat.add_assoc]
    refine ⟨⟨hs.trans hx, (Area.bound_congr hstop).trans htiles.2⟩, ?_⟩
    unfold Area.InPart at hxpart hpart ⊢
    rw [hstop, hs]
    simp only [Area.stop] at hpart
    omega

/-- The used area `d` becomes free and is merged with the free areas next to it. -/
theorem Layout.release {fs gs : List Area} {m : Area} {t : VirtualMemoryType}
    (h : Layout (pre ++ (fs ++ d :: gs ++ post))) (ht : t = freeTypeAt d.start)
    (htypes : ∀ x ∈ fs ++ gs, x.type = t) (hm : m.PieceOf ⟨d.ptr, d.start, d.size, 0, 0, t⟩)
    (hstart : m.start = ((fs ++ [d]).headD d).start) (hsize : m.size = totalSize (fs ++ d :: gs))
    (hpre : ∀ s ∈ (pre.map Area.type).getLast?, s ≠ t)
    (hpost : ∀ s ∈ (post.map Area.type).head?, s ≠ t) : Layout (pre ++ ([m] ++ post)) := by
  have hfree : isFreeType t = true := by rw [ht]; exact isFreeType_freeTypeAt _
  -- the same areas with `d` free already
  let d' : Area := ⟨d.ptr, d.start, d.size, 0, 0, t⟩
  have hok' : (∀ x ∈ fs ++ d :: gs, x.Ok) → ∀ x ∈ fs ++ d' :: gs, x.Ok ∧ x.type = t := by
    intro hok x hx
    simp only [List.mem_append, List.mem_cons] at hx
    rcases hx with hx | rfl | hx
    · exact ⟨hok x (by simp [hx]), htypes x (by simp [hx])⟩
    · have hd := hok d (by simp)
      refine ⟨⟨hd.start_aligned, hd.size_aligned, hd.nonempty, hd.inPart, Nat.zero_le _,
        fun _ => ?_⟩, rfl⟩
      exact ⟨rfl, rfl, ht⟩
    · exact ⟨hok x (by simp [hx]), htypes x (by simp [hx])⟩
  have htiles' : ∀ a e, Tiles Area.start Area.bound a (fs ++ d :: gs) e →
      Tiles Area.start Area.bound a (fs ++ d' :: gs) e := by
    intro a e htl
    obtain ⟨b, h1, h2⟩ := tiles_append.1 htl
    exact tiles_append.2 ⟨b, h1, h2⟩
  obtain ⟨y, ys, hys⟩ := List.exists_cons_of_ne_nil (show fs ++ d' :: gs ≠ [] by simp)
  have hystart : m.start = y.start := by
    cases fs with
    | nil => cases hys; exact hstart
    | cons f fs => cases hys; exact hstart
  have hysize : m.size = totalSize (y :: ys) := by
    rw [hsize, ← hys]; simp [totalSize, d']
  rw [hys] at hok' htiles'
  have hold : ∀ x ∈ fs ++ d :: gs, x.Ok := fun x hx => h.ok x (by
    simp only [List.mem_append] at hx ⊢; tauto)
  refine h.splice (fun a e htl => ?_) (fun _ x hx => ?_) ?_
  · exact (tiles_merge hfree (hok' hold) hystart hysize (htiles' a e htl)).1
  · rw [List.mem_singleton.1 hx]
    obtain ⟨b, -, hrest⟩ := tiles_append.1 h.tiles
    obtain ⟨e, hmid, -⟩ := tiles_append.1 hrest
    have hall := hok' hold
    have hy := (hall y (by simp)).1
    have hpart := (tiles_merge hfree hall hystart hysize (htiles' _ _ hmid)).2
    have hpos : y.size ≤ totalSize (y :: ys) := by simp [totalSize]
    refine ⟨hystart ▸ hy.start_aligned, hysize ▸ totalSize_aligned fun z hz => (hall z hz).1,
      hysize ▸ hy.nonempty.trans_le hpos, hpart, ?_, fun _ => ⟨hm.lower, hm.upper, ?_⟩⟩
    · rw [hm.lower, hm.upper]; exact Nat.zero_le _
    · rw [hm.type, hystart]
      exact (hall y (by simp)).2.symm.trans (hy.free (by rw [(hall y (by simp)).2]; exact hfree)).2.2
  · have hapart := h.apart
    simp only [List.map_append] at hapart ⊢
    obtain ⟨hp, hrest, -⟩ := List.isChain_append.1 hapart
    obtain ⟨-, hq, -⟩ := List.isChain_append.1 hrest
    refine List.isChain_append.2 ⟨hp, List.isChain_cons.2 ⟨fun s hs _ => ?_, hq⟩, fun s hs y hy _ => ?_⟩
    · rw [hm.type]; exact (hpost s hs).symm
    · cases hy
      rw [hm.type]; exact hpre s hs

end

/-! ## The two parts -/

theorem tiles_kernelPart {xs : List Area} {a : Nat} (ha : kernelVmemStart ≤ a)
    (h : Tiles Area.start Area.bound a xs kernelVmemEnd) :
    Tiles Area.start Area.stop a xs kernelVmemEnd := by
  induction xs generalizing a with
  | nil => exact h
  | cons x xs ih =>
    obtain ⟨hx, hxs⟩ := h
    have hle := x.start_le_stop
    have hlt := identityMapVmemEnd_lt
    rw [Area.bound_eq_stop (by omega)] at hxs
    exact ⟨hx, ih (by omega) hxs⟩

/-- The areas of the identity-mapped part come first and cover it. -/
theorem tiles_parts {xs : List Area} {a : Nat} (ha : a < identityMapVmemEnd)
    (hpart : ∀ x ∈ xs, x.InPart) (h : Tiles Area.start Area.bound a xs kernelVmemEnd) :
    ∃ low high, xs = low ++ high ∧ Tiles Area.start Area.stop a low identityMapVmemEnd ∧
      Tiles Area.start Area.stop kernelVmemStart high kernelVmemEnd := by
  have hlt := identityMapVmemEnd_lt
  induction xs generalizing a with
  | nil =>
    have hend : identityMapVmemEnd < kernelVmemEnd := by decide
    have : a = kernelVmemEnd := h
    omega
  | cons x xs ih =>
    obtain ⟨hx, hxs⟩ := h
    by_cases hend : x.stop = identityMapVmemEnd
    · rw [Area.bound, if_pos hend] at hxs
      exact ⟨[x], xs, rfl, ⟨hx, hend⟩, tiles_kernelPart (Nat.le_refl _) hxs⟩
    · rw [Area.bound_eq_stop hend] at hxs
      have hin := hpart x (by simp)
      unfold Area.InPart at hin
      obtain ⟨low, high, rfl, hlow, hhigh⟩ :=
        ih (by omega) (fun y hy => hpart y (List.mem_cons_of_mem _ hy)) hxs
      exact ⟨x :: low, high, rfl, ⟨hx, hlow⟩, hhigh⟩

theorem Layout.ne_nil {xs : List Area} (h : Layout xs) : xs ≠ [] := by
  rintro rfl
  have : pageSize = kernelVmemEnd := h.tiles
  exact absurd this (by decide)

theorem Layout.stop_lt {xs : List Area} {x : Area} (h : Layout xs) (hx : x ∈ xs) : x.stop < 2 ^ 64 := by
  have := (h.bounds hx).2
  have hend : kernelVmemEnd < 2 ^ 64 := by decide
  omega

theorem Layout.length_lt {xs : List Area} (h : Layout xs) : xs.length + 2 ≤ 2 ^ 64 := by
  have hle := h.tiles.length_le (k := pageSize) fun x hx => by
    have h1 := (h.ok x hx).size_aligned
    have h2 := (h.ok x hx).nonempty
    have h3 := x.stop_le_bound
    unfold Area.stop at h3
    simp only [pageSize] at h1 ⊢
    omega
  have hend : kernelVmemEnd < 2 ^ 64 := by decide
  simp only [pageSize] at hle
  omega

theorem Layout.parts {xs : List Area} (h : Layout xs) :
    ∃ low high, xs = low ++ high ∧ Tiles Area.start Area.stop pageSize low identityMapVmemEnd ∧
      Tiles Area.start Area.stop kernelVmemStart high kernelVmemEnd :=
  tiles_parts (by decide) (fun x hx => (h.ok x hx).inPart) h.tiles

end GarbageOS
