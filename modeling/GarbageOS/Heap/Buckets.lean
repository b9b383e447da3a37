import GarbageOS.Heap.Chunks
import GarbageOS.Lib.Links
import Mathlib.Logic.Function.Basic
import Mathlib.Order.Interval.Finset.Nat

/-!
# Bucket lists

`Lists s L`: bucket `i` of the heap is the doubly linked list of the chunk
addresses `L i`. The two edits are specified on `L`: `removeFromBucketList`
erases an address, `addToBucketList` puts one in front, and both write only link
words of list nodes (`LinkWord`). Removing a chunk that is flagged free but is in
no list yet, as `kfree` does before merging, changes nothing.
-/

namespace GarbageOS

open Lib Function

abbrev nextOf (m : Mem) (a : Nat) : Nat := load m (a + 8)

abbrev prevOf (m : Mem) (a : Nat) : Nat := load m (a + 16)

/-- The heap's buckets are the lists `L`. -/
structure Lists (s : HeapState) (L : Int → List Nat) : Prop where
  head : ∀ i, 0 ≤ i → i < 128 → s.heap.freeBuckets i = (L i).headD 0
  segment : ∀ i, Segment (nextOf s.mem) (prevOf s.mem) 0 (L i) 0
  nodup : ∀ i, (L i).Nodup
  range : ∀ i a, a ∈ L i → 0 ≤ i ∧ i < 128
  fits : ∀ i a, a ∈ L i → 0 < a ∧ a + 32 < 2 ^ 64
  free : ∀ i a, a ∈ L i → load s.mem a % 2 = 1
  bucket : ∀ i a, a ∈ L i → getBucketIndexFromHeader s.mem a = i
  apart : ∀ i j a b, a ∈ L i → b ∈ L j → a ≠ b → a + 32 ≤ b ∨ b + 32 ≤ a

/-- The link words of the listed chunks. -/
def LinkWord (L : Int → List Nat) (w : Nat) : Prop := ∃ i a, a ∈ L i ∧ (w = a + 8 ∨ w = a + 16)

/-- `s'` is `s` but for buckets and words in `P`. -/
structure Relinked (P : Nat → Prop) (s s' : HeapState) : Prop where
  mem : AgreeOff P s.mem s'.mem
  heap : s'.heap = { s.heap with freeBuckets := s'.heap.freeBuckets }

/-! ## Single link accesses -/

section Access

variable {s : HeapState} {a : Nat}

theorem flag_free_of_odd {m : Mem} (h : load m a % 2 = 1) :
    getHeapChunkFlag m a heapFreeChunk = true := by
  rw [getHeapChunkFlag, heapFreeChunk, Nat.and_one_is_mod, h]; rfl

section

variable (h : load s.mem a % 2 = 1) (ha : a + 32 < 2 ^ 64)

include h ha

theorem run_getBucketListNext : (getBucketListNext a).run s = .ok (nextOf s.mem a) s := by
  have hu : getHeapChunkUserData a = a + 8 := by rw [getHeapChunkUserData, add64_eq (by omega)]
  simp only [getBucketListNext, run_get_bind,
    run_kassert_pos (flag_free_of_odd h), EStateM.run_pure, hu]

theorem run_getBucketListPrev : (getBucketListPrev a).run s = .ok (prevOf s.mem a) s := by
  have hu : add64 (getHeapChunkUserData a) 8 = a + 16 := by
    unfold getHeapChunkUserData add64; omega
  simp only [getBucketListPrev, run_get_bind,
    run_kassert_pos (flag_free_of_odd h), EStateM.run_pure, hu]

theorem run_setBucketListNext {v : Nat} :
    (setBucketListNext a v).run s = .ok () { s with mem := store s.mem (a + 8) v } := by
  have hu : getHeapChunkUserData a = a + 8 := by rw [getHeapChunkUserData, add64_eq (by omega)]
  simp only [setBucketListNext, run_get_bind, run_kassert_pos (flag_free_of_odd h), hu]
  rfl

theorem run_setBucketListPrev {v : Nat} :
    (setBucketListPrev a v).run s = .ok () { s with mem := store s.mem (a + 16) v } := by
  have hu : add64 (getHeapChunkUserData a) 8 = a + 16 := by
    unfold getHeapChunkUserData add64; omega
  simp only [setBucketListPrev, run_get_bind, run_kassert_pos (flag_free_of_odd h), hu]
  rfl

end

end Access

/-! ## Unlinking -/

/-- What `linkNeighbours` writes: `p` and `n`, where not null, point at each other. -/
def relink (m : Mem) (p n : Nat) : Mem :=
  let m := if p = 0 then m else store m (p + 8) n
  if n = 0 then m else store m (n + 16) p

theorem load_relink_other {m : Mem} {p n w : Nat} (hp : p ≠ 0 → w ≠ p + 8)
    (hn : n ≠ 0 → w ≠ n + 16) : load (relink m p n) w = load m w := by
  unfold relink
  by_cases h1 : p = 0 <;> by_cases h2 : n = 0 <;>
    simp_all [load_store_ne]

theorem load_relink_next {m : Mem} {p n : Nat} (hp : p ≠ 0) (hn : n < 2 ^ 64)
    (hne : n ≠ 0 → p + 8 ≠ n + 16) : load (relink m p n) (p + 8) = n := by
  unfold relink
  by_cases h2 : n = 0
  · simp [hp, h2, load_store_same]
  · simp only [if_neg hp, if_neg h2]
    rw [load_store_ne (hne h2), load_store_same hn]

theorem load_relink_prev {m : Mem} {p n : Nat} (hn : n ≠ 0) (hp : p < 2 ^ 64) :
    load (relink m p n) (n + 16) = p := by
  simp [relink, hn, load_store_same hp]

theorem agreeOff_relink {P : Nat → Prop} {m : Mem} {p n : Nat} (hp : p ≠ 0 → P (p + 8))
    (hn : n ≠ 0 → P (n + 16)) : AgreeOff P m (relink m p n) := by
  unfold relink
  by_cases h1 : p = 0 <;> by_cases h2 : n = 0 <;> simp only [h1, h2, if_true, if_false]
  · exact .refl P m
  · exact (AgreeOff.refl P m).store (hn h2)
  · exact (AgreeOff.refl P m).store (hp h1)
  · exact ((AgreeOff.refl P m).store (hp h1)).store (hn h2)

/-- A free chunk that can be linked to: null, or flagged free and inside the address space. -/
def Linkable (m : Mem) (a : Nat) : Prop := a ≠ 0 → load m a % 2 = 1 ∧ a + 32 < 2 ^ 64

theorem run_linkNeighbours {s : HeapState} {p n : Nat} (hp : Linkable s.mem p)
    (hn : Linkable s.mem n) (hne : p ≠ 0 → n ≠ p + 8) :
    (linkNeighbours p n).run s = .ok () { s with mem := relink s.mem p n } := by
  unfold linkNeighbours relink
  by_cases h1 : p = 0 <;> by_cases h2 : n = 0
  · simp [h1, h2]
  · simp [h1, h2, run_setBucketListPrev (hn h2).1 (hn h2).2]
  · simp [h1, h2, run_setBucketListNext (hp h1).1 (hp h1).2]
  · have hn' : load (store s.mem (p + 8) n) n % 2 = 1 := by
      rw [load_store_ne (hne h1)]; exact (hn h2).1
    have h3 : (setBucketListPrev n p).run { s with mem := store s.mem (p + 8) n } =
        .ok () { s with mem := store (store s.mem (p + 8) n) (n + 16) p } :=
      run_setBucketListPrev hn' (hn h2).2
    simp [h1, h2, run_setBucketListNext (hp h1).1 (hp h1).2, h3]

/-- The state after `x` has been taken out of bucket `i`. -/
def unlinked (s : HeapState) (i : Int) (x : Nat) : HeapState where
  mem := store (store (relink s.mem (prevOf s.mem x) (nextOf s.mem x)) (x + 8) 0) (x + 16) 0
  heap := if s.heap.freeBuckets i = x then
      { s.heap with freeBuckets := fun j => if j = i then nextOf s.mem x else s.heap.freeBuckets j }
    else s.heap

theorem run_removeFromBucketList {s : HeapState} {x : Nat} (hodd : load s.mem x % 2 = 1)
    (hfits : x + 32 < 2 ^ 64) (hp : Linkable s.mem (prevOf s.mem x))
    (hn : Linkable s.mem (nextOf s.mem x))
    (hpn : prevOf s.mem x ≠ 0 → nextOf s.mem x ≠ prevOf s.mem x + 8)
    (hpx : prevOf s.mem x ≠ 0 → x ≠ prevOf s.mem x + 8)
    (hnx : nextOf s.mem x ≠ 0 → x ≠ nextOf s.mem x + 16) :
    (removeFromBucketList x).run s =
      .ok () (unlinked s (getBucketIndexFromHeader s.mem x) x) := by
  let i := getBucketIndexFromHeader s.mem x
  -- the bucket's head first: this does not touch the memory
  have hhead : (onlyIf (s.heap.freeBuckets i = x) (setFreeBucket i (nextOf s.mem x))).run s =
      .ok () { s with heap := (unlinked s i x).heap } := by
    by_cases h : s.heap.freeBuckets i = x
    · rw [onlyIf_pos h]; simp [setFreeBucket, modifyHeap, unlinked, h]
    · rw [onlyIf_neg h]; simp [unlinked, h]
  have hodd1 : load (relink s.mem (prevOf s.mem x) (nextOf s.mem x)) x % 2 = 1 := by
    rwa [load_relink_other hpx hnx]
  have hodd2 : load (store (relink s.mem (prevOf s.mem x) (nextOf s.mem x)) (x + 8) 0) x % 2 = 1 := by
    rwa [load_store_ne (by omega)]
  simp only [removeFromBucketList, run_get_bind, run_ok_bind (run_getBucketListPrev hodd hfits),
    run_ok_bind (run_getBucketListNext hodd hfits), run_kassert_pos (flag_free_of_odd hodd)]
  rw [run_ok_bind hhead, run_ok_bind (run_linkNeighbours (by exact hp) (by exact hn) hpn),
    run_ok_bind (run_setBucketListNext hodd1 hfits), run_setBucketListPrev hodd2 hfits]
  rfl

section Lists

variable {s : HeapState} {L : Int → List Nat}

theorem Lists.unique (h : Lists s L) {i j : Int} {a : Nat} (hi : a ∈ L i) (hj : a ∈ L j) : i = j :=
  (h.bucket i a hi).symm.trans (h.bucket j a hj)

theorem Lists.zero_notMem (h : Lists s L) (i : Int) : 0 ∉ L i := fun h0 => by
  have := (h.fits i 0 h0).1; omega

theorem Lists.linkable (h : Lists s L) {i : Int} {a : Nat} (ha : a = 0 ∨ a ∈ L i) :
    Linkable s.mem a := fun h0 => by
  rcases ha with rfl | ha
  · exact absurd rfl h0
  · exact ⟨h.free i a ha, (h.fits i a ha).2⟩

theorem Lists.neighbours (h : Lists s L) {i : Int} {x : Nat} {ys zs : List Nat}
    (hL : L i = ys ++ x :: zs) :
    prevOf s.mem x = ys.getLastD 0 ∧ nextOf s.mem x = zs.headD 0 ∧
      Segment (nextOf s.mem) (prevOf s.mem) 0 ys x ∧
      Segment (nextOf s.mem) (prevOf s.mem) x zs 0 := by
  have hseg := h.segment i
  rw [hL, segment_append, segment_cons] at hseg
  exact ⟨hseg.2.1, hseg.2.2.1, hseg.1, hseg.2.2.2⟩

theorem Lists.neighbours_mem {i : Int} {x : Nat} {ys zs : List Nat} (hL : L i = ys ++ x :: zs) :
    (ys.getLastD 0 = 0 ∨ ys.getLastD 0 ∈ L i) ∧ (zs.headD 0 = 0 ∨ zs.headD 0 ∈ L i) := by
  rw [hL]
  constructor
  · rcases getLastD_eq_or_mem ys 0 with ⟨-, e⟩ | ⟨e, -⟩
    · exact .inl e
    · exact .inr (List.mem_append_left _ e)
  · rcases headD_eq_or_mem zs 0 with ⟨-, e⟩ | ⟨e, -⟩
    · exact .inl e
    · exact .inr (List.mem_append_right _ (List.mem_cons_of_mem _ e))

theorem Lists.words_ne (h : Lists s L) {i j : Int} {a b : Nat} (ha : a ∈ L i) (hb : b ∈ L j) :
    a ≠ b + 8 ∧ a ≠ b + 16 ∧ a + 8 ≠ b + 16 ∧ a + 16 ≠ b + 8 := by
  by_cases e : a = b
  · omega
  · rcases h.apart i j a b ha hb e with h1 | h1 <;> omega

theorem Lists.unlinked_words (h : Lists s L) {i j : Int} {x y : Nat} {ys zs : List Nat}
    (hL : L i = ys ++ x :: zs) (hy : y ∈ L j) (hyx : y ≠ x) :
    load (unlinked s i x).mem y = load s.mem y ∧
    nextOf (unlinked s i x).mem y = (if y = ys.getLastD 0 then zs.headD 0 else nextOf s.mem y) ∧
    prevOf (unlinked s i x).mem y = (if y = zs.headD 0 then ys.getLastD 0 else prevOf s.mem y) := by
  obtain ⟨hp, hn, -, -⟩ := h.neighbours hL
  have hx : x ∈ L i := by rw [hL]; simp
  obtain ⟨hx1, hx2, hx3, hx4⟩ := h.words_ne hy hx
  have hy0 : y ≠ 0 := fun e => h.zero_notMem j (e ▸ hy)
  -- a neighbour of `x` is null or a listed chunk, whose words are not those of `y`
  have hfar : ∀ a, a = 0 ∨ a ∈ L i → a < 2 ^ 64 ∧
      (a ≠ 0 → y ≠ a + 8 ∧ y ≠ a + 16 ∧ y + 8 ≠ a + 16 ∧ y + 16 ≠ a + 8) := by
    rintro a (rfl | ha)
    · exact ⟨by decide, fun h0 => absurd rfl h0⟩
    · exact ⟨Nat.lt_of_le_of_lt (Nat.le_add_right a 32) (h.fits i a ha).2,
        fun _ => h.words_ne hy ha⟩
  obtain ⟨hplt, hpf⟩ := hfar _ (Lists.neighbours_mem hL).1
  obtain ⟨hnlt, hnf⟩ := hfar _ (Lists.neighbours_mem hL).2
  clear hfar
  simp only [unlinked, nextOf, prevOf] at hp hn ⊢
  rw [hp, hn]
  generalize ys.getLastD 0 = p at *
  generalize zs.headD 0 = n at *
  refine ⟨?_, ?_, ?_⟩
  · rw [load_store_ne hx2, load_store_ne hx1,
      load_relink_other (fun h0 => (hpf h0).1) fun h0 => (hnf h0).2.1]
  · rw [load_store_ne hx3, load_store_ne fun e => hyx (Nat.add_right_cancel e)]
    split
    next e =>
      subst e
      exact load_relink_next hy0 hnlt fun h0 => (hnf h0).2.2.1
    next e =>
      exact load_relink_other (fun _ e' => e (Nat.add_right_cancel e')) fun h0 => (hnf h0).2.2.1
  · rw [load_store_ne fun e => hyx (Nat.add_right_cancel e), load_store_ne hx4]
    split
    next e => subst e; exact load_relink_prev hy0 hplt
    next e =>
      exact load_relink_other (fun h0 => (hpf h0).2.2.2) fun _ e' => e (Nat.add_right_cancel e')

theorem Lists.unlinked (h : Lists s L) {i : Int} {x : Nat} (hx : x ∈ L i) :
    Lists (unlinked s i x) (update L i ((L i).erase x)) := by
  obtain ⟨ys, zs, hL⟩ := List.append_of_mem hx
  have hnd := h.nodup i
  rw [hL, List.nodup_append] at hnd
  obtain ⟨hys, hxzs, hdisj⟩ := hnd
  obtain ⟨hxz, hzs⟩ := List.nodup_cons.1 hxzs
  have hxy : x ∉ ys := fun hm => hdisj x hm x List.mem_cons_self rfl
  have herase : (L i).erase x = ys ++ zs := by
    rw [hL, List.erase_append_right _ hxy, List.erase_cons_head]
  -- every chunk that stays was listed before and is not `x`
  have hsub : ∀ j a, a ∈ update L i ((L i).erase x) j → a ∈ L j ∧ a ≠ x := by
    intro j a ha
    by_cases hj : j = i
    · subst hj
      rw [update_self, herase] at ha
      refine ⟨by rw [hL]; simp_all; tauto, ?_⟩
      rintro rfl
      exact (List.mem_append.1 ha).elim hxy hxz
    · rw [update_of_ne hj] at ha
      exact ⟨ha, fun e => hj (h.unique ha (e ▸ hx))⟩
  have hwords := fun j a (ha : a ∈ update L i ((L i).erase x) j) =>
    h.unlinked_words hL (hsub j a ha).1 (hsub j a ha).2
  obtain ⟨-, hn, hsegy, hsegz⟩ := h.neighbours hL
  refine ⟨fun j h0 h1 => ?_, fun j => ?_, fun j => ?_, fun j a ha => h.range j a (hsub j a ha).1,
    fun j a ha => h.fits j a (hsub j a ha).1, fun j a ha => ?_, fun j a ha => ?_,
    fun j k a b ha hb => h.apart j k a b (hsub j a ha).1 (hsub k b hb).1⟩
  · have hhead := h.head j h0 h1
    simp only [GarbageOS.unlinked]
    by_cases hj : j = i
    · subst hj
      rw [update_self, herase]
      rw [hL] at hhead
      cases ys with
      | nil => simp_all
      | cons y ys =>
        have : y ≠ x := fun e => hxy (e ▸ List.mem_cons_self)
        simp_all
    · rw [update_of_ne hj, ← hhead]
      split <;> simp [hj]
  · by_cases hj : j = i
    · subst hj
      have hwj := hwords j
      have h0 : 0 ∉ ys ++ zs := fun hm => h.zero_notMem j (hsub j 0 (by rwa [update_self, herase])).1
      rw [update_self, herase] at hwj ⊢
      have hseg := h.segment j
      have hnd := h.nodup j
      rw [hL] at hseg hnd
      exact hseg.erase hnd h0 h0 (fun y hy => (hwj y hy).2.1) fun y hy => (hwj y hy).2.2
    · have hwj := hwords j
      rw [update_of_ne hj] at hwj ⊢
      refine (h.segment j).congr fun a ha => ?_
      have hne : ∀ b, b = 0 ∨ b ∈ L i → a ≠ b := by
        rintro b (rfl | hb) rfl
        · exact h.zero_notMem j ha
        · exact hj (h.unique ha hb)
      obtain ⟨hpm, hnm⟩ := Lists.neighbours_mem hL
      obtain ⟨-, e1, e2⟩ := hwj a ha
      exact ⟨by rw [e1, if_neg (hne _ hpm)], by rw [e2, if_neg (hne _ hnm)]⟩
  · by_cases hj : j = i
    · subst hj; rw [update_self]; exact (h.nodup j).erase x
    · rw [update_of_ne hj]; exact h.nodup j
  · rw [(hwords j a ha).1]; exact h.free j a (hsub j a ha).1
  · rw [getBucketIndexFromHeader, getHeapChunkFlag, getFixedHeapChunkSize, (hwords j a ha).1]
    exact h.bucket j a (hsub j a ha).1

theorem removeFromBucketList_listed (h : Lists s L) {i : Int} {x : Nat} (hx : x ∈ L i) :
    ∃ s', (removeFromBucketList x).run s = .ok () s' ∧
      Lists s' (update L i ((L i).erase x)) ∧ Relinked (LinkWord L) s s' := by
  obtain ⟨ys, zs, hL⟩ := List.append_of_mem hx
  obtain ⟨hp, hn, -, -⟩ := h.neighbours hL
  obtain ⟨hpm, hnm⟩ := Lists.neighbours_mem hL
  rw [← hp] at hpm
  rw [← hn] at hnm
  refine ⟨_, run_removeFromBucketList (h.free i x hx) (h.fits i x hx).2 (h.linkable hpm)
    (h.linkable hnm) (fun h0 => ?_) (fun h0 => ?_) fun h0 => ?_, ?_, ?_, ?_⟩
  · rcases hnm with e | hnm
    · rw [e]; omega
    · exact (h.words_ne hnm (hpm.resolve_left h0)).1
  · exact (h.words_ne hx (hpm.resolve_left h0)).1
  · exact (h.words_ne hx (hnm.resolve_left h0)).2.1
  · rw [h.bucket i x hx]; exact h.unlinked hx
  · exact ((agreeOff_relink (fun h0 => ⟨i, _, hpm.resolve_left h0, .inl rfl⟩)
      (fun h0 => ⟨i, _, hnm.resolve_left h0, .inr rfl⟩)).store ⟨i, x, hx, .inl rfl⟩).store
      ⟨i, x, hx, .inr rfl⟩
  · simp only [GarbageOS.unlinked]; split <;> rfl

theorem removeFromBucketList_unlisted {x : Nat} (hodd : load s.mem x % 2 = 1)
    (hfits : x + 32 < 2 ^ 64) (hnext : nextOf s.mem x = 0) (hprev : prevOf s.mem x = 0)
    (hhead : s.heap.freeBuckets (getBucketIndexFromHeader s.mem x) ≠ x) :
    (removeFromBucketList x).run s = .ok () s := by
  rw [run_removeFromBucketList hodd hfits]
  · simp [GarbageOS.unlinked, hnext, hprev, hhead, relink, store_load_self hnext,
      store_load_self hprev]
  all_goals simp [Linkable, hnext, hprev]

/-! ## Linking in front -/

/-- The state after `x` has been put in front of bucket `i`. -/
def linked (s : HeapState) (i : Int) (x : Nat) : HeapState where
  mem :=
    let head := s.heap.freeBuckets i
    let m := store (store s.mem (x + 16) 0) (x + 8) head
    if head = 0 then m else store m (head + 16) x
  heap := { s.heap with freeBuckets := fun j => if j = i then x else s.heap.freeBuckets j }

theorem run_addToBucketList {x : Nat} (hodd : load s.mem x % 2 = 1) (hfits : x + 32 < 2 ^ 64)
    (hhead : Linkable s.mem (s.heap.freeBuckets (getBucketIndexFromHeader s.mem x)))
    (hne : s.heap.freeBuckets (getBucketIndexFromHeader s.mem x) ≠ 0 →
      s.heap.freeBuckets (getBucketIndexFromHeader s.mem x) ≠ x + 8 ∧
      s.heap.freeBuckets (getBucketIndexFromHeader s.mem x) ≠ x + 16) :
    (addToBucketList x).run s = .ok () (linked s (getBucketIndexFromHeader s.mem x) x) := by
  generalize hi : getBucketIndexFromHeader s.mem x = i at *
  have hodd1 : load (store s.mem (x + 16) 0) x % 2 = 1 := by rwa [load_store_ne (by omega)]
  simp only [addToBucketList, run_get_bind, hi, run_ok_bind (run_setBucketListPrev hodd hfits)]
  rw [run_ok_bind (run_setBucketListNext hodd1 hfits), run_get_bind, run_get_bind]
  by_cases h0 : s.heap.freeBuckets i = 0
  · rw [onlyIf_neg (by simp [hi, h0])]
    simp [setFreeBucket, modifyHeap, linked, h0]
  · have hodd2 : load (store (store s.mem (x + 16) 0) (x + 8) (s.heap.freeBuckets i))
        (s.heap.freeBuckets i) % 2 = 1 := by
      rw [load_store_ne (hne h0).1, load_store_ne (hne h0).2]; exact (hhead h0).1
    rw [onlyIf_pos (by simpa [hi] using h0), run_ok_bind (run_setBucketListPrev hodd2 (hhead h0).2)]
    simp [setFreeBucket, modifyHeap, linked, h0]

section

variable {i : Int} {x : Nat} (h : Lists s L) (h0 : 0 ≤ i) (h1 : i < 128)
  (hfar : ∀ k a, a ∈ L k → a + 32 ≤ x ∨ x + 32 ≤ a)

include h h0 h1 hfar

theorem Lists.linked_words {j : Int} {y : Nat} (hx : x < 2 ^ 64) (hy : y ∈ L j) :
    load (linked s i x).mem y = load s.mem y ∧ nextOf (linked s i x).mem y = nextOf s.mem y ∧
    prevOf (linked s i x).mem y = (if y = (L i).headD 0 then x else prevOf s.mem y) := by
  have hyx := hfar j y hy
  have hy0 : y ≠ 0 := fun e => h.zero_notMem j (e ▸ hy)
  have hkeep : ∀ w v, w ≠ x + 8 → w ≠ x + 16 →
      load (store (store s.mem (x + 16) 0) (x + 8) v) w = load s.mem w := fun w v e1 e2 => by
    rw [load_store_ne e1, load_store_ne e2]
  simp only [linked, h.head i h0 h1, nextOf, prevOf]
  rcases headD_eq_or_mem (L i) 0 with ⟨-, e⟩ | ⟨e, -⟩
  · simp only [e, if_true, if_neg hy0]
    exact ⟨hkeep _ _ (by omega) (by omega), hkeep _ _ (by omega) (by omega),
      hkeep _ _ (by omega) (by omega)⟩
  · obtain ⟨e1, e2, e3, e4⟩ := h.words_ne hy e
    have hne : (L i).headD 0 ≠ 0 := fun e' => h.zero_notMem i (e' ▸ e)
    rw [if_neg hne]
    refine ⟨?_, ?_, ?_⟩
    · rw [load_store_ne e2, hkeep _ _ (by omega) (by omega)]
    · rw [load_store_ne e3, hkeep _ _ (by omega) (by omega)]
    · split
      next e' => rw [← e', load_store_same hx]
      next e' => rw [load_store_ne (by omega), hkeep _ _ (by omega) (by omega)]

theorem Lists.linked_self :
    load (linked s i x).mem x = load s.mem x ∧ nextOf (linked s i x).mem x = (L i).headD 0 ∧
    prevOf (linked s i x).mem x = 0 := by
  simp only [linked, h.head i h0 h1, nextOf, prevOf]
  rcases headD_eq_or_mem (L i) 0 with ⟨-, e⟩ | ⟨e, -⟩
  · simp only [e, if_true]
    exact ⟨by rw [load_store_ne (by omega), load_store_ne (by omega)], load_store_same (by decide),
      by rw [load_store_ne (by omega), load_store_same (by decide)]⟩
  · have hd := hfar i _ e
    have hfits := h.fits i _ e
    have hne : (L i).headD 0 ≠ 0 := fun e' => h.zero_notMem i (e' ▸ e)
    rw [if_neg hne]
    refine ⟨?_, ?_, ?_⟩
    · rw [load_store_ne (by omega), load_store_ne (by omega), load_store_ne (by omega)]
    · rw [load_store_ne (by omega), load_store_same (by omega)]
    · rw [load_store_ne (by omega), load_store_ne (by omega), load_store_same (by decide)]

variable (hodd : load s.mem x % 2 = 1) (hx0 : 0 < x) (hfits : x + 32 < 2 ^ 64)
  (hi : getBucketIndexFromHeader s.mem x = i)

include hodd hx0 hfits hi

theorem Lists.linked : Lists (linked s i x) (update L i (x :: L i)) := by
  have hnot : ∀ k, x ∉ L k := fun k hm => by have := hfar k x hm; omega
  obtain ⟨hself, hnext, hprev⟩ := h.linked_self h0 h1 hfar
  have hwords := fun j a (ha : a ∈ L j) => h.linked_words h0 h1 hfar (by omega) ha
  have hcases : ∀ j a, a ∈ update L i (x :: L i) j → (a = x ∧ j = i) ∨ a ∈ L j := by
    intro j a ha
    by_cases hj : j = i
    · subst hj; rw [update_self] at ha; simpa using ha
    · rw [update_of_ne hj] at ha; exact .inr ha
  have hbucket : ∀ j a, load (GarbageOS.linked s i x).mem a = load s.mem a →
      getBucketIndexFromHeader s.mem a = j →
      getBucketIndexFromHeader (GarbageOS.linked s i x).mem a = j := fun j a e e' => by
    rw [← e']
    unfold getBucketIndexFromHeader getHeapChunkFlag getFixedHeapChunkSize
    rw [e]
  refine ⟨fun j hj0 hj1 => ?_, fun j => ?_, fun j => ?_, fun j a ha => ?_, fun j a ha => ?_,
    fun j a ha => ?_, fun j a ha => ?_, fun j k a b ha hb hab => ?_⟩
  · by_cases hj : j = i
    · subst hj; simp [GarbageOS.linked]
    · simp [GarbageOS.linked, hj, h.head j hj0 hj1]
  · by_cases hj : j = i
    · subst hj
      rw [update_self]
      refine ⟨hprev, hnext, (h.segment j).reprev (h.nodup j) (fun a ha => (hwords j a ha).2.1)
        (fun a ha => ?_) fun a ha hne => ?_⟩
      · rw [(hwords j a (List.mem_of_head? ha)).2.2, if_pos]
        simp [List.headD_eq_head?_getD, Option.mem_def.1 ha]
      · rw [(hwords j a ha).2.2, if_neg]
        rintro rfl
        rcases headD_eq_or_mem (L j) 0 with ⟨-, e⟩ | ⟨-, e⟩
        · rw [e] at ha; exact h.zero_notMem j ha
        · exact hne e
    · rw [update_of_ne hj]
      refine (h.segment j).congr fun a ha => ⟨(hwords j a ha).2.1, ?_⟩
      rw [(hwords j a ha).2.2, if_neg]
      rintro rfl
      rcases headD_eq_or_mem (L i) 0 with ⟨-, e⟩ | ⟨e, -⟩
      · rw [e] at ha; exact h.zero_notMem j ha
      · exact hj (h.unique ha e)
  · by_cases hj : j = i
    · subst hj; rw [update_self]; exact List.nodup_cons.2 ⟨hnot j, h.nodup j⟩
    · rw [update_of_ne hj]; exact h.nodup j
  · rcases hcases j a ha with ⟨-, rfl⟩ | ha
    · exact ⟨h0, h1⟩
    · exact h.range j a ha
  · rcases hcases j a ha with ⟨rfl, -⟩ | ha
    · exact ⟨hx0, hfits⟩
    · exact h.fits j a ha
  · rcases hcases j a ha with ⟨rfl, -⟩ | ha
    · rwa [hself]
    · rw [(hwords j a ha).1]; exact h.free j a ha
  · rcases hcases j a ha with ⟨rfl, rfl⟩ | ha
    · exact hbucket _ _ hself hi
    · exact hbucket _ _ (hwords j a ha).1 (h.bucket j a ha)
  · rcases hcases j a ha with ⟨ea, -⟩ | ha' <;> rcases hcases k b hb with ⟨eb, -⟩ | hb'
    · exact absurd (ea.trans eb.symm) hab
    · rw [ea]; exact (hfar k b hb').symm
    · rw [eb]; exact hfar j a ha'
    · exact h.apart j k a b ha' hb' hab

theorem addToBucketList_spec :
    ∃ s', (addToBucketList x).run s = .ok () s' ∧ Lists s' (update L i (x :: L i)) ∧
      Relinked (fun w => LinkWord L w ∨ w = x + 8 ∨ w = x + 16) s s' := by
  subst hi
  have hhead := h.head _ h0 h1
  have hmem : s.heap.freeBuckets (getBucketIndexFromHeader s.mem x) = 0 ∨
      s.heap.freeBuckets (getBucketIndexFromHeader s.mem x) ∈ L (getBucketIndexFromHeader s.mem x) := by
    rw [hhead]
    exact (headD_eq_or_mem _ 0).imp And.right And.left
  refine ⟨_, run_addToBucketList hodd hfits (h.linkable hmem) (fun hne => ?_),
    h.linked h0 h1 hfar hodd hx0 hfits rfl, ?_, rfl⟩
  · have := hfar _ _ (hmem.resolve_left hne); omega
  · simp only [GarbageOS.linked]
    split
    · exact ((AgreeOff.refl _ _).store (.inr (.inr rfl))).store (.inr (.inl rfl))
    next hne =>
      exact (((AgreeOff.refl _ _).store (.inr (.inr rfl))).store (.inr (.inl rfl))).store
        (.inl ⟨_, _, hmem.resolve_left hne, .inr rfl⟩)

end

/-- The lists stay when the links do, whatever else happens to the headers. -/
theorem Lists.reheader {s' : HeapState} (h : Lists s L)
    (hb : s'.heap.freeBuckets = s.heap.freeBuckets)
    (hhdr : ∀ i a, a ∈ L i → load s'.mem a % 2 = 1 ∧ getBucketIndexFromHeader s'.mem a = i)
    (hm : ∀ i a, a ∈ L i → s'.mem (a + 8) = s.mem (a + 8) ∧ s'.mem (a + 16) = s.mem (a + 16)) :
    Lists s' L := by
  refine ⟨fun i h0 h1 => by rw [hb]; exact h.head i h0 h1, fun i => ?_, h.nodup, h.range, h.fits,
    fun i a ha => (hhdr i a ha).1, fun i a ha => (hhdr i a ha).2, h.apart⟩
  refine (h.segment i).congr fun a ha => ?_
  obtain ⟨e1, e2⟩ := hm i a ha
  exact ⟨by simp only [nextOf, load, e1], by simp only [prevOf, load, e2]⟩

theorem Lists.frame {s' : HeapState} (h : Lists s L) (hb : s'.heap.freeBuckets = s.heap.freeBuckets)
    (hm : ∀ i a, a ∈ L i → s'.mem a = s.mem a ∧ s'.mem (a + 8) = s.mem (a + 8) ∧
      s'.mem (a + 16) = s.mem (a + 16)) : Lists s' L := by
  refine h.reheader hb (fun i a ha => ?_) fun i a ha => (hm i a ha).2
  have hload : load s'.mem a = load s.mem a := by unfold load; rw [(hm i a ha).1]
  rw [hload, ← h.bucket i a ha]
  refine ⟨h.free i a ha, ?_⟩
  unfold getBucketIndexFromHeader getHeapChunkFlag getFixedHeapChunkSize
  rw [hload]

/-! ## The lists as the code walks them -/

def bucketList (s : HeapState) (i : Int) : List Nat :=
  follow (nextOf s.mem) 0 (2 ^ 64) (s.heap.freeBuckets i)

theorem Lists.length_lt (h : Lists s L) (i : Int) : (L i).length < 2 ^ 64 := by
  refine length_lt_of_nodup (h.nodup i) (fun a ha => ?_) (by decide)
  have := h.fits i a ha
  omega

theorem Lists.bucketList_eq (h : Lists s L) {i : Int} (h0 : 0 ≤ i) (h1 : i < 128) :
    bucketList s i = L i := by
  rw [bucketList, h.head i h0 h1]
  exact follow_segment (h.segment i) (h.zero_notMem i) (Nat.le_of_lt (h.length_lt i))

end Lists

end GarbageOS
