import GarbageOS.Heap.Runs
import GarbageOS.Lib.Trace

/-!
# The corruption checker

`unsync_is_kheap_corrupted` walks over the chunks from the start of the heap. It is
modelled with a trace of the words it reads. Its bound test leaves out the 16 bytes of
header and footer, wraps around, and is made after the header was read; and a chunk
with the wilderness flag ends the walk wherever it is. `Checkable` says what a heap must
be like for the checker to be right all the same.
-/

namespace GarbageOS

open Lib

abbrev HeapReadM := Traced Stop Nat

namespace HeapRead

def readWord (m : Mem) (addr : Nat) : HeapReadM Nat := .event addr (load m addr)

def getFixedHeapChunkSize (m : Mem) (header : Nat) : HeapReadM Nat :=
  return (← readWord m header) &&& (2 ^ 64 - 8)

def getFixedHeapChunkSizeFromFooter (m : Mem) (footer : Nat) : HeapReadM Nat :=
  return (← readWord m footer) &&& (2 ^ 64 - 8)

def getHeapChunkFooterFromHeader (m : Mem) (header : Nat) : HeapReadM Nat :=
  return add64 (add64 header 8) (← getFixedHeapChunkSize m header)

def getNextHeapChunkHeader (m : Mem) (header : Nat) : HeapReadM Nat :=
  return add64 (add64 header (← getFixedHeapChunkSize m header)) (8 + 8)

def isLastChunkOfHeap (m : Mem) (header : Nat) : HeapReadM Bool :=
  return ((← readWord m header) &&& heapWildernessChunk) != 0

/-- The comparisons of `is_heap_chunk_corrupted`. -/
def compareSizes (m : Mem) (footer size1 size2 : Nat) : HeapReadM Bool := do
  if size1 != size2 then return true
  else if size1 < heapChunkMinSize then return true
  else if ((← readWord m footer) &&& 7) != 0 then return true
  else return false

def isHeapChunkCorrupted (m : Mem) (header : Nat) : HeapReadM Bool := do
  let footer ← getHeapChunkFooterFromHeader m header
  let size1 ← getFixedHeapChunkSizeFromFooter m footer
  let size2 ← getFixedHeapChunkSize m header
  compareSizes m footer size1 size2

/-- The end of a round, after `is_heap_chunk_corrupted`. -/
def followChunk (m : Mem) (header : Nat) (corrupted : Bool) : HeapReadM (Option Nat) := do
  if corrupted then return none
  else if ← isLastChunkOfHeap m header then return some 0
  else return some (← getNextHeapChunkHeader m header)

/-- The body of the loop: the header to go on with, NULL after the last chunk; nothing if
the chunk is found corrupted. -/
def checkChunk (s : HeapState) (header : Nat) : HeapReadM (Option Nat) := do
  if header < s.heap.start then return none
  else if add64 header (← readWord s.mem header) > add64 s.heap.start s.heap.size then return none
  else followChunk s.mem header (← isHeapChunkCorrupted s.mem header)

/-- The loop, for at most `steps` rounds, and the comparison of the counts after it. -/
def checkChunks (s : HeapState) : (steps : Nat) → (header count : Nat) → HeapReadM Bool
  | 0, _, _ => .stop .loops
  | steps + 1, header, count =>
    if header = 0 then return count != s.heap.numberOfChunks
    else if add64 count 1 > s.heap.numberOfChunks then return true
    else do
      match ← checkChunk s header with
      | none => return true
      | some next => checkChunks s steps next (add64 count 1)

def unsyncIsKheapCorrupted (s : HeapState) : HeapReadM Bool :=
  if s.heap.size % pageSize ≠ 0 then return true
  else if s.heap.start % pageSize ≠ 0 then return true
  else checkChunks s (2 ^ 64) s.heap.start 0

end HeapRead

/-! ## What the checker should decide -/

def InHeap (s : HeapState) (addr : Nat) : Prop := s.heap.start ≤ addr ∧ addr + 8 ≤ s.heap.stop

/-- The chunks with the headers `hs` tile the heap. -/
structure TiledBy (s : HeapState) (hs : List Nat) : Prop where
  count : hs.length = s.heap.numberOfChunks
  tiles : Walks s.mem s.heap.start hs s.heap.stop
  /-- An equal footer has no flags. -/
  sizes : ∀ h ∈ hs, 16 ≤ getFixedHeapChunkSize s.mem h ∧
    load s.mem (getHeapChunkFooterFromHeader s.mem h) = getFixedHeapChunkSize s.mem h
  wilderness : ∃ pre h, hs = pre ++ [h] ∧ isLastChunkOfHeap s.mem h = true ∧
    ∀ g ∈ pre, isLastChunkOfHeap s.mem g = false

/-- The checker reads only words of the heap, and decides whether chunks tile it. -/
def DecidesTiling (s : HeapState) : Prop :=
  (∀ addr ∈ (HeapRead.unsyncIsKheapCorrupted s).trace, InHeap s addr) ∧
    ∃ b, (HeapRead.unsyncIsKheapCorrupted s).result = .ok b ∧ (b = false ↔ ∃ hs, TiledBy s hs)

/-! ## The walk -/

section

variable {s : HeapState} {h g i j : Nat}

/-- The tests that the chunk at `h` must pass. -/
structure Passes (s : HeapState) (h : Nat) : Prop where
  low : s.heap.start ≤ h
  high : add64 h (load s.mem h) ≤ s.heap.stop
  sound : isHeapChunkCorrupted s.mem h = false

/-- The header that the checker gets to after `i` chunks. -/
inductive Meets (s : HeapState) : (i h : Nat) → Prop where
  | start : Meets s 0 s.heap.start
  | next {i h : Nat} (hmeet : Meets s i h) (hpass : Passes s h)
      (hmore : isLastChunkOfHeap s.mem h = false) : Meets s (i + 1) (getNextHeapChunkHeader s.mem h)

/-- The words read at the chunk `h`: its header, and its footer if the bound test passes. -/
structure ReadsInHeap (s : HeapState) (h : Nat) : Prop where
  header : s.heap.start ≤ h → InHeap s h
  footer : s.heap.start ≤ h → add64 h (load s.mem h) ≤ s.heap.stop →
    InHeap s (getHeapChunkFooterFromHeader s.mem h)

/-- The heaps on which the missing checks make no difference. -/
structure Checkable (s : HeapState) : Prop where
  /-- The headers met, and the footers of those that pass the bound test, are in the heap. -/
  reads : ∀ i h, i < s.heap.numberOfChunks → Meets s i h → ReadsInHeap s h
  /-- If the walk ends with the right number of chunks, they fit into the heap one after
  another and the last one reaches its end. -/
  last : ∀ i h, i + 1 = s.heap.numberOfChunks → Meets s i h → Passes s h →
    isLastChunkOfHeap s.mem h = true →
    chunkEnd s.mem h = s.heap.stop ∧ ∀ j g, j ≤ i → Meets s j g → chunkEnd s.mem g ≤ s.heap.stop

/-- The walk ends at a chunk with the wilderness flag, after the right number of chunks. -/
def Accepted (s : HeapState) : Prop := ∃ i h, i + 1 = s.heap.numberOfChunks ∧ Meets s i h ∧
  Passes s h ∧ isLastChunkOfHeap s.mem h = true

theorem isHeapChunkCorrupted_eq_false {m : Mem} : isHeapChunkCorrupted m h = false ↔
    16 ≤ getFixedHeapChunkSize m h ∧
      load m (getHeapChunkFooterFromHeader m h) = getFixedHeapChunkSize m h := by
  have hlt := load_lt m (getHeapChunkFooterFromHeader m h)
  have h8 : getFixedHeapChunkSize m h % 8 = 0 := by
    rw [getFixedHeapChunkSize, and_not_seven (load_lt m h)]; omega
  have h7 : load m (getHeapChunkFooterFromHeader m h) &&& 7 =
      load m (getHeapChunkFooterFromHeader m h) % 8 := by
    rw [show 7 = 2 ^ 3 - 1 from rfl, Nat.and_two_pow_sub_one_eq_mod]
  simp only [isHeapChunkCorrupted, getFixedHeapChunkSizeFromFooter, h7, and_not_seven hlt,
    heapChunkMinSize]
  generalize load m (getHeapChunkFooterFromHeader m h) = w at *
  generalize getFixedHeapChunkSize m h = z at *
  by_cases h₁ : w - w % 8 = z
  · by_cases h₂ : w % 8 = 0
    · simp [h₂]; omega
    · simp [h₁, h₂]; omega
  · simp [h₁]; omega

theorem Meets.inv (hm : Meets s i h) : (i = 0 ∧ h = s.heap.start) ∨ ∃ j g, i = j + 1 ∧
    h = getNextHeapChunkHeader s.mem g ∧ Meets s j g ∧ Passes s g ∧
      isLastChunkOfHeap s.mem g = false := by
  cases hm with
  | start => exact .inl ⟨rfl, rfl⟩
  | next hm hpass hmore => exact .inr ⟨_, _, rfl, rfl, hm, hpass, hmore⟩

theorem Meets.unique (hm : Meets s i h) (hm' : Meets s i g) : h = g := by
  induction hm generalizing g with
  | start => cases hm'; rfl
  | next _ _ _ ih =>
    cases hm' with
    | next hm' _ _ => rw [ih hm']

theorem Meets.of_lt (hm : Meets s j g) (hlt : i < j) :
    ∃ h, Meets s i h ∧ Passes s h ∧ isLastChunkOfHeap s.mem h = false := by
  induction hm with
  | start => omega
  | @next j h hm hpass hmore ih =>
    by_cases hij : i = j
    · exact ⟨h, hij ▸ hm, hpass, hmore⟩
    · exact ih (by omega)

/-! ## One round -/

namespace HeapRead

theorem isHeapChunkCorrupted_eq (m : Mem) (h : Nat) :
    let footer := GarbageOS.getHeapChunkFooterFromHeader m h
    let rest := compareSizes m footer (GarbageOS.getFixedHeapChunkSizeFromFooter m footer)
      (GarbageOS.getFixedHeapChunkSize m h)
    isHeapChunkCorrupted m h = ⟨h :: footer :: h :: rest.trace, rest.result⟩ := rfl

theorem compareSizes_spec (m : Mem) (footer size1 size2 : Nat) :
    (compareSizes m footer size1 size2).result = .ok (if size1 != size2 then true
      else if size1 < heapChunkMinSize then true
      else if (load m footer &&& 7) != 0 then true else false) ∧
    ∀ a ∈ (compareSizes m footer size1 size2).trace, a = footer := by
  unfold compareSizes
  by_cases h₁ : (size1 != size2) = true
  · simp [h₁]
  · by_cases h₂ : size1 < heapChunkMinSize
    · simp [h₁, h₂]
    · by_cases h₃ : load m footer &&& 7 = 0
      · simp [h₁, h₂, h₃, readWord]
      · simp [h₁, h₂, h₃, readWord]

theorem isHeapChunkCorrupted_spec (m : Mem) (h : Nat) :
    (isHeapChunkCorrupted m h).result = .ok (GarbageOS.isHeapChunkCorrupted m h) ∧
      ∀ a, a ∈ (isHeapChunkCorrupted m h).trace ↔
        a = h ∨ a = GarbageOS.getHeapChunkFooterFromHeader m h := by
  rw [isHeapChunkCorrupted_eq]
  obtain ⟨hresult, htrace⟩ := compareSizes_spec m (GarbageOS.getHeapChunkFooterFromHeader m h)
    (GarbageOS.getFixedHeapChunkSizeFromFooter m (GarbageOS.getHeapChunkFooterFromHeader m h))
    (GarbageOS.getFixedHeapChunkSize m h)
  refine ⟨hresult, fun a => ?_⟩
  simp only [List.mem_cons]
  constructor
  · rintro (ha | ha | ha | ha)
    · exact .inl ha
    · exact .inr ha
    · exact .inl ha
    · exact .inr (htrace a ha)
  · rintro (ha | ha)
    · exact .inl ha
    · exact .inr (.inl ha)

theorem followChunk_true (m : Mem) (h : Nat) : followChunk m h true = pure none := rfl

theorem followChunk_false (m : Mem) (h : Nat) :
    (followChunk m h false).result = .ok (some (if GarbageOS.isLastChunkOfHeap m h then 0
      else GarbageOS.getNextHeapChunkHeader m h)) ∧
    ∀ a ∈ (followChunk m h false).trace, a = h := by
  have hlast : isLastChunkOfHeap m h = .event h (GarbageOS.isLastChunkOfHeap m h) := rfl
  have hnext : getNextHeapChunkHeader m h = .event h (GarbageOS.getNextHeapChunkHeader m h) := rfl
  unfold followChunk
  by_cases hw : GarbageOS.isLastChunkOfHeap m h = true
  · simp [hlast, hw]
  · simp [hlast, hnext, hw]

theorem checkChunk_spec (hfits : s.heap.stop < 2 ^ 64) :
    (Passes s h → (checkChunk s h).result = .ok (some (if GarbageOS.isLastChunkOfHeap s.mem h then 0
      else GarbageOS.getNextHeapChunkHeader s.mem h))) ∧
    (¬ Passes s h → (checkChunk s h).result = .ok none) ∧
    ((∀ a ∈ (checkChunk s h).trace, InHeap s a) ↔ ReadsInHeap s h) := by
  have hstop : add64 s.heap.start s.heap.size = s.heap.stop := add64_eq hfits
  unfold checkChunk
  rw [hstop]
  by_cases hlow : h < s.heap.start
  · rw [if_pos hlow]
    refine ⟨fun hp => absurd hp.low (by omega), fun _ => rfl, fun _ => ⟨?_, ?_⟩, by simp⟩ <;>
      intro hle <;> omega
  · rw [if_neg hlow, readWord, Traced.event_bind]
    by_cases hhigh : add64 h (load s.mem h) > s.heap.stop
    · rw [if_pos hhigh]
      refine ⟨fun hp => absurd hp.high (by omega), fun _ => rfl, fun hr => ⟨fun _ => ?_, ?_⟩, ?_⟩
      · exact hr h List.mem_cons_self
      · intro _ hle; omega
      · intro hr a ha
        rw [List.mem_singleton.1 ha]
        exact hr.header (by omega)
    · rw [if_neg hhigh]
      obtain ⟨hresult, hreads⟩ := isHeapChunkCorrupted_spec s.mem h
      have hrest : (isHeapChunkCorrupted s.mem h >>= followChunk s.mem h).result =
          (followChunk s.mem h (GarbageOS.isHeapChunkCorrupted s.mem h)).result := by
        rw [Traced.bind_result, hresult]
        rfl
      have htrace := Traced.bind_trace_of_ok (f := followChunk s.mem h) hresult
      have hfollow : ∀ a ∈ (followChunk s.mem h (GarbageOS.isHeapChunkCorrupted s.mem h)).trace,
          a = h := by
        cases GarbageOS.isHeapChunkCorrupted s.mem h with
        | true => simp [followChunk_true]
        | false => exact (followChunk_false s.mem h).2
      refine ⟨fun hp => ?_, fun hp => ?_, fun hr => ⟨fun _ => ?_, fun _ _ => ?_⟩, fun hr a ha => ?_⟩
      · show (isHeapChunkCorrupted s.mem h >>= followChunk s.mem h).result = _
        rw [hrest, hp.sound]
        exact (followChunk_false s.mem h).1
      · show (isHeapChunkCorrupted s.mem h >>= followChunk s.mem h).result = _
        rw [hrest]
        cases hc : GarbageOS.isHeapChunkCorrupted s.mem h with
        | true => rfl
        | false => exact (hp ⟨by omega, by omega, hc⟩).elim
      · exact hr h List.mem_cons_self
      · refine hr _ (List.mem_cons_of_mem _ ?_)
        rw [htrace]
        exact List.mem_append_left _ ((hreads _).2 (.inr rfl))
      · rcases List.mem_cons.1 ha with rfl | ha
        · exact hr.header (by omega)
        · rw [htrace] at ha
          rcases List.mem_append.1 ha with ha | ha
          · rcases (hreads a).1 ha with rfl | rfl
            · exact hr.header (by omega)
            · exact hr.footer (by omega) (by omega)
          · rw [hfollow a ha]
            exact hr.header (by omega)

end HeapRead

/-! ## The walk does not come back -/

theorem fixedSize_le (m : Mem) (h : Nat) : getFixedHeapChunkSize m h % 8 = 0 ∧
    getFixedHeapChunkSize m h ≤ load m h ∧ load m h < getFixedHeapChunkSize m h + 8 ∧
    load m h < 2 ^ 64 := by
  have := load_lt m h
  rw [getFixedHeapChunkSize, and_not_seven this]
  omega

/-- The bound test keeps the walk away from the top of the address space, and so from NULL. -/
theorem Passes.next_ne_zero (hp : Passes s h) (hfits : s.heap.stop < 2 ^ 64)
    (hpage : s.heap.stop % pageSize = 0) : getNextHeapChunkHeader s.mem h ≠ 0 := by
  have hhigh := hp.high
  obtain ⟨-, hle, hlt, -⟩ := fixedSize_le s.mem h
  simp only [getNextHeapChunkHeader, pageSize] at *
  unfold add64 at *
  omega

theorem next_eq_footer (m : Mem) (h : Nat) :
    getNextHeapChunkHeader m h = add64 (getHeapChunkFooterFromHeader m h) 8 := by
  unfold getNextHeapChunkHeader getHeapChunkFooterFromHeader add64
  omega

theorem Meets.lt (hm : Meets s i h) (hfits : s.heap.stop < 2 ^ 64) : h < 2 ^ 64 := by
  cases hm with
  | start => unfold Heap.stop at hfits; omega
  | next => exact add64_lt _ _

/-- A chunk is found again from the footer before the next header. -/
theorem Passes.eq_of_next (hp : Passes s h) (hp' : Passes s g) (hh : h < 2 ^ 64) (hg : g < 2 ^ 64)
    (hnext : getNextHeapChunkHeader s.mem h = getNextHeapChunkHeader s.mem g) : h = g := by
  have hfooter : getHeapChunkFooterFromHeader s.mem h = getHeapChunkFooterFromHeader s.mem g := by
    have h₁ : getHeapChunkFooterFromHeader s.mem h < 2 ^ 64 := add64_lt _ _
    have h₂ : getHeapChunkFooterFromHeader s.mem g < 2 ^ 64 := add64_lt _ _
    rw [next_eq_footer, next_eq_footer] at hnext
    unfold add64 at hnext
    omega
  have hsize : getFixedHeapChunkSize s.mem h = getFixedHeapChunkSize s.mem g := by
    rw [← (isHeapChunkCorrupted_eq_false.1 hp.sound).2, hfooter,
      (isHeapChunkCorrupted_eq_false.1 hp'.sound).2]
  unfold getHeapChunkFooterFromHeader add64 at hfooter
  omega

section

variable (hreads : ∀ i h, i < s.heap.numberOfChunks → Meets s i h → ReadsInHeap s h)
  (hfits : s.heap.stop < 2 ^ 64) (hpos : 8 ≤ s.heap.start) (hm : Meets s i h)
  (hi : i ≤ s.heap.numberOfChunks)

include hreads hfits hpos hm hi

theorem Meets.inj (hm' : Meets s j h) (hj : j ≤ s.heap.numberOfChunks) : i = j := by
  -- the footer of a chunk before the start would be outside the heap
  have hback : ∀ {j g}, j < s.heap.numberOfChunks → Meets s j g → Passes s g →
      getNextHeapChunkHeader s.mem g ≠ s.heap.start := by
    intro j g hj hm hp he
    have hin := ((hreads j g hj hm).footer hp.low hp.high)
    rw [next_eq_footer] at he
    unfold add64 at he
    have := hin.1
    have := hin.2
    omega
  induction hm generalizing j with
  | start =>
    rcases hm'.inv with ⟨rfl, -⟩ | ⟨j, g, rfl, he, hm', hp', -⟩
    · rfl
    · exact (hback (by omega) hm' hp' he.symm).elim
  | next hm hp _ ih =>
    rcases hm'.inv with ⟨rfl, he⟩ | ⟨j, g, rfl, he, hm', hp', -⟩
    · exact (hback (by omega) hm hp he).elim
    · obtain rfl := hp.eq_of_next hp' (hm.lt hfits) (hm'.lt hfits) he
      rw [ih (by omega) hm' (by omega)]

/-- Each chunk that the walk leaves is another word of the heap. -/
theorem Meets.le_size : i ≤ s.heap.size := by
  obtain ⟨F, hcard, hsub, -⟩ : ∃ F : Finset Nat, F.card = i ∧
      F ⊆ Finset.Ico s.heap.start s.heap.stop ∧ ∀ x ∈ F, ∃ j < i, Meets s j x := by
    induction hm with
    | start => exact ⟨∅, rfl, by simp, by simp⟩
    | @next i h hm hp _ ih =>
      obtain ⟨F, hcard, hsub, hmet⟩ := ih (by omega)
      have hnew : h ∉ F := fun hmem => by
        obtain ⟨j, hj, hm'⟩ := hmet h hmem
        have := hm.inj hreads hfits hpos (by omega) hm' (by omega)
        omega
      have hin := (hreads i h (by omega) hm).header hp.low
      refine ⟨insert h F, by rw [Finset.card_insert_of_notMem hnew, hcard], ?_, ?_⟩
      · refine Finset.insert_subset (Finset.mem_Ico.2 ⟨hin.1, ?_⟩) hsub
        have := hin.2
        omega
      · intro x hx
        rcases Finset.mem_insert.1 hx with rfl | hx
        · exact ⟨i, by omega, hm⟩
        · obtain ⟨j, hj, hm'⟩ := hmet x hx
          exact ⟨j, by omega, hm'⟩
  have hle := Finset.card_le_card hsub
  rw [Nat.card_Ico, hcard] at hle
  unfold Heap.stop at hle
  omega

end

/-! ## The loop -/

/-- The heap is a range of pages, not at NULL, and the count is a machine word. -/
structure OnPages (s : HeapState) : Prop where
  start : s.heap.start % pageSize = 0
  size : s.heap.size % pageSize = 0
  pos : 0 < s.heap.start
  fits : s.heap.stop < 2 ^ 64
  count : s.heap.numberOfChunks < 2 ^ 64

theorem OnPages.stop (hp : OnPages s) : s.heap.stop % pageSize = 0 := by
  have := hp.start
  have := hp.size
  simp only [Heap.stop, pageSize] at *
  omega

theorem OnPages.start_le (hp : OnPages s) : 8 ≤ s.heap.start := by
  have := hp.start
  have := hp.pos
  simp only [pageSize] at *
  omega

theorem Meets.ne_zero (hm : Meets s i h) (hp : OnPages s) : h ≠ 0 := by
  rcases hm.inv with ⟨-, rfl⟩ | ⟨j, g, -, rfl, -, hpass, -⟩
  · exact Nat.ne_of_gt hp.pos
  · exact hpass.next_ne_zero hp.fits hp.stop

/-- The walk ends before the counter of chunks overflows. -/
def Ends (s : HeapState) : Prop :=
  s.heap.numberOfChunks + 1 < 2 ^ 64 ∨ ∀ h, ¬ Meets s s.heap.numberOfChunks h

namespace HeapRead

section

variable {next : Nat} (steps : Nat) (hh : h ≠ 0) (hi : i < s.heap.numberOfChunks)
  (hn : s.heap.numberOfChunks < 2 ^ 64)
include hh hi hn

theorem checkChunks_corrupted (hc : (checkChunk s h).result = .ok none) :
    (checkChunks s (steps + 1) h i).result = .ok true ∧
      (checkChunks s (steps + 1) h i).trace = (checkChunk s h).trace := by
  rw [checkChunks, if_neg hh, add64_eq (by omega), if_neg (by omega)]
  constructor
  · rw [Traced.bind_result, hc]
    rfl
  · rw [Traced.bind_trace_of_ok hc]
    exact List.append_nil _

theorem checkChunks_sound (hc : (checkChunk s h).result = .ok (some next)) :
    (checkChunks s (steps + 1) h i).result = (checkChunks s steps next (i + 1)).result ∧
      (checkChunks s (steps + 1) h i).trace =
        (checkChunk s h).trace ++ (checkChunks s steps next (i + 1)).trace := by
  rw [checkChunks, if_neg hh, add64_eq (by omega), if_neg (by omega)]
  constructor
  · rw [Traced.bind_result, hc]
    rfl
  · rw [Traced.bind_trace_of_ok hc]

end

/-- If all words read are in the heap, then those of each chunk that the loop gets to. -/
theorem checkChunks_reads (hp : OnPages s) {steps : Nat} (hm : Meets s i h)
    (hin : ∀ a ∈ (checkChunks s steps h i).trace, InHeap s a) (hij : i ≤ j)
    (hj : j < s.heap.numberOfChunks) (hsteps : j < i + steps) (hg : Meets s j g) :
    ReadsInHeap s g := by
  induction steps generalizing i h with
  | zero => omega
  | succ steps ih =>
    obtain ⟨hpass, hfail, hreads⟩ := checkChunk_spec (h := h) hp.fits
    have hi : i < s.heap.numberOfChunks := by omega
    by_cases he : i = j
    · subst he
      obtain rfl := hm.unique hg
      refine hreads.1 fun a ha => hin a ?_
      by_cases hc : Passes s h
      · rw [(checkChunks_sound steps (hm.ne_zero hp) hi hp.count (hpass hc)).2]
        exact List.mem_append_left _ ha
      · rwa [(checkChunks_corrupted steps (hm.ne_zero hp) hi hp.count (hfail hc)).2]
    · obtain ⟨h', hm', hc, hmore⟩ := hg.of_lt (Nat.lt_of_le_of_ne hij he)
      obtain rfl := hm.unique hm'
      have htrace := (checkChunks_sound steps (hm.ne_zero hp) hi hp.count (hpass hc)).2
      rw [hmore] at htrace
      refine ih (hm.next hc hmore) (fun a ha => hin a ?_) (by omega) (by omega)
      rw [htrace]
      exact List.mem_append_right _ ha

/-- The loop from chunk `i` on returns, and accepts the heap exactly if the walk ends with a
wilderness chunk after the right number of chunks. -/
theorem checkChunks_spec (hp : OnPages s) (hends : Ends s)
    (hreads : ∀ i h, i < s.heap.numberOfChunks → Meets s i h → ReadsInHeap s h) {steps : Nat}
    (hm : Meets s i h) (hi : i ≤ s.heap.numberOfChunks) (hsteps : s.heap.numberOfChunks < i + steps) :
    (∀ a ∈ (checkChunks s steps h i).trace, InHeap s a) ∧
      ∃ b, (checkChunks s steps h i).result = .ok b ∧ (b = false ↔ Accepted s) := by
  induction steps generalizing i h with
  | zero => omega
  | succ steps ih =>
    by_cases hlast : i = s.heap.numberOfChunks
    · -- one chunk too many
      have hcount : s.heap.numberOfChunks + 1 < 2 ^ 64 :=
        hends.resolve_right fun hno => hno h (hlast ▸ hm)
      have hmany : checkChunks s (steps + 1) h i = pure true := by
        rw [checkChunks, if_neg (hm.ne_zero hp), add64_eq (by omega), if_pos (by omega)]
      refine ⟨by simp [hmany], true, by simp [hmany], by simp, ?_⟩
      rintro ⟨j, g, hj, hg, -, hw⟩
      obtain ⟨g', hg', -, hmore⟩ := hm.of_lt (show j < i by omega)
      rw [hg.unique hg', hmore] at hw
      cases hw
    · have hlt : i < s.heap.numberOfChunks := by omega
      obtain ⟨hpass, hfail, hin⟩ := checkChunk_spec (h := h) hp.fits
      have hhere := hin.2 (hreads i h hlt hm)
      -- a walk that is accepted later on goes on from here
      have hlater : Accepted s → i + 1 = s.heap.numberOfChunks ∧ Passes s h ∧
          GarbageOS.isLastChunkOfHeap s.mem h = true ∨
            i + 1 < s.heap.numberOfChunks ∧ Passes s h ∧
              GarbageOS.isLastChunkOfHeap s.mem h = false := by
        rintro ⟨j, g, hj, hg, hgp, hw⟩
        by_cases he : i = j
        · subst he
          rw [hm.unique hg]
          exact .inl ⟨hj, hgp, hw⟩
        · obtain ⟨h', hm', hc, hmore⟩ := hg.of_lt (show i < j by omega)
          rw [hm.unique hm']
          exact .inr ⟨by omega, hc, hmore⟩
      by_cases hc : Passes s h
      · obtain ⟨hresult, htrace⟩ :=
          checkChunks_sound steps (hm.ne_zero hp) hlt hp.count (hpass hc)
        cases hw : GarbageOS.isLastChunkOfHeap s.mem h with
        | true =>
          obtain ⟨steps, rfl⟩ : ∃ l, steps = l + 1 := ⟨steps - 1, by omega⟩
          have hdone : checkChunks s (steps + 1) 0 (i + 1) =
              pure (i + 1 != s.heap.numberOfChunks) := by rw [checkChunks, if_pos rfl]
          simp only [hw, if_true, hdone] at hresult htrace
          refine ⟨by simpa [htrace] using hhere, _, hresult, ?_⟩
          rw [bne_eq_false_iff_eq]
          constructor
          · exact fun he => ⟨i, h, he, hm, hc, hw⟩
          · intro hacc
            rcases hlater hacc with hl | hl
            · exact hl.1
            · rw [hl.2.2] at hw
              cases hw
        | false =>
          rw [hw] at hresult htrace
          obtain ⟨hrest, b, hb, hacc⟩ := ih (hm.next hc hw) (by omega) (by omega)
          refine ⟨?_, b, hresult.trans hb, hacc⟩
          rw [htrace]
          exact List.forall_mem_append.2 ⟨hhere, hrest⟩
      · obtain ⟨hresult, htrace⟩ :=
          checkChunks_corrupted steps (hm.ne_zero hp) hlt hp.count (hfail hc)
        refine ⟨by rwa [htrace], true, hresult, by simp, fun hacc => ?_⟩
        rcases hlater hacc with hl | hl
        · exact (hc hl.2.1).elim
        · exact (hc hl.2.1).elim

end HeapRead

/-! ## Tilings and walks -/

theorem next_eq_chunkEnd {m : Mem} (hfits : chunkEnd m h < 2 ^ 64) :
    getNextHeapChunkHeader m h = chunkEnd m h := by
  unfold getNextHeapChunkHeader chunkEnd add64 at *
  omega

theorem passes_of_chunkEnd_le (hfits : s.heap.stop < 2 ^ 64) (hlow : s.heap.start ≤ h)
    (hend : chunkEnd s.mem h ≤ s.heap.stop) (hsize : 16 ≤ getFixedHeapChunkSize s.mem h ∧
      load s.mem (getHeapChunkFooterFromHeader s.mem h) = getFixedHeapChunkSize s.mem h) :
    Passes s h := by
  obtain ⟨-, -, hlt, -⟩ := fixedSize_le s.mem h
  unfold chunkEnd at hend
  exact ⟨hlow, by rw [add64_eq (by omega)]; omega, isHeapChunkCorrupted_eq_false.2 hsize⟩

theorem Walks.meets {pre : List Nat} {w : Nat} (hfits : s.heap.stop < 2 ^ 64)
    (hwalk : Walks s.mem h (pre ++ [w]) s.heap.stop) (hlow : s.heap.start ≤ h) (hm : Meets s i h)
    (hsizes : ∀ g ∈ pre ++ [w], 16 ≤ getFixedHeapChunkSize s.mem g ∧
      load s.mem (getHeapChunkFooterFromHeader s.mem g) = getFixedHeapChunkSize s.mem g)
    (hmore : ∀ g ∈ pre, isLastChunkOfHeap s.mem g = false) :
    Meets s (i + pre.length) w ∧ ∀ j g, i ≤ j → j ≤ i + pre.length → Meets s j g →
      Passes s g ∧ chunkEnd s.mem g ≤ s.heap.stop := by
  induction pre generalizing h i with
  | nil =>
    obtain ⟨rfl, hend⟩ := hwalk
    have hend : chunkEnd s.mem w = s.heap.stop := hend
    refine ⟨hm, fun j g hij hji hg => ?_⟩
    obtain rfl : i = j := by simp only [List.length_nil] at hji; omega
    obtain rfl := hm.unique hg
    exact ⟨passes_of_chunkEnd_le hfits hlow hend.le (hsizes _ (by simp)), hend.le⟩
  | cons x pre ih =>
    obtain ⟨rfl, hwalk⟩ := hwalk
    simp only [id] at hlow hm
    have hend := Walks.le hwalk
    have hpass := passes_of_chunkEnd_le hfits hlow hend (hsizes x (by simp))
    have hnext := next_eq_chunkEnd (Nat.lt_of_le_of_lt hend hfits)
    have hlow' : s.heap.start ≤ chunkEnd s.mem x := by unfold chunkEnd; omega
    have hm' := hm.next hpass (hmore x (by simp))
    rw [hnext] at hm'
    obtain ⟨hw, hall⟩ := ih hwalk hlow' hm' (fun g hg => hsizes g (List.mem_cons_of_mem _ hg))
      fun g hg => hmore g (List.mem_cons_of_mem _ hg)
    rw [List.length_cons, show i + (pre.length + 1) = i + 1 + pre.length by omega]
    refine ⟨hw, fun j g hij hji hg => ?_⟩
    by_cases he : i = j
    · subst he
      obtain rfl := hm.unique hg
      exact ⟨hpass, hend⟩
    · exact hall j g (by omega) hji hg

/-- The chunks the checker met, if they fit into the heap one after another. -/
theorem Meets.walks (hfits : s.heap.stop < 2 ^ 64) (hm : Meets s i h)
    (hends : ∀ j g, j ≤ i → Meets s j g → chunkEnd s.mem g ≤ s.heap.stop) :
    ∃ pre, pre.length = i ∧ Walks s.mem s.heap.start (pre ++ [h]) (chunkEnd s.mem h) ∧
      ∀ g ∈ pre, Passes s g ∧ isLastChunkOfHeap s.mem g = false := by
  induction hm with
  | start => exact ⟨[], rfl, ⟨rfl, rfl⟩, by simp⟩
  | @next i h hm hpass hmore ih =>
    obtain ⟨pre, hlen, hwalk, hpre⟩ := ih fun j g hj => hends j g (by omega)
    have hnext := next_eq_chunkEnd (Nat.lt_of_le_of_lt (hends i h (by omega) hm) hfits)
    refine ⟨pre ++ [h], by simp [hlen], tiles_append.2 ⟨_, hwalk, hnext, rfl⟩, fun g hg => ?_⟩
    rcases List.mem_append.1 hg with hg | hg
    · exact hpre g hg
    · rw [List.mem_singleton.1 hg]
      exact ⟨hpass, hmore⟩

theorem TiledBy.walk {hs : List Nat} (ht : TiledBy s hs) (hfits : s.heap.stop < 2 ^ 64) :
    ∃ i w, i + 1 = s.heap.numberOfChunks ∧ Meets s i w ∧ Passes s w ∧
      isLastChunkOfHeap s.mem w = true ∧ chunkEnd s.mem w = s.heap.stop ∧
      ∀ j g, j ≤ i → Meets s j g → chunkEnd s.mem g ≤ s.heap.stop := by
  obtain ⟨pre, w, rfl, hw, hmore⟩ := ht.wilderness
  have hcount := ht.count
  simp only [List.length_append, List.length_singleton] at hcount
  obtain ⟨hmeet, hall⟩ := ht.tiles.meets hfits (Nat.le_refl _) .start ht.sizes hmore
  simp only [Nat.zero_add] at hmeet hall
  obtain ⟨b, -, -, hend⟩ := tiles_append.1 ht.tiles
  exact ⟨pre.length, w, hcount, hmeet, (hall _ w (Nat.zero_le _) (Nat.le_refl _) hmeet).1, hw, hend,
    fun j g hj hg => (hall j g (Nat.zero_le _) hj hg).2⟩

end

/-- The checker is right exactly on the heaps on which its missing checks make no difference. -/
theorem decidesTiling_iff {s : HeapState} (hp : OnPages s) : DecidesTiling s ↔ Checkable s := by
  have hcheck : HeapRead.unsyncIsKheapCorrupted s =
      HeapRead.checkChunks s (2 ^ 64) s.heap.start 0 := by
    rw [HeapRead.unsyncIsKheapCorrupted, if_neg (by simp [hp.size]), if_neg (by simp [hp.start])]
  unfold DecidesTiling
  rw [hcheck]
  -- the walk stays in the heap exactly if the headers and footers met are there
  have hloop : (∀ i h, i < s.heap.numberOfChunks → Meets s i h → ReadsInHeap s h) →
      (∀ a ∈ (HeapRead.checkChunks s (2 ^ 64) s.heap.start 0).trace, InHeap s a) ∧
        ∃ b, (HeapRead.checkChunks s (2 ^ 64) s.heap.start 0).result = .ok b ∧
          (b = false ↔ Accepted s) := by
    intro hreads
    have hends : Ends s := by
      by_cases hn : s.heap.numberOfChunks + 1 < 2 ^ 64
      · exact .inl hn
      · refine .inr fun h hm => ?_
        have := hm.le_size hreads hp.fits hp.start_le (Nat.le_refl _)
        have := hp.pos
        have hfits := hp.fits
        unfold Heap.stop at hfits
        omega
    exact HeapRead.checkChunks_spec hp hends hreads .start (Nat.zero_le _)
      (by have := hp.count; omega)
  constructor
  · rintro ⟨hin, b, hb, hdecides⟩
    have hreads : ∀ i h, i < s.heap.numberOfChunks → Meets s i h → ReadsInHeap s h :=
      fun i h hi hm => HeapRead.checkChunks_reads hp .start hin (Nat.zero_le _) hi
        (by have := hp.count; omega) hm
    refine ⟨hreads, fun i h hi hm hpass hw => ?_⟩
    obtain ⟨-, b', hb', hacc⟩ := hloop hreads
    rw [hb] at hb'
    obtain rfl := Except.ok.inj hb'
    obtain ⟨hs, ht⟩ := hdecides.1 (hacc.2 ⟨i, h, hi, hm, hpass, hw⟩)
    obtain ⟨j, w, hj, hmeet, -, -, hend, hends⟩ := ht.walk hp.fits
    obtain rfl : i = j := by omega
    obtain rfl := hm.unique hmeet
    exact ⟨hend, hends⟩
  · intro hc
    obtain ⟨hin, b, hb, hacc⟩ := hloop hc.reads
    refine ⟨hin, b, hb, hacc.trans ⟨?_, ?_⟩⟩
    · rintro ⟨i, h, hi, hm, hpass, hw⟩
      obtain ⟨hlast, hends⟩ := hc.last i h hi hm hpass hw
      obtain ⟨pre, hlen, hwalk, hpre⟩ := hm.walks hp.fits hends
      rw [hlast] at hwalk
      refine ⟨pre ++ [h], by simp [hlen, hi], hwalk, fun g hg => ?_, pre, h, rfl, hw, fun g hg =>
        (hpre g hg).2⟩
      have hg' : Passes s g := by
        rcases List.mem_append.1 hg with hg | hg
        · exact (hpre g hg).1
        · rw [List.mem_singleton.1 hg]; exact hpass
      exact isHeapChunkCorrupted_eq_false.1 hg'.sound
    · rintro ⟨hs, ht⟩
      obtain ⟨i, w, hi, hmeet, hpass, hw, -⟩ := ht.walk hp.fits
      exact ⟨i, w, hi, hmeet, hpass, hw⟩

/-- A heap of one page whose chunks start with one of this header. -/
def onePageHeap (header : Nat) : HeapState where
  mem := store (store (fun _ => 0) kernelVmemStart header) (kernelVmemStart + 24) 16
  heap := ⟨.null, false, kernelVmemStart, pageSize, 1, kernelVmemStart, fun _ => 0⟩

theorem onePageHeap_onPages (header : Nat) : OnPages (onePageHeap header) where
  start := (by decide : kernelVmemStart % pageSize = 0)
  size := (by decide : pageSize % pageSize = 0)
  pos := (by decide : 0 < kernelVmemStart)
  fits := (by decide : kernelVmemStart + pageSize < 2 ^ 64)
  count := (by decide : 1 < 2 ^ 64)

theorem holedHeap_meets {i h : Nat} (hm : Meets holedHeap.sh.heap i h) : h ∈ threeHeaders := by
  have hnext : ∀ g ∈ threeHeaders, isLastChunkOfHeap holedHeap.sh.heap.mem g = false →
      getNextHeapChunkHeader holedHeap.sh.heap.mem g ∈ threeHeaders := by decide +kernel
  induction hm with
  | start => decide +kernel
  | next _ _ hmore ih => exact hnext _ ih hmore

theorem decidesTiling_holedHeap : DecidesTiling holedHeap.sh.heap := by
  have hp : OnPages holedHeap.sh.heap :=
    ⟨by decide +kernel, by decide +kernel, by decide +kernel, by decide +kernel, by decide +kernel⟩
  have hreads : ∀ h ∈ threeHeaders, InHeap holedHeap.sh.heap h ∧
      InHeap holedHeap.sh.heap (getHeapChunkFooterFromHeader holedHeap.sh.heap.mem h) := by
    unfold InHeap; decide +kernel
  have hends : ∀ h ∈ threeHeaders, chunkEnd holedHeap.sh.heap.mem h ≤ holedHeap.sh.heap.heap.stop ∧
      (isLastChunkOfHeap holedHeap.sh.heap.mem h = true →
        chunkEnd holedHeap.sh.heap.mem h = holedHeap.sh.heap.heap.stop) := by
    decide +kernel
  refine (decidesTiling_iff hp).2 ⟨fun _ h _ hm => ?_, fun _ h _ hm _ hw => ?_⟩
  · obtain ⟨hheader, hfooter⟩ := hreads h (holedHeap_meets hm)
    exact ⟨fun _ => hheader, fun _ _ => hfooter⟩
  · exact ⟨(hends h (holedHeap_meets hm)).2 hw, fun _ g _ hg => (hends g (holedHeap_meets hg)).1⟩

/-- A heap of one page is accepted though its only chunk, of 16 bytes with the wilderness
flag, covers 32 bytes of it; and for a chunk of 4088 bytes the word after the heap is read. -/
theorem exists_wrong_check :
    (∃ s, OnPages s ∧ (HeapRead.unsyncIsKheapCorrupted s).result = .ok false ∧
      ¬ ∃ hs, TiledBy s hs) ∧
    ∃ s, OnPages s ∧ ∃ addr ∈ (HeapRead.unsyncIsKheapCorrupted s).trace, ¬ InHeap s addr := by
  refine ⟨⟨onePageHeap 18, onePageHeap_onPages 18, by decide +kernel, ?_⟩,
    onePageHeap 4088, onePageHeap_onPages 4088, kernelVmemStart + pageSize, by decide +kernel, ?_⟩
  · rintro ⟨hs, ht⟩
    obtain ⟨i, w, hi, hm, -, -, hend, -⟩ := ht.walk (by decide)
    obtain rfl : i = 0 := by
      have hcount : (onePageHeap 18).heap.numberOfChunks = 1 := rfl
      omega
    rw [hm.unique .start] at hend
    exact absurd hend (by decide +kernel)
  · exact fun hin => absurd hin.2 (by decide)

end GarbageOS
