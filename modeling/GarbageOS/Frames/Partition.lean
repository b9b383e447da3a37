import GarbageOS.Frames.Code
import GarbageOS.Lib.Effect
import GarbageOS.Lib.Runs
import Mathlib.Data.List.Perm.Basic
import Mathlib.Data.List.Range
import Mathlib.Data.List.Nodup

/-!
# Who owns a frame

A frame is on the frame stack, still inside a free range, or allocated. The
three together are a permutation of the frames the allocator started with:
each operation moves one frame from one list to another.
-/

namespace GarbageOS

variable {n ram : Nat} {α : Type} {f f' : FrameAllocator} {u : Unit} {k k' : Kernel}

open Lib Relation

def framesOf (r : PhysicalMemoryRange) : List Nat :=
  (List.range (r.size / pageSize)).map fun j => r.startAddress + pageSize * j

def rangeFrames (ranges : Nat → PhysicalMemoryRange) (n : Nat) : List Nat :=
  (List.range n).flatMap fun i => framesOf (ranges i)

def stackFrames (f : FrameAllocator) : List Nat :=
  (List.range (frameStackCount f.frameStack)).map fun i =>
    load f.stackMem (add64 f.frameStack.base (8 * i))

theorem mem_framesOf {r : PhysicalMemoryRange} {x : Nat} :
    x ∈ framesOf r ↔ ∃ j < r.size / pageSize, r.startAddress + pageSize * j = x := by
  simp [framesOf]

theorem mem_rangeFrames {ranges : Nat → PhysicalMemoryRange} {x : Nat} :
    x ∈ rangeFrames ranges n ↔ ∃ i < n, x ∈ framesOf (ranges i) := by
  simp [rangeFrames]

theorem framesOf_take {r : PhysicalMemoryRange} (hsize : pageSize ≤ r.size)
    (hfits : r.startAddress + r.size ≤ 2 ^ 64) :
    framesOf r = r.startAddress ::
      framesOf ⟨add64 r.startAddress pageSize, sub64 r.size pageSize⟩ := by
  simp only [framesOf, pageSize, add64, sub64] at hsize ⊢
  have hcount : r.size / 4096 = (r.size + (2 ^ 64 - 4096 % 2 ^ 64)) % 2 ^ 64 / 4096 + 1 := by omega
  rw [hcount, List.range_succ_eq_map, List.map_cons, List.map_map, Nat.mul_zero, Nat.add_zero]
  refine congrArg _ (List.map_congr_left fun j hj => ?_)
  have hj' := List.mem_range.1 hj
  simp only [Function.comp]
  omega

theorem flatMap_take {g g' : Nat → List α} {i : Nat} {x : α} (hi : g i = x :: g' i)
    (hne : ∀ j, j ≠ i → g' j = g j) {l : List Nat} (hmem : i ∈ l) (hnd : l.Nodup) :
    (l.flatMap g).Perm (x :: l.flatMap g') := by
  induction l with
  | nil => cases hmem
  | cons a l ih =>
    obtain ⟨hal, hl⟩ := List.nodup_cons.1 hnd
    rw [List.flatMap_cons, List.flatMap_cons]
    by_cases ha : a = i
    · subst ha
      have hrest : l.flatMap g' = l.flatMap g :=
        List.flatMap_congr fun b hb => hne b fun e => hal (e ▸ hb)
      rw [hi, hrest, List.cons_append]
    · rw [hne a ha]
      have hmem' : i ∈ l := (List.mem_cons.1 hmem).resolve_left fun e => ha e.symm
      exact ((ih hmem' hl).append_left _).trans List.perm_middle

theorem perm_move {x : α} {s r r' o : List α} (h : r.Perm (x :: r')) :
    (s ++ r' ++ x :: o).Perm (s ++ r ++ o) := by
  have h₁ : (s ++ r ++ o).Perm (s ++ x :: r' ++ o) := (h.append_left s).append_right o
  have h₂ : (s ++ x :: r' ++ o).Perm (x :: (s ++ r') ++ o) := List.perm_middle.append_right o
  exact List.perm_middle.trans (h₁.trans h₂).symm

/-- The state of the allocator: `owned` are the frames given out, `all` those it
started with. -/
structure FramesInv (f : FrameAllocator) (owned all : List Nat) : Prop where
  stack : ∃ c, f.frameStack.top = add64 f.frameStack.base (8 * c) ∧
    8 * c ≤ f.frameStack.maxSizeBytes
  room : f.frameStack.base + f.frameStack.maxSizeBytes ≤ 2 ^ 64 ∧
    f.frameStack.maxSizeBytes < 2 ^ 63
  ranges : ∀ i < f.numberOfRanges,
    (f.freeRanges i).startAddress + (f.freeRanges i).size ≤ 2 ^ 64
  cached : f.cachedMemoryRangeIndex < f.numberOfRanges
  perm : (stackFrames f ++ rangeFrames f.freeRanges f.numberOfRanges ++ owned).Perm all
  small : ∀ x ∈ all, x < 2 ^ 64

/-! ## What the calls do -/

section

variable {f f' : FrameAllocator} {x i : Nat} {hal : Bool} {u : Unit}

theorem frameStackSizeBytes_eq {stack : FrameStack} {c : Nat} (htop : stack.top = add64 stack.base (8 * c))
    (hc : 8 * c < 2 ^ 64) : frameStackSizeBytes stack = 8 * c := by
  unfold frameStackSizeBytes
  rw [htop]
  unfold add64 sub64
  omega

theorem frameStackCount_eq {stack : FrameStack} {c : Nat} (htop : stack.top = add64 stack.base (8 * c))
    (hc : 8 * c < 2 ^ 64) : frameStackCount stack = c := by
  rw [frameStackCount, frameStackSizeBytes_eq htop hc]
  omega

theorem sub64_add64_succ (b c : Nat) : sub64 (add64 b (8 * (c + 1))) 8 = add64 b (8 * c) := by
  unfold add64 sub64; omega

theorem add64_add64_eight (b c : Nat) : add64 (add64 b (8 * c)) 8 = add64 b (8 * (c + 1)) := by
  unfold add64; omega

/-- The allocator after the first frame of range `i` was taken. -/
def FrameAllocator.takenFrom (f : FrameAllocator) (i : Nat) : FrameAllocator :=
  setFreeRange i ⟨add64 (f.freeRanges i).startAddress pageSize, sub64 (f.freeRanges i).size pageSize⟩ f

theorem findRange_some {ranges : Nat → PhysicalMemoryRange} {test : PhysicalMemoryRange → Bool} :
    ∀ {count start i : Nat}, findRange ranges test count start = some i →
      start ≤ i ∧ i < start + count ∧ test (ranges i) = true
  | 0, _, _, h => by cases h
  | count + 1, start, i, h => by
    rw [findRange] at h
    split at h
    · cases h; exact ⟨le_refl _, by omega, ‹_›⟩
    · obtain ⟨h1, h2, h3⟩ := findRange_some h
      exact ⟨by omega, by omega, h3⟩

def isServed (hal : Bool) (range : PhysicalMemoryRange) : Bool :=
  isLargeEnough range && (hal || isUsableInBootstage range pageSize)

theorem isServed_true : isServed true = isLargeEnough := by
  funext range
  rw [isServed, Bool.true_or, Bool.and_true]

theorem isServed_false :
    isServed false = fun range => isLargeEnough range && isUsableInBootstage range pageSize := by
  funext range
  rw [isServed, Bool.false_or]

/-- The range that serves a request if the stack is empty: the cached one, or one that is found. -/
def FrameAllocator.source (hal : Bool) (f : FrameAllocator) : Option Nat :=
  if isServed hal (f.freeRanges f.cachedMemoryRangeIndex) then some f.cachedMemoryRangeIndex
  else findRange f.freeRanges (isServed hal) f.numberOfRanges 0

theorem FrameAllocator.source_some (h : f.source hal = some i) :
    (i = f.cachedMemoryRangeIndex ∨ i < f.numberOfRanges) ∧ isServed hal (f.freeRanges i) = true := by
  unfold source at h
  split at h
  · next hcached => cases h; exact ⟨.inl rfl, hcached⟩
  · obtain ⟨-, hlt, htest⟩ := findRange_some h
    exact ⟨.inr (by omega), htest⟩

theorem run_takeFreeFrame (hal : Bool) (f : FrameAllocator) :
    ∃ g : FrameAllocator, g = { f with freeFrames := sub64 f.freeFrames 1 } ∧
      (takeFreeFrame hal).run f =
        if isFrameStackValid f.frameStack then
          if frameStackCount g.frameStack > 0 then
            .ok (load g.stackMem (sub64 g.frameStack.top 8))
              (setStackTop (sub64 g.frameStack.top 8) g)
          else match g.source hal with
            | some i => .ok (g.freeRanges i).startAddress
              (({ g with cachedMemoryRangeIndex := i } : FrameAllocator).takenFrom i)
            | none => .error (.panic .frameAllocatorError) g
        else .error (.panic .frameAllocatorError) f := by
  refine ⟨_, rfl, ?_⟩
  unfold takeFreeFrame
  rw [run_get_bind]
  by_cases hvalid : isFrameStackValid f.frameStack = true
  · rw [if_pos hvalid, run_ok_bind (run_check_true hvalid), run_modify_bind, run_get_bind,
      run_get_bind, run_get_bind]
    generalize { f with freeFrames := sub64 f.freeFrames 1 } = g
    by_cases hpos : frameStackCount g.frameStack > 0
    · rw [if_pos hpos, if_pos hpos, frameStackPop, run_get_bind,
        run_ok_bind (run_check_true (decide_eq_true hpos)), run_modify_bind, run_get_bind,
        run_get_bind, EStateM.run_pure, setStackTop_stackMem, setStackTop_top]
    · rw [if_neg hpos, if_neg hpos]
      unfold FrameAllocator.source takeFrameFromNewRange
      cases hal with
      | true =>
        rw [isServed_true, if_pos rfl]
        split
        · rfl
        · rw [run_get_bind, run_get_bind]
          cases findRange g.freeRanges isLargeEnough g.numberOfRanges 0 <;> rfl
      | false =>
        rw [isServed_false, if_neg Bool.false_ne_true]
        split
        · rfl
        · rw [run_get_bind, run_get_bind]
          cases findRange g.freeRanges _ g.numberOfRanges 0 <;> rfl
  · rw [if_neg hvalid]
    exact run_bind_of_error (run_check_false (Bool.eq_false_iff.2 hvalid))

theorem run_takeFreeFrame_ok (hrun : (takeFreeFrame hal).run f = .ok x f') :
    ∃ g : FrameAllocator, g = { f with freeFrames := sub64 f.freeFrames 1 } ∧
      ((0 < frameStackCount g.frameStack ∧ x = load g.stackMem (sub64 g.frameStack.top 8) ∧
          f' = setStackTop (sub64 g.frameStack.top 8) g) ∨
        ∃ i, g.source hal = some i ∧ x = (g.freeRanges i).startAddress ∧
          f' = ({ g with cachedMemoryRangeIndex := i } : FrameAllocator).takenFrom i) := by
  obtain ⟨g, hg, heq⟩ := run_takeFreeFrame hal f
  refine ⟨g, hg, ?_⟩
  rw [hrun] at heq
  split at heq
  · split at heq
    · next hpos =>
      cases heq
      exact .inl ⟨hpos, rfl, rfl⟩
    · split at heq
      · next i hi =>
        cases heq
        exact .inr ⟨i, hi, rfl, rfl⟩
      · cases heq
  · cases heq

def FrameAllocator.pushed (f : FrameAllocator) (x : Nat) : FrameAllocator :=
  setStackTop (add64 f.frameStack.top 8)
    { f with freeFrames := add64 f.freeFrames 1, stackMem := store f.stackMem f.frameStack.top x }

theorem run_putFreeFrame (x : Nat) (f : FrameAllocator) : (putFreeFrame x).run f =
    if add64 (frameStackSizeBytes f.frameStack) 8 ≤ f.frameStack.maxSizeBytes then
      .ok () (f.pushed x)
    else .error (.panic .frameAllocatorError) { f with freeFrames := add64 f.freeFrames 1 } := by
  unfold putFreeFrame frameStackPush
  rw [run_modify_bind, run_get_bind]
  split
  · next hfits => rw [run_ok_bind (run_check_true (decide_eq_true hfits))]; rfl
  · next hfull => exact run_bind_of_error (run_check_false (decide_eq_false hfull))

theorem run_putFreeFrame_ok (hrun : (putFreeFrame x).run f = .ok u f') :
    add64 (frameStackSizeBytes f.frameStack) 8 ≤ f.frameStack.maxSizeBytes ∧ f' = f.pushed x := by
  rw [run_putFreeFrame] at hrun
  split at hrun
  · next hfits => cases hrun; exact ⟨hfits, rfl⟩
  · cases hrun

end

/-! ## The invariant -/

section

variable {f f' : FrameAllocator} {owned all : List Nat} {x i : Nat}

theorem FramesInv.count_eq (h : FramesInv f owned all) {c : Nat}
    (hc : f.frameStack.top = add64 f.frameStack.base (8 * c))
    (hmax : 8 * c ≤ f.frameStack.maxSizeBytes) : frameStackCount f.frameStack = c :=
  frameStackCount_eq hc (by have := h.room; omega)

theorem FramesInv.set_freeFrames (h : FramesInv f owned all) (n : Nat) :
    FramesInv { f with freeFrames := n } owned all :=
  { h with }

theorem FramesInv.takenFrom (h : FramesInv f owned all) (hi : i < f.numberOfRanges)
    (hsize : pageSize ≤ (f.freeRanges i).size) :
    FramesInv (f.takenFrom i) ((f.freeRanges i).startAddress :: owned) all := by
  have hfits := h.ranges i hi
  refine ⟨h.stack, h.room, fun j hj => ?_, h.cached, ?_, h.small⟩
  · have hpage : pageSize = 4096 := rfl
    have := h.ranges j hj
    simp only [FrameAllocator.takenFrom, setFreeRange]
    split
    · simp only [add64, sub64]; omega
    · exact this
  · have hperm : (rangeFrames f.freeRanges f.numberOfRanges).Perm
        ((f.freeRanges i).startAddress :: rangeFrames (f.takenFrom i).freeRanges f.numberOfRanges) := by
      refine flatMap_take (i := i) ?_ (fun j hj => ?_) (List.mem_range.2 hi) List.nodup_range
      · simpa [FrameAllocator.takenFrom, setFreeRange] using framesOf_take hsize hfits
      · simp [FrameAllocator.takenFrom, setFreeRange, hj]
    exact (perm_move hperm).trans h.perm

section

variable (h : FramesInv f owned all)

include h

/-- The invariant with another stack: what the stack holds is all that has to be shown. -/
theorem FramesInv.set_stack {owned' : List Nat} {c top : Nat} {m : Mem}
    (htop : top = add64 f.frameStack.base (8 * c)) (hmax : 8 * c ≤ f.frameStack.maxSizeBytes)
    (hperm : ((List.range c).map (fun i => load m (add64 f.frameStack.base (8 * i))) ++ owned').Perm
      (stackFrames f ++ owned)) :
    FramesInv (setStackTop top { f with stackMem := m }) owned' all := by
  have hroom := h.room
  have hcount : frameStackCount (setStackTop top { f with stackMem := m }).frameStack = c :=
    frameStackCount_eq htop (by omega)
  refine ⟨⟨c, htop, hmax⟩, h.room, h.ranges, h.cached, ?_, h.small⟩
  refine List.Perm.trans ?_ h.perm
  rw [stackFrames, hcount]
  -- the ranges stand between the two lists
  refine List.Perm.trans (List.perm_append_right_iff _ |>.2 List.perm_append_comm) ?_
  refine List.Perm.trans ?_ (List.perm_append_right_iff _ |>.2 List.perm_append_comm)
  rw [List.append_assoc, List.append_assoc]
  exact hperm.append_left _

theorem FramesInv.pop {c top : Nat} (hcount : frameStackCount f.frameStack = c + 1)
    (htop : top = add64 f.frameStack.base (8 * c)) (hle : 8 * c ≤ f.frameStack.maxSizeBytes) :
    FramesInv (setStackTop top f) (load f.stackMem top :: owned) all := by
  refine h.set_stack htop hle ?_
  rw [stackFrames, hcount, List.range_succ, List.map_append, List.map_cons, List.map_nil,
    List.append_assoc, ← htop]
  exact .refl _

theorem takeFreeFrame_inv {hal : Bool} (hrun : (takeFreeFrame hal).run f = .ok x f') :
    FramesInv f' (x :: owned) all := by
  obtain ⟨g, hg, hcases⟩ := run_takeFreeFrame_ok hrun
  replace h : FramesInv g owned all := hg ▸ h.set_freeFrames _
  rcases hcases with ⟨hpos, rfl, rfl⟩ | ⟨i, hi, rfl, rfl⟩
  · obtain ⟨c, hc, hmax⟩ := h.stack
    have hcount := h.count_eq hc hmax
    rw [hcount] at hpos
    obtain ⟨c, rfl⟩ := Nat.exists_eq_add_one.2 hpos
    have hle : 8 * c ≤ g.frameStack.maxSizeBytes :=
      (Nat.mul_le_mul_left 8 (Nat.le_succ c)).trans hmax
    have htop : sub64 g.frameStack.top 8 = add64 g.frameStack.base (8 * c) := by
      rw [hc]
      exact sub64_add64_succ _ _
    exact h.pop hcount htop hle
  · obtain ⟨hin, hserved⟩ := FrameAllocator.source_some hi
    have hlt : i < g.numberOfRanges := hin.elim (fun he => he ▸ h.cached) id
    have h' : FramesInv { g with cachedMemoryRangeIndex := i } owned all :=
      { h with cached := hlt }
    exact h'.takenFrom hlt (of_decide_eq_true (Bool.and_eq_true_iff.1 hserved).1)

theorem putFreeFrame_inv {u : Unit} (hx : x ∈ owned) (hrun : (putFreeFrame x).run f = .ok u f') :
    FramesInv f' (owned.erase x) all := by
  obtain ⟨c, hc, hmax⟩ := h.stack
  have hcount := h.count_eq hc hmax
  have hroom := h.room
  have hlt : x < 2 ^ 64 := h.small x (h.perm.subset (List.mem_append_right _ hx))
  obtain ⟨hfits, rfl⟩ := run_putFreeFrame_ok hrun
  unfold FrameAllocator.pushed
  rw [frameStackSizeBytes_eq hc (by omega), add64_eq (by omega)] at hfits
  have htop : add64 f.frameStack.top 8 = add64 f.frameStack.base (8 * (c + 1)) := by
    rw [hc]
    exact add64_add64_eight _ _
  refine (h.set_freeFrames (add64 f.freeFrames 1)).set_stack htop hfits ?_
  have hold : (List.range c).map (fun i => load (store f.stackMem f.frameStack.top x)
      (add64 f.frameStack.base (8 * i))) = stackFrames f := by
    rw [stackFrames, hcount]
    refine List.map_congr_left fun i hi => load_store_ne ?_
    have := List.mem_range.1 hi
    rw [hc]; unfold add64; omega
  rw [List.range_succ, List.map_append, List.map_cons, List.map_nil]
  change ((List.range c).map (fun i => load (store f.stackMem f.frameStack.top x)
    (add64 f.frameStack.base (8 * i))) ++ [load (store f.stackMem f.frameStack.top x)
    (add64 f.frameStack.base (8 * c))] ++ owned.erase x).Perm (stackFrames f ++ owned)
  rw [hold, ← hc, load_store_same hlt, List.append_assoc]
  exact (List.perm_cons_erase hx).symm.append_left _

end

end

/-! ## Starting -/

def PhysicalMemoryRange.Contains (r : PhysicalMemoryRange) (x : Nat) : Prop :=
  r.startAddress ≤ x ∧ x < r.startAddress + r.size

instance (r : PhysicalMemoryRange) (x : Nat) : Decidable (r.Contains x) :=
  inferInstanceAs (Decidable (_ ∧ _))

/-- Page-aligned ranges of 64-bit addresses, no two of which share an address. -/
structure FreeRanges (ranges : Nat → PhysicalMemoryRange) (n : Nat) : Prop where
  aligned : ∀ i < n, (ranges i).startAddress % pageSize = 0 ∧ (ranges i).size % pageSize = 0
  word : ∀ i < n, (ranges i).startAddress < 2 ^ 64 ∧ (ranges i).size < 2 ^ 64
  fits : ∀ i < n, (ranges i).startAddress + (ranges i).size ≤ 2 ^ 64
  disjoint : ∀ i < n, ∀ j < n, i ≠ j → ∀ x, ¬ ((ranges i).Contains x ∧ (ranges j).Contains x)

theorem contains_of_mem_framesOf {r : PhysicalMemoryRange} {x : Nat} (h : x ∈ framesOf r) :
    r.Contains x := by
  obtain ⟨j, hj, rfl⟩ := mem_framesOf.1 h
  simp only [pageSize] at hj
  show _ ∧ _
  simp only [pageSize]
  omega

theorem nodup_framesOf (r : PhysicalMemoryRange) : (framesOf r).Nodup := by
  refine List.Nodup.map (fun a b h => ?_) List.nodup_range
  simp only [pageSize] at h
  omega

/-- No frame lies in two of the ranges, whatever was cut off their starts. -/
theorem nodup_rangeFrames {ranges : Nat → PhysicalMemoryRange}
    (h : ∀ i < n, ∀ j < n, i ≠ j → ∀ x, x ∈ framesOf (ranges i) → x ∉ framesOf (ranges j)) :
    (rangeFrames ranges n).Nodup := by
  refine List.nodup_flatMap.2 ⟨fun i _ => nodup_framesOf _, ?_⟩
  refine List.nodup_range.imp_of_mem fun hi hj hne x hxi hxj => ?_
  exact h _ (List.mem_range.1 hi) _ (List.mem_range.1 hj) hne x hxi hxj

/-- The frames that are left when `needed` bytes are cut off the start of a range. -/
theorem mem_framesOf_cut {r : PhysicalMemoryRange} {needed x : Nat} (hsize : needed ≤ r.size)
    (hneeded : needed % pageSize = 0) (hfits : r.startAddress + r.size ≤ 2 ^ 64)
    (hlt : r.size < 2 ^ 64) :
    x ∈ framesOf ⟨add64 r.startAddress needed, sub64 r.size needed⟩ ↔
      x ∈ framesOf r ∧ r.startAddress + needed ≤ x := by
  rw [mem_framesOf, mem_framesOf]
  simp only [pageSize, add64, sub64] at hneeded ⊢
  constructor
  · rintro ⟨j, hj, rfl⟩
    refine ⟨⟨j + needed / 4096, ?_, ?_⟩, ?_⟩ <;> omega
  · rintro ⟨⟨j, hj, rfl⟩, hx⟩
    refine ⟨j - needed / 4096, ?_, ?_⟩ <;> omega

theorem neededBytesStackFrame_spec (h : ram < 2 ^ 64) :
    neededBytesStackFrame ram % pageSize = 0 ∧ neededBytesStackFrame ram < 2 ^ 63 := by
  simp only [neededBytesStackFrame, pageSize, add64]
  omega

/-- The allocator after `init_frame_allocator`: the frame stack is empty and lies
at the start of one of the ranges, which begins after it from now on. -/
structure Started (ranges : Nat → PhysicalMemoryRange) (n : Nat) (f : FrameAllocator) (i : Nat) :
    Prop where
  index : i < n
  large : f.frameStack.maxSizeBytes ≤ (ranges i).size
  base : f.frameStack.base = (ranges i).startAddress
  top : f.frameStack.top = f.frameStack.base
  pages : f.frameStack.maxSizeBytes % pageSize = 0
  small : f.frameStack.maxSizeBytes < 2 ^ 63
  count : f.numberOfRanges = n
  cached : f.cachedMemoryRangeIndex = i
  cut : f.freeRanges i = ⟨add64 (ranges i).startAddress f.frameStack.maxSizeBytes,
    sub64 (ranges i).size f.frameStack.maxSizeBytes⟩
  others : ∀ j, j ≠ i → f.freeRanges j = ranges j

/-- The allocator after `needed` bytes were carved from range `i` for the frame stack. -/
def FrameAllocator.startedFrom (f : FrameAllocator) (ranges : Nat → PhysicalMemoryRange)
    (n needed i : Nat) : FrameAllocator :=
  let g := setFreeRange i
    ⟨add64 (ranges i).startAddress needed, sub64 (ranges i).size needed⟩
    { f with
      freeRanges := ranges, numberOfRanges := n, cachedMemoryRangeIndex := i
      frameStack := makeFrameStack (ranges i).startAddress needed }
  { g with
    freeFrames := (List.range n).foldl
      (fun n i => add64 n ((g.freeRanges i).size / pageSize)) f.freeFrames }

theorem run_initFrameAllocator_ok {ranges : Nat → PhysicalMemoryRange}
    (hrun : (initFrameAllocator ranges n ram).run f = .ok u f') :
    ∃ i < n, neededBytesStackFrame ram ≤ (ranges i).size ∧
      isUsableInBootstage (ranges i) (neededBytesStackFrame ram) = true ∧
      f' = f.startedFrom ranges n (neededBytesStackFrame ram) i := by
  unfold initFrameAllocator at hrun
  rw [run_modify_bind] at hrun
  generalize neededBytesStackFrame ram = needed at hrun ⊢
  simp only at hrun
  split at hrun
  · next i hi =>
    obtain ⟨-, hlt, htest⟩ := findRange_some hi
    obtain ⟨hlarge, husable⟩ := Bool.and_eq_true_iff.1 htest
    rw [run_modify_bind, run_modify_bind, EStateM.run_modify] at hrun
    cases hrun
    exact ⟨i, by omega, of_decide_eq_true hlarge, husable, rfl⟩
  · exact (run_kpanic_ok.1 hrun).elim

theorem initFrameAllocator_started {ranges : Nat → PhysicalMemoryRange} (hram : ram < 2 ^ 64)
    (hrun : (initFrameAllocator ranges n ram).run f = .ok u f') : ∃ i, Started ranges n f' i := by
  obtain ⟨hpages, hsmall⟩ := neededBytesStackFrame_spec hram
  obtain ⟨i, hlt, hlarge, -, rfl⟩ := run_initFrameAllocator_ok hrun
  exact ⟨i, hlt, hlarge, rfl, rfl, hpages, hsmall, rfl, rfl, if_pos rfl, fun j hj => if_neg hj⟩

section

variable {ranges : Nat → PhysicalMemoryRange} {n i : Nat} {f : FrameAllocator}

/-- What is in the ranges after the start: the frames of the ranges without the
pages of the frame stack. -/
theorem Started.mem_rangeFrames (h : Started ranges n f i) (hr : FreeRanges ranges n) {x : Nat} :
    x ∈ rangeFrames f.freeRanges n ↔ x ∈ rangeFrames ranges n ∧
      ¬ (f.frameStack.base ≤ x ∧ x < f.frameStack.base + f.frameStack.maxSizeBytes) := by
  have hcut : ∀ x, x ∈ framesOf (f.freeRanges i) ↔ x ∈ framesOf (ranges i) ∧
      (ranges i).startAddress + f.frameStack.maxSizeBytes ≤ x := by
    intro x
    rw [h.cut]
    exact mem_framesOf_cut h.large h.pages (hr.fits i h.index) (hr.word i h.index).2
  have hlarge := h.large
  rw [GarbageOS.mem_rangeFrames, GarbageOS.mem_rangeFrames, h.base]
  constructor
  · rintro ⟨j, hj, hx⟩
    by_cases hji : j = i
    · subst hji
      obtain ⟨hx, hle⟩ := (hcut x).1 hx
      exact ⟨⟨j, hj, hx⟩, by omega⟩
    · rw [h.others j hji] at hx
      refine ⟨⟨j, hj, hx⟩, fun hstack => ?_⟩
      exact hr.disjoint j hj i h.index hji x
        ⟨contains_of_mem_framesOf hx, hstack.1, by omega⟩
  · rintro ⟨⟨j, hj, hx⟩, hstack⟩
    refine ⟨j, hj, ?_⟩
    by_cases hji : j = i
    · subst hji
      have := (contains_of_mem_framesOf hx).1
      exact (hcut x).2 ⟨hx, by omega⟩
    · rw [h.others j hji]
      exact hx

theorem Started.inv (h : Started ranges n f i) (hr : FreeRanges ranges n) :
    FramesInv f [] (rangeFrames f.freeRanges n) := by
  have hword := hr.word i h.index
  have hfits := hr.fits i h.index
  have hlarge := h.large
  have hcount : frameStackCount f.frameStack = 0 := by
    unfold frameStackCount frameStackSizeBytes
    rw [h.top, h.base, sub64_eq (le_refl _) hword.1, Nat.sub_self]
  refine ⟨⟨0, ?_, Nat.zero_le _⟩, ⟨?_, h.small⟩, fun j hj => ?_, ?_, ?_, fun x hx => ?_⟩
  · rw [h.top, h.base, Nat.mul_zero, add64_eq (by omega), Nat.add_zero]
  · rw [h.base]; omega
  · rw [h.count] at hj
    by_cases hji : j = i
    · rw [hji, h.cut]
      simp only [add64, sub64]
      omega
    · rw [h.others j hji]
      exact hr.fits j hj
  · rw [h.cached, h.count]
    exact h.index
  · rw [stackFrames, hcount, h.count]
    simp
  · obtain ⟨j, hj, hx⟩ := GarbageOS.mem_rangeFrames.1 ((h.mem_rangeFrames hr).1 hx).1
    have := (contains_of_mem_framesOf hx).2
    have := hr.fits j hj
    omega

theorem Started.nodup (h : Started ranges n f i) (hr : FreeRanges ranges n) :
    (rangeFrames f.freeRanges n).Nodup := by
  have hsub : ∀ j < n, ∀ x ∈ framesOf (f.freeRanges j), x ∈ framesOf (ranges j) := by
    intro j hj x hx
    by_cases hji : j = i
    · rw [hji, h.cut, mem_framesOf_cut h.large h.pages (hr.fits i h.index) (hr.word i h.index).2] at hx
      rw [hji]
      exact hx.1
    · rwa [h.others j hji] at hx
  refine nodup_rangeFrames fun a ha b hb hab x hxa hxb => ?_
  exact hr.disjoint a ha b hb hab x ⟨contains_of_mem_framesOf (hsub a ha x hxa),
    contains_of_mem_framesOf (hsub b hb x hxb)⟩

end

/-! ## Where the frame stack lies -/

structure StackStays (f f' : FrameAllocator) : Prop where
  base : f'.frameStack.base = f.frameStack.base
  max : f'.frameStack.maxSizeBytes = f.frameStack.maxSizeBytes

instance : IsPreorder FrameAllocator StackStays where
  refl _ := ⟨rfl, rfl⟩
  trans _ _ _ h₁ h₂ := ⟨h₂.base.trans h₁.base, h₂.max.trans h₁.max⟩

theorem stays_takeFreeFrame {hal : Bool} {x : Nat} (hrun : (takeFreeFrame hal).run f = .ok x f') :
    StackStays f f' := by
  obtain ⟨g, rfl, ⟨-, -, rfl⟩ | ⟨i, -, -, rfl⟩⟩ := run_takeFreeFrame_ok hrun
  · exact ⟨setStackTop_base _ _, setStackTop_maxSizeBytes _ _⟩
  · exact ⟨rfl, rfl⟩

theorem stays_putFreeFrame {x : Nat} (hrun : (putFreeFrame x).run f = .ok u f') :
    StackStays f f' := by
  obtain ⟨-, rfl⟩ := run_putFreeFrame_ok hrun
  exact ⟨setStackTop_base _ _, setStackTop_maxSizeBytes _ _⟩

/-! ## Runs of the allocator -/

theorem run_onFrames_ok {x : FrameM α} {a : α} :
    (onFrames x).run k = .ok a k' ↔
      ∃ f, x.run k.sh.frames = .ok a f ∧ k' = { k with sh := { k.sh with frames := f } } :=
  run_zoom_ok

theorem run_lockedFrames_ok {x : KM α} {a : α} {y : FrameM α}
    (hx : x.run (k.locked .frameAllocator) = (onFrames y).run (k.locked .frameAllocator))
    (h : (withLock .frameAllocator x).run k = .ok a k') :
    y.run k.sh.frames = .ok a k'.sh.frames := by
  obtain ⟨_, t, ht, rfl⟩ := run_withLock_ok.1 h
  rw [hx] at ht
  obtain ⟨f, hf, rfl⟩ := run_onFrames_ok.1 ht
  exact hf

theorem run_allocFrame_ok {x : Nat} (h : allocFrame.run k = .ok x k') :
    (takeFreeFrame k.sh.halArchInitialized).run k.sh.frames = .ok x k'.sh.frames := by
  unfold allocFrame at h
  obtain ⟨y, t, hy, hcheck⟩ := run_bind_ok.1 h
  obtain ⟨-, hpure⟩ := run_check_bind.1 hcheck
  rw [EStateM.run_pure] at hpure
  cases hpure
  exact run_lockedFrames_ok run_get_bind hy

theorem run_deallocFrame_ok {x : Nat} (h : (deallocFrame x).run k = .ok u k') :
    (putFreeFrame x).run k.sh.frames = .ok u k'.sh.frames := by
  unfold deallocFrame at h
  rw [run_modifyCpu_bind] at h
  have hput := run_lockedFrames_ok rfl h
  exact hput

/-- The kernel and the frames that are allocated at the moment. -/
structure FrameClient where
  kernel : Kernel
  owned : List Nat

/-- A call of the allocator that returns, or anything that does not touch it. -/
inductive FrameStep : FrameClient → FrameClient → Prop where
  | alloc {k k' : Kernel} {owned : List Nat} {x : Nat} :
      allocFrame.run k = .ok x k' → FrameStep ⟨k, owned⟩ ⟨k', x :: owned⟩
  | dealloc {k k' : Kernel} {owned : List Nat} {x : Nat} {u : Unit} :
      x ∈ owned → (deallocFrame x).run k = .ok u k' → FrameStep ⟨k, owned⟩ ⟨k', owned.erase x⟩
  | other {k k' : Kernel} {owned : List Nat} :
      k'.sh.frames = k.sh.frames → FrameStep ⟨k, owned⟩ ⟨k', owned⟩

theorem FrameStep.inv {c c' : FrameClient} {all : List Nat} (h : FrameStep c c')
    (hinv : FramesInv c.kernel.sh.frames c.owned all) :
    FramesInv c'.kernel.sh.frames c'.owned all ∧
      StackStays c.kernel.sh.frames c'.kernel.sh.frames := by
  cases h with
  | alloc hrun =>
    have htake := run_allocFrame_ok hrun
    exact ⟨takeFreeFrame_inv hinv htake, stays_takeFreeFrame htake⟩
  | dealloc hmem hrun =>
    have hput := run_deallocFrame_ok hrun
    exact ⟨putFreeFrame_inv hinv hmem hput, stays_putFreeFrame hput⟩
  | other hsame =>
    simp only at hinv ⊢
    rw [hsame]
    exact ⟨hinv, rfl, rfl⟩

theorem frames_inv_of_run {c c' : FrameClient} {all : List Nat} (hrun : ReflTransGen FrameStep c c')
    (hinv : FramesInv c.kernel.sh.frames c.owned all) :
    FramesInv c'.kernel.sh.frames c'.owned all ∧
      StackStays c.kernel.sh.frames c'.kernel.sh.frames := by
  refine @invariant_of_steps _ _ (fun d => FramesInv d.kernel.sh.frames d.owned all ∧
    StackStays c.kernel.sh.frames d.kernel.sh.frames) (fun d e hstep hd => ?_) _ _ hrun
    ⟨hinv, refl_of _ _⟩
  obtain ⟨he, hstays⟩ := hstep.inv hd.1
  exact ⟨he, trans_of _ hd.2 hstays⟩

/-- The frames of the allocator: on the stack, inside a range, or given out. -/
def FrameClient.frames (c : FrameClient) : List Nat :=
  stackFrames c.kernel.sh.frames ++
    rangeFrames c.kernel.sh.frames.freeRanges c.kernel.sh.frames.numberOfRanges ++ c.owned

/-- Every frame of the ranges outside the frame stack is in exactly one of the
three places, and only those frames are. -/
theorem frame_partition {ranges : Nat → PhysicalMemoryRange} {n ram : Nat} {k k₀ : Kernel}
    {c : FrameClient} (hr : FreeRanges ranges n) (hram : ram < 2 ^ 64)
    (hinit : (onFrames (initFrameAllocator ranges n ram)).run k = .ok () k₀)
    (hrun : ReflTransGen FrameStep ⟨k₀, []⟩ c) :
    c.frames.Nodup ∧
    (∀ x, x ∈ c.frames ↔ x ∈ rangeFrames ranges n ∧
      ¬ (c.kernel.sh.frames.frameStack.base ≤ x ∧
        x < c.kernel.sh.frames.frameStack.base + c.kernel.sh.frames.frameStack.maxSizeBytes)) ∧
    ∀ x ∈ c.owned, x + pageSize ≤ c.kernel.sh.frames.frameStack.base ∨
      c.kernel.sh.frames.frameStack.base + c.kernel.sh.frames.frameStack.maxSizeBytes ≤ x := by
  obtain ⟨f, hf, rfl⟩ := run_onFrames_ok.1 hinit
  obtain ⟨i, hs⟩ := initFrameAllocator_started hram hf
  obtain ⟨hinv, hstays⟩ := frames_inv_of_run hrun (hs.inv hr)
  have hmem : ∀ x, x ∈ c.frames ↔ x ∈ rangeFrames ranges n ∧
      ¬ (f.frameStack.base ≤ x ∧ x < f.frameStack.base + f.frameStack.maxSizeBytes) :=
    fun x => hinv.perm.mem_iff.trans (hs.mem_rangeFrames hr)
  refine ⟨hinv.perm.nodup_iff.2 (hs.nodup hr), ?_⟩
  rw [hstays.base, hstays.max]
  refine ⟨hmem, fun x hx => ?_⟩
  obtain ⟨hin, hout⟩ := (hmem x).1 (List.mem_append_right _ hx)
  -- a frame and the frame stack start at page boundaries
  obtain ⟨j, hj, hin⟩ := GarbageOS.mem_rangeFrames.1 hin
  obtain ⟨m, hm, rfl⟩ := mem_framesOf.1 hin
  have hbase : f.frameStack.base % pageSize = 0 := by rw [hs.base]; exact (hr.aligned i hs.index).1
  have hpages := hs.pages
  have halign := (hr.aligned j hj).1
  simp only [pageSize] at hout hbase hpages halign ⊢
  omega

def oneRange : Nat → PhysicalMemoryRange := fun _ => ⟨MB, MB⟩

theorem oneRange_free : FreeRanges oneRange 1 where
  aligned _ _ := show MB % pageSize = 0 ∧ MB % pageSize = 0 by decide
  word _ _ := show MB < 2 ^ 64 ∧ MB < 2 ^ 64 by decide
  fits _ _ := show MB + MB ≤ 2 ^ 64 by decide
  disjoint i hi j hj hne := by omega

def startedKernel : Kernel :=
  finalState ((onFrames (initFrameAllocator oneRange 1 MB)).run staticKernel)

theorem startedKernel_run :
    (onFrames (initFrameAllocator oneRange 1 MB)).run staticKernel = .ok () startedKernel :=
  eq_of_returned (by decide +kernel)

def oneAllocated : Kernel := finalState (allocFrame.run startedKernel)

theorem oneAllocated_run : allocFrame.run startedKernel = .ok (MB + 2 * pageSize) oneAllocated :=
  eq_of_returned (by decide +kernel)

theorem frame_partition_after_alloc :
    ∃ c : FrameClient, c.owned = [MB + 2 * pageSize] ∧ c.frames.Nodup :=
  ⟨_, rfl, (frame_partition oneRange_free (by decide) startedKernel_run
    (.single (.alloc oneAllocated_run))).1⟩

end GarbageOS
