import GarbageOS.Heap.Runs
import Mathlib.Order.Bounds.Defs

/-!
# Sizes near the end of the 64-bit range

`kmalloc` rounds a request up in 64 bits, and `split_chunk_and_alloc` keeps the
size of the rest of a chunk in an `int64_t`. Both agree with the integers except
for sizes so large that a sum or a difference wraps.
-/

namespace GarbageOS

open Lib

/-- The rounded request is the least multiple of 8 that is at least the request and 16. -/
def RoundsExactly (size : Nat) : Prop :=
  IsLeast {m | m % 8 = 0 ∧ max size 16 ≤ m} (roundRequest size)

theorem roundsExactly_iff {size : Nat} (hsize : size < 2 ^ 64) :
    RoundsExactly size ↔ size ≤ 2 ^ 64 - 8 := by
  have h16 : heapChunkMinSize = 16 := rfl
  constructor
  · rintro ⟨⟨-, hle⟩, -⟩
    -- a larger request wraps to 0
    by_contra hgt
    have hzero : roundRequest size = 0 := by
      unfold roundRequest add64
      grind
    rw [hzero] at hle
    omega
  · intro hle
    have hround : roundRequest size = (max size 16 + 7) / 8 * 8 := by
      unfold roundRequest add64
      grind
    rw [RoundsExactly, hround]
    refine ⟨⟨by omega, by omega⟩, ?_⟩
    rintro m ⟨hm, hmax⟩
    omega

section

variable {s : HeapState} {cs : List Chunk} {L : Int → List Nat} {c : Chunk} {n : Nat}

/-- `split_chunk_and_alloc` returns, and it succeeds exactly if the chunk has room for `n`
bytes and a chunk of the least size. -/
def SplitsExactly (s : HeapState) (c : Chunk) (n : Nat) : Prop :=
  ∃ b s', (splitChunkAndAlloc c.addr n).run s = .ok b s' ∧ (b = true ↔ n + 32 ≤ c.size)

/-- The remainder of the chunk is an `int64_t`, or it wraps to 8, which is refused as well. -/
def RestFits (c : Chunk) (n : Nat) : Prop :=
  (-2 ^ 63 ≤ (c.size : Int) - n - 16 ∧ (c.size : Int) - n - 16 < 2 ^ 63) ∨
    (c.size = 16 ∧ n = 2 ^ 64 - 8)

theorem not_splitsExactly_allocated (h : HeapInv s cs L) (hm : c ∈ cs) (hc : c.free = false) :
    ¬ SplitsExactly s c n := by
  rintro ⟨b, s', hrun, -⟩
  unfold splitChunkAndAlloc at hrun
  rw [run_get_bind] at hrun
  obtain ⟨hfree, -⟩ := run_kassert_bind.1 hrun
  rw [Chunk.flag_free (h.inMem c hm).header, hc] at hfree
  cases hfree

theorem splitChunkAndAlloc_eq_true {b : Bool} {s' : HeapState} (h : HeapInv s cs L) (hm : c ∈ cs)
    (hc : c.free = true) (hmod : n % 8 = 0) (hmin : 16 ≤ n)
    (hrun : (splitChunkAndAlloc c.addr n).run s = .ok b s') :
    b = true ↔ 16 ≤ ((c.size : Int) - n - 16) % 2 ^ 64 ∧
      ((c.size : Int) - n - 16) % 2 ^ 64 < 2 ^ 63 := by
  rw [run_splitChunkAndAlloc h hm hc hmod hmin] at hrun
  split at hrun
  · rename_i hlt
    rw [secondChunkSize_lt_iff] at hlt
    cases hrun
    exact ⟨nofun, fun h => absurd h hlt⟩
  · rename_i hlt
    rw [secondChunkSize_lt_iff, not_not] at hlt
    obtain ⟨_, _, -, hret⟩ := run_bind_ok.1 hrun
    cases hret
    exact ⟨fun _ => hlt, fun _ => rfl⟩

theorem splitsExactly_iff (h : HeapInv s cs L) (hm : c ∈ cs) (hn : n < 2 ^ 64) (hmod : n % 8 = 0)
    (hmin : 16 ≤ n) : SplitsExactly s c n ↔ c.free = true ∧ RestFits c n := by
  have hsize := c.fits
  have hsmall := c.size_min
  have hcmod := c.size_mod
  cases hc : c.free with
  | false => simp [not_splitsExactly_allocated h hm hc]
  | true =>
    refine ⟨?_, fun ⟨_, hfits⟩ => ?_⟩
    · rintro ⟨b, s', hrun, hb⟩
      have := splitChunkAndAlloc_eq_true h hm hc hmod hmin hrun
      rw [hb] at this
      refine ⟨rfl, ?_⟩
      unfold RestFits
      omega
    · by_cases hroom : n + 32 ≤ c.size
      · obtain ⟨pre, post, rfl⟩ := List.append_of_mem hm
        have hsplit : Splittable c n := ⟨hroom, by unfold RestFits at hfits; omega⟩
        obtain ⟨s', -, -, -, hrun, -⟩ := splitChunkAndAlloc_spec h hc hmod hmin hsplit
        exact ⟨true, s', hrun, by simp [hroom]⟩
      · refine ⟨false, s, ?_, by simp [hroom]⟩
        rw [run_splitChunkAndAlloc h hm hc hmod hmin, if_pos]
        rw [secondChunkSize_lt_iff]
        unfold RestFits at hfits
        omega

end

/-- The size arithmetic is exact for requests that do not wrap when they are rounded, and
for free chunks whose remainder is a signed 64-bit number. -/
theorem heap_sizes_exact_iff {s : HeapState} {cs : List Chunk} {L : Int → List Nat} {c : Chunk}
    {n size : Nat} (h : HeapInv s cs L) (hc : c ∈ cs) (hsize : size < 2 ^ 64) (hn : n < 2 ^ 64)
    (hmod : n % 8 = 0) (hmin : 16 ≤ n) :
    (RoundsExactly size ↔ size ≤ 2 ^ 64 - 8) ∧
      (SplitsExactly s c n ↔ c.free = true ∧ RestFits c n) :=
  ⟨roundsExactly_iff hsize, splitsExactly_iff h hc hn hmod hmin⟩

theorem smallHeap_chunk : ∃ c L, HeapInv smallHeap.sh.heap [c] L ∧
    c.free = true ∧ c.addr = kernelVmemStart + 4096 ∧ c.size = 8176 := by
  obtain ⟨-, c, L, hinv⟩ := smallHeap_starts.inv
  obtain ⟨pre, w, hcs, -, hf, haddr, hstop⟩ := hinv.exists_wilderness
  obtain ⟨rfl, rfl⟩ : pre = [] ∧ c = w := by
    cases pre with
    | nil => exact ⟨rfl, (List.cons.inj hcs).1⟩
    | cons x xs => cases xs <;> cases hcs
  have haddr' : c.addr = kernelVmemStart + 4096 := haddr.trans (by decide +kernel)
  have hend : smallHeap.sh.heap.heap.stop = kernelVmemStart + 12288 := by decide +kernel
  refine ⟨c, L, hinv, hf, haddr', ?_⟩
  rw [hend, Chunk.stop, haddr'] at hstop
  omega

theorem heap_sizes_exact_small : RoundsExactly 100 ∧ ∃ s c, SplitsExactly s c 104 := by
  obtain ⟨c, L, hinv, hf, -, hsize⟩ := smallHeap_chunk
  obtain ⟨hround, hsplit⟩ : (RoundsExactly 100 ↔ _) ∧ (SplitsExactly _ c 104 ↔ _) :=
    heap_sizes_exact_iff hinv (List.mem_singleton.2 rfl) (by decide) (by decide) (by decide)
      (by decide)
  exact ⟨hround.2 (by decide), _, c, hsplit.2 ⟨hf, .inl (by rw [hsize]; decide)⟩⟩

/-- The largest request is rounded to 0, and a request of 16 bytes less than `2^64` from
a chunk of two pages passes the test of the remainder. -/
theorem exists_wrapped_sizes : ¬ RoundsExactly (2 ^ 64 - 1) ∧ roundRequest (2 ^ 64 - 1) = 0 ∧
    ∃ s cs L c, HeapInv s cs L ∧ c ∈ cs ∧ c.free = true ∧ c.size = 8176 ∧
      ∃ s', (splitChunkAndAlloc c.addr (2 ^ 64 - 16)).run s = .ok true s' := by
  obtain ⟨c, L, hinv, hf, haddr, hsize⟩ := smallHeap_chunk
  refine ⟨fun h => ?_, by decide, _, [c], L, c, hinv, List.mem_singleton.2 rfl, hf, hsize,
    finalState ((splitChunkAndAlloc (kernelVmemStart + 4096) (2 ^ 64 - 16)).run
      smallHeap.sh.heap), ?_⟩
  · exact absurd ((roundsExactly_iff (by decide)).1 h) (by decide)
  · rw [haddr]
    exact eq_of_returned (by decide +kernel)

end GarbageOS
