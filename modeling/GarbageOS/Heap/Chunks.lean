import GarbageOS.Heap.Code
import GarbageOS.Lib.Tiling

/-!
# Chunks

`Chunk` is what the header and the footer of a well-formed chunk say. Under
`load m c.addr = c.word` the accessors of `heap.c` read the fields of `c`, so
proofs about the code compute with chunks and never with masks.
-/

namespace GarbageOS

open Lib

@[ext] structure Chunk where
  addr : Nat
  size : Nat
  free : Bool
  wild : Bool
  addr_pos : 0 < addr
  addr_mod : addr % 8 = 0
  size_mod : size % 8 = 0
  size_min : 16 ≤ size
  fits : addr + 8 + size + 8 < 2 ^ 64
  deriving DecidableEq

namespace Chunk

def stop (c : Chunk) : Nat := c.addr + 8 + c.size + 8

def footerAddr (c : Chunk) : Nat := c.addr + 8 + c.size

/-- The header: the size with the flags in its low bits. -/
def word (c : Chunk) : Nat := c.size + c.free.toNat + 2 * c.wild.toNat

def bucket (c : Chunk) : Int := if c.wild then 127 else getBucketIndexFromSize c.size

structure InMem (c : Chunk) (m : Mem) : Prop where
  header : load m c.addr = c.word
  footer : load m c.footerAddr = c.size

theorem addr_le_stop (c : Chunk) : c.addr + 32 ≤ c.stop := by
  have := c.size_min; unfold stop; omega

theorem footer_bounds (c : Chunk) : c.addr + 24 ≤ c.footerAddr ∧ c.footerAddr + 8 = c.stop := by
  have := c.size_min; unfold stop footerAddr; omega

theorem word_lt (c : Chunk) : c.word < 2 ^ 64 := by
  have := c.fits; have := c.free.toNat_le; have := c.wild.toNat_le; unfold word; omega

theorem word_mod_two (c : Chunk) : c.word % 2 = c.free.toNat := by
  have := c.size_mod; have := c.free.toNat_le; unfold word; omega

theorem word_flag (c : Chunk) : c.word / 2 % 2 = c.wild.toNat := by
  have := c.size_mod; have := c.free.toNat_le; have := c.wild.toNat_le; unfold word; omega

theorem word_size (c : Chunk) : c.word - c.word % 8 = c.size := by
  have := c.size_mod; have := c.free.toNat_le; have := c.wild.toNat_le; unfold word; omega

theorem InMem.congr {c : Chunk} {m m' : Mem} (h : c.InMem m) (h1 : m' c.addr = m c.addr)
    (h2 : m' c.footerAddr = m c.footerAddr) : c.InMem m' := by
  constructor
  · rw [← h.header, load, load, h1]
  · rw [← h.footer, load, load, h2]

section Read

variable {c : Chunk} {m : Mem}

section

variable (h : load m c.addr = c.word)

include h

theorem size_eq : getFixedHeapChunkSize m c.addr = c.size := by
  rw [getFixedHeapChunkSize, h, and_not_seven c.word_lt, c.word_size]

theorem flag_free : getHeapChunkFlag m c.addr heapFreeChunk = c.free := by
  rw [getHeapChunkFlag, h, heapFreeChunk, Nat.and_one_is_mod, c.word_mod_two]
  cases c.free <;> rfl

theorem flag_wild : getHeapChunkFlag m c.addr heapWildernessChunk = c.wild := by
  rw [getHeapChunkFlag, h, heapWildernessChunk, and_two, c.word_flag]
  cases c.wild <;> rfl

theorem isLast_eq :
    isLastChunkOfHeap m c.addr = c.wild := flag_wild h

theorem next_eq : getNextHeapChunkHeader m c.addr = c.stop := by
  have := c.fits
  rw [getNextHeapChunkHeader, size_eq h]
  unfold add64 stop
  omega

theorem footer_eq : getHeapChunkFooterFromHeader m c.addr = c.footerAddr := by
  have := c.fits
  rw [getHeapChunkFooterFromHeader, size_eq h]
  unfold add64 footerAddr
  omega

theorem bucket_eq : getBucketIndexFromHeader m c.addr = c.bucket := by
  rw [getBucketIndexFromHeader, flag_wild h, size_eq h, bucket]
  rfl

end

theorem prev_eq (h : load m c.footerAddr = c.size) : getPrevHeapChunkHeader m c.stop = c.addr := by
  have hfits := c.fits
  have hmod := c.size_mod
  have hfooter : sub64 c.stop 8 = c.footerAddr := by
    rw [stop, sub64_eq (by omega) hfits, footerAddr]; omega
  rw [getPrevHeapChunkHeader, getHeapChunkHeaderFromFooter, getFixedHeapChunkSizeFromFooter,
    hfooter, h, and_not_seven (by omega)]
  unfold sub64 footerAddr
  omega

theorem not_isHeapChunkCorrupted (h : c.InMem m) : isHeapChunkCorrupted m c.addr = false := by
  have hfits := c.fits
  have hmod := c.size_mod
  have hmin := c.size_min
  have h7 : c.size &&& 7 = 0 := by
    rw [show 7 = 2 ^ 3 - 1 from rfl, Nat.and_two_pow_sub_one_eq_mod]; omega
  have hfooter : getFixedHeapChunkSizeFromFooter m c.footerAddr = c.size := by
    rw [getFixedHeapChunkSizeFromFooter, h.footer, and_not_seven (by omega)]; omega
  simp [isHeapChunkCorrupted, footer_eq h.header,
    size_eq h.header, hfooter, h.footer, h7, heapChunkMinSize, hmin]

theorem ofUserData_eq : getHeapChunkFromUserData (c.addr + 8) = c.addr := by
  have := c.fits
  rw [getHeapChunkFromUserData, sub64_eq (by omega) (by omega)]
  omega

theorem userData_eq : getHeapChunkUserData c.addr = c.addr + 8 := by
  have := c.fits
  rw [getHeapChunkUserData, add64_eq (by omega)]

end Read

theorem getBucketIndexFromSize_range {size : Nat} (h : 16 ≤ size) :
    1 ≤ getBucketIndexFromSize size ∧ getBucketIndexFromSize size < 128 := by
  have hcount : ((bucketsCount : Nat) : Int) = 128 := rfl
  simp only [getBucketIndexFromSize]
  grind

theorem bucket_range (c : Chunk) : 0 ≤ c.bucket ∧ c.bucket < 128 := by
  have := getBucketIndexFromSize_range c.size_min
  unfold bucket
  split <;> omega

end Chunk

/-- Chunks in address order from `a` to `e`. -/
abbrev ChunkTiles (a : Nat) (cs : List Chunk) (e : Nat) : Prop := Tiles Chunk.addr Chunk.stop a cs e

theorem ChunkTiles.apart {a e : Nat} {cs : List Chunk} (h : ChunkTiles a cs e) {c d : Chunk}
    (hc : c ∈ cs) (hd : d ∈ cs) : c = d ∨ c.stop ≤ d.addr ∨ d.stop ≤ c.addr :=
  Tiles.apart h (fun x _ => by have := x.addr_le_stop; omega) hc hd

theorem ChunkTiles.around {a e : Nat} {xs ys : List Chunk} {x : Chunk}
    (h : ChunkTiles a (xs ++ x :: ys) e) :
    (∀ y ∈ xs, y.stop ≤ x.addr) ∧ ∀ y ∈ ys, x.stop ≤ y.addr :=
  Tiles.around h fun y _ => by have := y.addr_le_stop; omega

theorem ChunkTiles.bounds {a e : Nat} {cs : List Chunk} (h : ChunkTiles a cs e) :
    a ≤ e ∧ ∀ c ∈ cs, a ≤ c.addr ∧ c.stop ≤ e :=
  Tiles.bounds h fun y _ => by have := y.addr_le_stop; omega

end GarbageOS
