import GarbageOS.Console.Screen
import Mathlib.Tactic.ByContra

/-!
# `vbe.c`: pixels in the frame buffer

`init_frame_buffer` maps as many bytes as the pixels of the mode have, and
`write_pixels_vbe_display` copies pixels there. Both take the lines of the screen for contiguous,
although the mode has a pitch, and with 32 bits per pixel the whole screen is copied, however many
pixels are given.

The products of the width, the height and the pixel size are products of `int`: where they
overflow, what the code does is undefined, and the model stops.
-/

namespace GarbageOS

open Lib

inductive VbeStop where
  | panic (code : ErrorCode)
  | overflow

/-- The mode as the firmware reports it, with the physical address of the frame buffer. -/
structure VbeMode where
  pitch : Nat
  width : Nat
  height : Nat
  bpp : Nat
  framebuffer : Nat
  pitch_lt : pitch < 2 ^ 16
  width_lt : width < 2 ^ 16
  height_lt : height < 2 ^ 16

/-- A product of two `int` values. -/
def mulInt (a b : Nat) : Except VbeStop Nat := if a * b < 2 ^ 31 then .ok (a * b) else .error .overflow

/-- The frame buffer, with the number of bytes that are mapped at `vaddr`. -/
structure VbeFrameBuffer where
  mode : VbeMode
  paddr : Nat
  vaddr : Nat
  mappedBytes : Nat

/-- The mapped bytes, rounded up to whole pages. -/
def roundToPages (bytesCount : Nat) : Nat :=
  if bytesCount % pageSize ≠ 0 then bytesCount + (pageSize - bytesCount % pageSize) else bytesCount

/-- `init_frame_buffer`; `memoryMap` gives the address at which bytes were mapped, or NULL. -/
def initFrameBuffer (memoryMap : (paddr size : Nat) → Nat) (mode : VbeMode) :
    Except VbeStop VbeFrameBuffer := do
  let row ← mulInt (mode.bpp / 8) mode.height
  let bytesCount ← mulInt row mode.width
  let bytesCount := roundToPages bytesCount
  return ⟨mode, mode.framebuffer, memoryMap mode.framebuffer bytesCount, bytesCount⟩

def isFrameBufferValid (framebuffer : VbeFrameBuffer) : Bool :=
  !(framebuffer.paddr == 0 || framebuffer.vaddr == 0)

/-- The memory from the start of the frame buffer on, the elements of the pixel array that were
read and the offsets that were written. -/
structure FrameState where
  frame : Nat → BitVec 8
  reads : List Nat
  written : List Nat

abbrev PixelM := EStateM VbeStop FrameState

def Pixel.byte (p : Pixel) : Nat → BitVec 8
  | 0 => p.b
  | 1 => p.g
  | 2 => p.r
  | _ => p.a

section

variable (pixels : Nat → Pixel)

/-- Copy a byte of element `i` to an offset of the frame buffer. -/
def copyComponent (i c dest : Nat) : PixelM Unit :=
  modify fun s =>
    { frame := fun o => if o = dest then (pixels i).byte c else s.frame o
      reads := i :: s.reads
      written := dest :: s.written }

/-- The loop for 24 bits per pixel. -/
def copyPixels24 : (count i dest : Nat) → PixelM Unit
  | 0, _, _ => pure ()
  | count + 1, i, dest => do
    copyComponent pixels i 0 dest
    copyComponent pixels i 1 (dest + 1)
    copyComponent pixels i 2 (dest + 2)
    copyPixels24 count (i + 1) (dest + 3)

/-- Byte `o` of the array, whose elements have the given number of bytes, goes to offset `o`. -/
def copyByte (bytes o : Nat) : PixelM Unit := copyComponent pixels (o / bytes) (o % bytes) o

/-- `memcpy` from the array: blocks of eight words first, then single bytes. -/
def memcpyPixels (size : Nat) : PixelM Unit := do
  let alignedSize := size - size % 64
  forRange (fun block => forRange (fun word => forRange (copyByte pixels 4) 8 (8 * word)) 8
    (8 * block)) (alignedSize / 64) 0
  forRange (copyByte pixels 4) (size - alignedSize) alignedSize

def writePixelsVbeDisplay (framebuffer : VbeFrameBuffer) (size : Nat) : PixelM Unit := do
  if !isFrameBufferValid framebuffer then throw (.panic .vbeError)
  match mulInt framebuffer.mode.height framebuffer.mode.width with
  | .error e => throw e
  | .ok pixelCount =>
    if size > pixelCount then throw (.panic .vbeError)
    else if framebuffer.mode.bpp = 24 then copyPixels24 pixels size 0 0
    else if framebuffer.mode.bpp = 32 then memcpyPixels pixels (pixelCount * 4)
    else throw (.panic .vbeError)

end

/-! ## Copying -/

section

variable {ε σ : Type} {f : Nat → EStateM ε σ Unit}

theorem forRange_add (m n start : Nat) :
    forRange f (m + n) start = forRange f m start >>= fun _ => forRange f n (start + m) := by
  induction m generalizing start with
  | zero => rw [Nat.zero_add, forRange, pure_bind, Nat.add_zero]
  | succ m ih =>
    rw [Nat.succ_add, forRange, forRange, ih, bind_assoc, Nat.add_right_comm, Nat.add_assoc]

theorem forRange_blocks (b m start : Nat) :
    forRange (fun k => forRange f b (b * k)) m start = forRange f (b * m) (b * start) := by
  induction m generalizing start with
  | zero => rfl
  | succ m ih =>
    rw [forRange, ih, Nat.mul_succ b start, Nat.mul_succ b m, Nat.add_comm (b * m), forRange_add]

end

section

variable {pixels : Nat → Pixel}

theorem copyPixels24_eq (count i : Nat) :
    copyPixels24 pixels count i (3 * i) = forRange (copyByte pixels 3) (3 * count) (3 * i) := by
  induction count generalizing i with
  | zero => rfl
  | succ count ih =>
    have hbyte : ∀ c < 3, copyByte pixels 3 (3 * i + c) = copyComponent pixels i c (3 * i + c) := by
      intro c hc
      rw [copyByte, Nat.mul_add_div (by decide), Nat.div_eq_of_lt hc, Nat.mul_add_mod,
        Nat.mod_eq_of_lt hc, Nat.add_zero]
    rw [copyPixels24, Nat.mul_succ, Nat.add_comm (3 * count), forRange_add, ← Nat.mul_succ 3 i, ← ih]
    show _ = (copyByte pixels 3 (3 * i + 0) >>= fun _ => copyByte pixels 3 (3 * i + 1) >>= fun _ =>
      copyByte pixels 3 (3 * i + 2) >>= fun _ => pure ()) >>= _
    rw [hbyte 0 (by decide), hbyte 1 (by decide), hbyte 2 (by decide)]
    simp only [bind_assoc, pure_bind]
    rfl

theorem memcpyPixels_eq (size : Nat) :
    memcpyPixels pixels size = forRange (copyByte pixels 4) size 0 := by
  have hblock : ∀ block, forRange (fun word => forRange (copyByte pixels 4) 8 (8 * word)) 8
      (8 * block) = forRange (copyByte pixels 4) 64 (64 * block) := by
    intro block
    rw [forRange_blocks, ← Nat.mul_assoc]
  have haligned : 64 * ((size - size % 64) / 64) = size - size % 64 := by omega
  have hsum : size = size - size % 64 + (size - (size - size % 64)) := by omega
  rw [memcpyPixels]
  simp only [hblock, forRange_blocks]
  rw [haligned]
  conv => rhs; rw [hsum]
  rw [forRange_add, Nat.zero_add]

theorem run_copyBytes (bytes n : Nat) (s : FrameState) :
    ∃ s', (forRange (copyByte pixels bytes) n 0).run s = .ok () s' ∧
      (∀ o, s'.frame o = if o < n then (pixels (o / bytes)).byte (o % bytes) else s.frame o) ∧
      (∀ e, e ∈ s'.reads ↔ e ∈ s.reads ∨ ∃ o < n, o / bytes = e) ∧
      (∀ o, o ∈ s'.written ↔ o ∈ s.written ∨ o < n) := by
  have hloop := @run_forRange_returns VbeStop FrameState (copyByte pixels bytes)
    (fun m t => (∀ o, t.frame o = if o < m then (pixels (o / bytes)).byte (o % bytes)
        else s.frame o) ∧
      (∀ e, e ∈ t.reads ↔ e ∈ s.reads ∨ ∃ o < m, o / bytes = e) ∧
      (∀ o, o ∈ t.written ↔ o ∈ s.written ∨ o < m)) n 0 s
  rw [Nat.zero_add] at hloop
  refine hloop (fun m t _ _ ht => ?_) ⟨fun o => rfl, fun e => by simp, fun o => by simp⟩
  obtain ⟨hframe, hreads, hwritten⟩ := ht
  refine ⟨_, rfl, fun o => ?_, fun e => ?_, fun o => ?_⟩
  · show (if o = m then _ else t.frame o) = _
    by_cases ho : o = m
    · rw [if_pos ho, if_pos (by omega), ho]
    · rw [if_neg ho, hframe o]
      simp only [show o < m + 1 ↔ o < m by omega]
  · show e ∈ (m / bytes) :: t.reads ↔ _
    rw [List.mem_cons, hreads]
    constructor
    · rintro (rfl | he | ⟨o, ho, rfl⟩)
      · exact .inr ⟨m, Nat.lt_succ_self m, rfl⟩
      · exact .inl he
      · exact .inr ⟨o, Nat.lt_succ_of_lt ho, rfl⟩
    · rintro (he | ⟨o, ho, rfl⟩)
      · exact .inr (.inl he)
      · rcases Nat.lt_succ_iff_lt_or_eq.1 ho with ho | rfl
        · exact .inr (.inr ⟨o, ho, rfl⟩)
        · exact .inl rfl
  · show o ∈ m :: t.written ↔ _
    rw [List.mem_cons, hwritten, Nat.lt_succ_iff_lt_or_eq]
    constructor
    · rintro (rfl | ho | ho)
      · exact .inr (.inr rfl)
      · exact .inl ho
      · exact .inr (.inl ho)
    · rintro (ho | ho | ho)
      · exact .inr (.inl ho)
      · exact .inr (.inr ho)
      · exact .inl ho

end

/-! ## The screen -/

/-- The pixels are where the mode has them, and the code kept to the array and to the mapping. -/
structure Shows (mode : VbeMode) (pixels : Nat → Pixel) (size mapped : Nat) (s : FrameState) :
    Prop where
  placed : ∀ i < size, ∀ c < 3,
    s.frame (i / mode.width * mode.pitch + i % mode.width * (mode.bpp / 8) + c) = (pixels i).byte c
  reads_lt : ∀ e ∈ s.reads, e < size
  written_lt : ∀ o ∈ s.written, o < mapped

/-- `init_frame_buffer` and a call of `write_pixels_vbe_display` show any pixels. -/
def ShowsAll (memoryMap : (paddr size : Nat) → Nat) (mode : VbeMode) (size : Nat) : Prop :=
  ∀ pixels frame, ∃ fb s', initFrameBuffer memoryMap mode = .ok fb ∧
    (writePixelsVbeDisplay pixels fb size).run ⟨frame, [], []⟩ = .ok () s' ∧
    Shows mode pixels size fb.mappedBytes s'

section

variable {memoryMap : (paddr size : Nat) → Nat} {mode : VbeMode} {size : Nat}

def VbeMode.bytesCount (mode : VbeMode) : Nat := mode.bpp / 8 * mode.height * mode.width

theorem mulInt_of_lt {a b : Nat} (h : a * b < 2 ^ 31) : mulInt a b = .ok (a * b) := if_pos h

theorem mulInt_row (hbpp : mode.bpp = 24 ∨ mode.bpp = 32) :
    mulInt (mode.bpp / 8) mode.height = .ok (mode.bpp / 8 * mode.height) := by
  have hheight := mode.height_lt
  refine mulInt_of_lt ?_
  rcases hbpp with h | h <;> rw [h] <;> omega

theorem initFrameBuffer_of_lt (hbpp : mode.bpp = 24 ∨ mode.bpp = 32)
    (h : mode.bytesCount < 2 ^ 31) :
    initFrameBuffer memoryMap mode =
      .ok ⟨mode, mode.framebuffer, memoryMap mode.framebuffer (roundToPages mode.bytesCount),
        roundToPages mode.bytesCount⟩ := by
  rw [initFrameBuffer, mulInt_row hbpp]
  show (mulInt (mode.bpp / 8 * mode.height) mode.width >>= _) = _
  rw [mulInt_of_lt h]
  rfl

theorem initFrameBuffer_overflow (hbpp : mode.bpp = 24 ∨ mode.bpp = 32)
    (h : ¬mode.bytesCount < 2 ^ 31) : initFrameBuffer memoryMap mode = .error .overflow := by
  have hmul : mulInt (mode.bpp / 8 * mode.height) mode.width = .error .overflow := if_neg h
  rw [initFrameBuffer, mulInt_row hbpp]
  show (mulInt (mode.bpp / 8 * mode.height) mode.width >>= _) = _
  rw [hmul]
  rfl

theorem le_roundToPages (n : Nat) : n ≤ roundToPages n := by
  unfold roundToPages
  split <;> omega

def VbeMode.copied (mode : VbeMode) (size : Nat) : Nat :=
  if mode.bpp = 24 then size else mode.height * mode.width

theorem writePixelsVbeDisplay_eq (pixels : Nat → Pixel) (hbpp : mode.bpp = 24 ∨ mode.bpp = 32)
    (hbytes : mode.bytesCount < 2 ^ 31) (hsize : size ≤ mode.height * mode.width)
    {fb : VbeFrameBuffer} (hmode : fb.mode = mode) (hvalid : isFrameBufferValid fb = true) :
    writePixelsVbeDisplay pixels fb size =
      forRange (copyByte pixels (mode.bpp / 8)) (mode.bpp / 8 * mode.copied size) 0 := by
  have hcount : mulInt mode.height mode.width = .ok (mode.height * mode.width) := by
    refine mulInt_of_lt (Nat.lt_of_le_of_lt ?_ hbytes)
    rw [VbeMode.bytesCount, Nat.mul_assoc]
    refine Nat.le_mul_of_pos_left _ ?_
    rcases hbpp with h | h <;> rw [h] <;> decide
  rw [writePixelsVbeDisplay, hmode, hcount, hvalid]
  simp only [Bool.not_true, Bool.false_eq_true, if_false, if_neg (Nat.not_lt.2 hsize)]
  rcases hbpp with h | h
  · rw [if_pos h, h, VbeMode.copied, if_pos h]
    exact copyPixels24_eq size 0
  · rw [if_neg (by rw [h]; decide), if_pos h, h, VbeMode.copied, if_neg (by rw [h]; decide),
      memcpyPixels_eq, Nat.mul_comm]

theorem offset_eq {w pitch bytes i : Nat} (h : pitch = bytes * w ∨ i < w) :
    i / w * pitch + i % w * bytes = bytes * i := by
  rcases h with rfl | h
  · rw [Nat.mul_left_comm, Nat.mul_comm (i % w), ← Nat.mul_add, Nat.div_add_mod']
  · rw [Nat.div_eq_of_lt h, Nat.mod_eq_of_lt h, Nat.zero_mul, Nat.zero_add, Nat.mul_comm]

/-- The first bytes of the array are in the frame buffer, and only their elements were read. -/
structure Copied (bytes n : Nat) (pixels : Nat → Pixel) (frame : Nat → BitVec 8) (s : FrameState) :
    Prop where
  frame_eq : ∀ o, s.frame o =
    if o < bytes * n then (pixels (o / bytes)).byte (o % bytes) else frame o
  reads_iff : ∀ e, e ∈ s.reads ↔ e < n
  written_iff : ∀ o, o ∈ s.written ↔ o < bytes * n

theorem run_display (hbpp : mode.bpp = 24 ∨ mode.bpp = 32) (hbytes : mode.bytesCount < 2 ^ 31)
    (hsize : size ≤ mode.height * mode.width) (hpaddr : mode.framebuffer ≠ 0)
    (hmap : ∀ n, memoryMap mode.framebuffer n ≠ 0) (pixels : Nat → Pixel) (frame : Nat → BitVec 8) :
    ∃ fb s', initFrameBuffer memoryMap mode = .ok fb ∧ mode.bytesCount ≤ fb.mappedBytes ∧
      (writePixelsVbeDisplay pixels fb size).run ⟨frame, [], []⟩ = .ok () s' ∧
      Copied (mode.bpp / 8) (mode.copied size) pixels frame s' := by
  have hpos : 0 < mode.bpp / 8 := by
    rcases hbpp with h | h <;> rw [h] <;> decide
  obtain ⟨s', hrun, hframe, hreads, hwritten⟩ :=
    @run_copyBytes pixels (mode.bpp / 8) (mode.bpp / 8 * mode.copied size) ⟨frame, [], []⟩
  refine ⟨_, s', initFrameBuffer_of_lt hbpp hbytes, le_roundToPages _, ?_, hframe, fun e => ?_,
    fun o => by simpa using hwritten o⟩
  · rw [writePixelsVbeDisplay_eq pixels hbpp hbytes hsize rfl]
    · exact hrun
    · simp [isFrameBufferValid, hpaddr, hmap]
  · rw [hreads]
    constructor
    · rintro (he | ⟨o, ho, rfl⟩)
      · cases he
      · exact Nat.div_lt_of_lt_mul ho
    · intro he
      exact .inr ⟨mode.bpp / 8 * e, Nat.mul_lt_mul_of_pos_left he hpos,
        Nat.mul_div_cancel_left e hpos⟩

theorem Copied.shows {pixels : Nat → Pixel} {frame : Nat → BitVec 8} {s : FrameState} {n mapped : Nat}
    (h : Copied (mode.bpp / 8) n pixels frame s) (hthree : 3 ≤ mode.bpp / 8) (hn : n = size)
    (hmapped : mode.bpp / 8 * n ≤ mapped)
    (hlines : mode.pitch = mode.bpp / 8 * mode.width ∨ size ≤ mode.width) :
    Shows mode pixels size mapped s := by
  subst hn
  refine ⟨fun i hi c hc => ?_, fun e he => (h.reads_iff e).1 he,
    fun o ho => Nat.lt_of_lt_of_le ((h.written_iff o).1 ho) hmapped⟩
  have hc' : c < mode.bpp / 8 := by omega
  have hlt : mode.bpp / 8 * i + c < mode.bpp / 8 * n :=
    calc mode.bpp / 8 * i + c < mode.bpp / 8 * i + mode.bpp / 8 := Nat.add_lt_add_left hc' _
      _ = mode.bpp / 8 * (i + 1) := (Nat.mul_succ _ _).symm
      _ ≤ mode.bpp / 8 * n := Nat.mul_le_mul_left _ hi
  rw [offset_eq (hlines.imp_right fun hle => Nat.lt_of_lt_of_le hi hle), h.frame_eq, if_pos hlt,
    Nat.mul_add_div (by omega), Nat.div_eq_of_lt hc', Nat.add_zero, Nat.mul_add_mod,
    Nat.mod_eq_of_lt hc']

def onePixel (w : Nat) : Nat → Pixel := fun i => if i = w then ⟨1, 0, 0, 0⟩ else ⟨0, 0, 0, 0⟩

theorem onePixel_byte_eq_zero {w bytes pitch : Nat} (h : pitch ≠ bytes * w) :
    (onePixel w (pitch / bytes)).byte (pitch % bytes) = 0 := by
  unfold onePixel
  by_cases he : pitch / bytes = w
  · rw [if_pos he]
    have hmod : pitch % bytes ≠ 0 := by
      intro h0
      have hdiv := Nat.div_add_mod pitch bytes
      rw [he, h0] at hdiv
      exact h hdiv.symm
    obtain ⟨m, hm⟩ := Nat.exists_eq_succ_of_ne_zero hmod
    rw [hm]
    rcases m with _ | _ | m <;> rfl
  · rw [if_neg he]
    rcases pitch % bytes with _ | _ | _ | m <;> rfl

end

/-- The modes and sizes for which the pixels are shown right. -/
def VbeMode.Showable (mode : VbeMode) (size : Nat) : Prop :=
  mode.bytesCount < 2 ^ 31 ∧
    (mode.pitch = mode.bpp / 8 * mode.width ∨ size ≤ mode.width) ∧
    (mode.bpp = 32 → size = mode.height * mode.width)

/-- Pixels are shown right exactly if the lines are contiguous or only one is given, and with 32
bits per pixel the whole screen is given. -/
theorem showsAll_iff {memoryMap : (paddr size : Nat) → Nat} {mode : VbeMode} {size : Nat}
    (hbpp : mode.bpp = 24 ∨ mode.bpp = 32) (hsize : size ≤ mode.height * mode.width)
    (hpaddr : mode.framebuffer ≠ 0) (hmap : ∀ n, memoryMap mode.framebuffer n ≠ 0) :
    ShowsAll memoryMap mode size ↔ mode.Showable size := by
  have hthree : 3 ≤ mode.bpp / 8 := by omega
  constructor
  · intro hall
    have hbytes : mode.bytesCount < 2 ^ 31 := by
      by_contra hbytes
      obtain ⟨fb, s', hinit, -⟩ := hall (fun _ => ⟨0, 0, 0, 0⟩) fun _ => 0
      rw [initFrameBuffer_overflow hbpp hbytes] at hinit
      cases hinit
    obtain ⟨fb, s', hinit, -, hrun, hcopied⟩ :=
      run_display hbpp hbytes hsize hpaddr hmap (onePixel mode.width) fun _ => 0
    obtain ⟨fb₂, s₂, hinit₂, hrun₂, hshows⟩ := hall (onePixel mode.width) fun _ => 0
    obtain rfl : fb = fb₂ := by
      rw [hinit] at hinit₂
      exact Except.ok.inj hinit₂
    obtain rfl : s' = s₂ := by
      rw [hrun] at hrun₂
      injection hrun₂
    refine ⟨hbytes, ?_, fun h32 => ?_⟩
    · by_contra hlines
      rw [not_or, Nat.not_le] at hlines
      -- the first pixel of the second line
      have hwidth : 0 < mode.width := by
        refine Nat.pos_of_ne_zero fun h0 => ?_
        rw [h0] at hsize hlines
        omega
      have hplaced := hshows.placed mode.width hlines.2 0 (by decide)
      rw [Nat.div_self hwidth, Nat.mod_self, Nat.one_mul, Nat.zero_mul, Nat.add_zero,
        hcopied.frame_eq, onePixel_byte_eq_zero hlines.1, ite_self] at hplaced
      unfold onePixel at hplaced
      rw [if_pos rfl] at hplaced
      exact absurd hplaced (by decide)
    · -- the copy reads the whole screen
      by_contra hne
      have hread : size ∈ s'.reads := by
        rw [hcopied.reads_iff, VbeMode.copied, if_neg (by rw [h32]; decide)]
        omega
      exact Nat.lt_irrefl _ (hshows.reads_lt _ hread)
  · rintro ⟨hbytes, hlines, hwhole⟩ pixels frame
    obtain ⟨fb, s', hinit, hmapped, hrun, hcopied⟩ :=
      run_display hbpp hbytes hsize hpaddr hmap pixels frame
    have hn : mode.copied size = size := by
      unfold VbeMode.copied
      rcases hbpp with h | h
      · exact if_pos h
      · rw [if_neg (by rw [h]; decide), hwhole h]
    have hle : mode.bpp / 8 * mode.copied size ≤ mode.bytesCount := by
      rw [hn, VbeMode.bytesCount, Nat.mul_assoc]
      exact Nat.mul_le_mul_left _ hsize
    exact ⟨fb, s', hinit, hrun, hcopied.shows hthree hn (Nat.le_trans hle hmapped) hlines⟩

def xgaMode : VbeMode :=
  ⟨4096, 1024, 768, 32, 0xfd000000, by decide, by decide, by decide⟩

theorem showsAll_xgaMode : ShowsAll (fun paddr _ => paddr) xgaMode (768 * 1024) :=
  (showsAll_iff (.inr rfl) (Nat.le_refl _) (by decide) fun _ => by decide).2
    ⟨by decide, .inl rfl, fun _ => rfl⟩

/-- Two lines of two pixels, with two bytes after each line. -/
def paddedMode : VbeMode := ⟨8, 2, 2, 24, 0xfd000000, by decide, by decide, by decide⟩

def smallMode : VbeMode := ⟨8, 2, 2, 32, 0xfd000000, by decide, by decide, by decide⟩

/-- The first pixel of the second line is not at the pitch, and one pixel to write makes the code
read the fourth. -/
theorem display_misplaces_and_overreads :
    (∃ fb s', initFrameBuffer (fun paddr _ => paddr) paddedMode = .ok fb ∧
        (writePixelsVbeDisplay (onePixel 2) fb 4).run ⟨fun _ => 0, [], []⟩ = .ok () s' ∧
        (onePixel 2 2).b = 1 ∧ s'.frame 8 = 0) ∧
      ∃ fb s', initFrameBuffer (fun paddr _ => paddr) smallMode = .ok fb ∧
        (writePixelsVbeDisplay (onePixel 2) fb 1).run ⟨fun _ => 0, [], []⟩ = .ok () s' ∧
        3 ∈ s'.reads := by
  obtain ⟨fb, s', hinit, -, hrun, hcopied⟩ := @run_display (fun paddr _ => paddr) paddedMode 4
    (.inl rfl) (by decide) (by decide) (by decide) (fun _ => by decide) (onePixel 2) fun _ => 0
  obtain ⟨fb₂, s₂, hinit₂, -, hrun₂, hcopied₂⟩ := @run_display (fun paddr _ => paddr) smallMode 1
    (.inr rfl) (by decide) (by decide) (by decide) (fun _ => by decide) (onePixel 2) fun _ => 0
  refine ⟨⟨fb, s', hinit, hrun, by decide, ?_⟩, ⟨fb₂, s₂, hinit₂, hrun₂, ?_⟩⟩
  · rw [hcopied.frame_eq]
    decide
  · rw [hcopied₂.reads_iff]
    decide

end GarbageOS
