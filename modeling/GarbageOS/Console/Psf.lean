import GarbageOS.Console.Pixels
import GarbageOS.Lib.Bytes
import Mathlib.Tactic.ByContra

/-!
# `psf.c`: the font in the kernel

`get_default_PSF_font` reads the font that is linked into the kernel. A PSF2 image has a header,
the bitmaps of the glyphs, and, if bit 0 of the flags is set, a table with a record of UTF-8 text
for every glyph; the byte `0xFF` ends a record, and behind `0xFE` stand sequences of characters.

The source asks for `flags == 0` where the table is there if the flag is *set*. So a table is
never looked at, and an image that has none is read as if it had one.
-/

namespace GarbageOS

open Lib

/-! ## The image -/

/-- The bytes between `_binary_font_..._start` and `_binary_font_..._end`. -/
structure PSFImage where
  bytes : Bytes
  length : Nat

structure PSFHeader where
  headersize : Nat
  flags : Nat
  numglyph : Nat
  bytesperglyph : Nat
  size : Size

def psf2MagicNumber : Nat := 0x864ab572

def PSFImage.magic (image : PSFImage) : Nat := image.bytes.get32 0

def PSFImage.header (image : PSFImage) : PSFHeader where
  headersize := image.bytes.get32 8
  flags := image.bytes.get32 12
  numglyph := image.bytes.get32 16
  bytesperglyph := image.bytes.get32 20
  size :=
    { height := image.bytes.get32 24
      width := image.bytes.get32 28
      height_lt := Bytes.get32_lt
      width_lt := Bytes.get32_lt }

def PSFHeader.lineBytes (h : PSFHeader) : Nat := (h.size.width + 7) / 8

/-- A PSF2 image: the header and the bitmaps are inside it. -/
structure PSFImage.Psf2 (image : PSFImage) : Prop where
  header_le : 32 ≤ image.length
  magic_eq : image.magic = psf2MagicNumber
  bitmaps_le :
    image.header.headersize + image.header.numglyph * image.header.bytesperglyph ≤ image.length
  glyph_le : image.header.size.height * image.header.lineBytes ≤ image.header.bytesperglyph

instance (image : PSFImage) : Decidable image.Psf2 :=
  decidable_of_iff
    (32 ≤ image.length ∧ image.magic = psf2MagicNumber ∧
      image.header.headersize + image.header.numglyph * image.header.bytesperglyph ≤ image.length ∧
      image.header.size.height * image.header.lineBytes ≤ image.header.bytesperglyph)
    ⟨fun ⟨h₁, h₂, h₃, h₄⟩ => ⟨h₁, h₂, h₃, h₄⟩, fun ⟨h₁, h₂, h₃, h₄⟩ => ⟨h₁, h₂, h₃, h₄⟩⟩

/-! ## `get_default_PSF_font` -/

/-- The offsets that were read, the last one first, and the pixels of the glyphs. -/
structure FontState where
  reads : List Nat
  pixels : Nat → Nat → Bool

abbrev FontM := EStateM Stop FontState

section

variable (image : PSFImage)

def readFontByte (o : Nat) : FontM Nat := do
  modify fun s => { s with reads := o :: s.reads }
  return image.bytes.get8 o

/-- The fields of the header from offset `o` up to `o + n`. -/
def touchHeader (o n : Nat) : FontM Unit :=
  modify fun s => { s with reads := List.range' o n ++ s.reads }

def cachePixel (h : PSFHeader) (i y x : Nat) : FontM Unit := do
  kassert (x + y * h.size.width < h.size.width * h.size.height)
  -- `line_in_bytes`; the sum has 32 bits
  let lineInBytes := (h.size.width + 7) % 2 ^ 32 / 8
  let b ← readFontByte image (h.headersize + i * h.bytesperglyph + y * lineInBytes + x / 8)
  modify fun s =>
    { s with pixels := fun j k =>
        if j = i ∧ k = x + y * h.size.width then decide ((b <<< (x % 8)) &&& 0x80 ≠ 0)
        else s.pixels j k }

def calcGlyphsCaches (h : PSFHeader) : FontM Unit :=
  forRange (fun i =>
    forRange (fun y =>
      forRange (cachePixel image h i y) h.size.width 0) h.size.height 0) h.numglyph 0

/-- The bytes the loop passes over behind a byte that is not ASCII. -/
def skipOf (uc : Nat) : Nat :=
  if uc &&& 32 = 0 then 1 else if uc &&& 16 = 0 then 2 else if uc &&& 8 = 0 then 3 else 0

/-- The loop over the table; `steps` bounds its rounds. `glyph` has 16 bits. -/
def readTable : (steps s glyph : Nat) → (asciiTable : Nat → Nat) → FontM (Nat → Nat)
  | 0, _, _, _ => throw .loops
  | steps + 1, s, glyph, asciiTable =>
    if s < image.length then do
      let uc ← readFontByte image s
      if uc = 0xFF then readTable steps (s + 1) ((glyph + 1) % 2 ^ 16) asciiTable
      else if uc &&& 128 ≠ 0 then readTable steps (s + skipOf uc + 1) glyph asciiTable
      else do
        kassert (uc < asciiTableSize)
        readTable steps (s + 1) glyph fun c => if c = uc then glyph else asciiTable c
    else return asciiTable

/-- Where the loop begins; the size of the bitmaps has 32 bits. -/
def PSFImage.loopStart : Nat :=
  image.header.bytesperglyph * image.header.numglyph % 2 ^ 32 + image.header.headersize

/-- `has_table`, with the sense of the flag turned round. -/
def PSFImage.hasTable : Bool := image.header.flags == 0

def readAsciiTable : FontM (Nat → Nat) :=
  if image.hasTable then readTable image (image.length + 1) image.loopStart 0 fun _ => 0
  else pure fun i => i

def PSFImage.font (asciiTable : Nat → Nat) (pixels : Nat → Nat → Bool) : PSFFont where
  header := image.header.size
  numglyph := image.header.numglyph
  hasTable := image.hasTable
  asciiTable
  glyphs := some fun i => ⟨some (pixels i)⟩

/-- `get_default_PSF_font`; `none` is the font that is not valid. -/
def getDefaultPSFFont : FontM (Option PSFFont) := do
  touchHeader 0 4
  if image.magic ≠ psf2MagicNumber then return none
  touchHeader 8 24
  let asciiTable ← readAsciiTable image
  calcGlyphsCaches image image.header
  return some (image.font asciiTable (← get).pixels)

end

namespace PSFImage

/-! ## What the table says -/

section Table

variable (image : PSFImage)

def tableStart : Nat := image.header.headersize + image.header.numglyph * image.header.bytesperglyph

def table : List UInt8 :=
  (List.range' image.tableStart (image.length - image.tableStart)).map image.bytes

/-- Record `g` of the table lists the ASCII character `c`. In UTF-8 its byte is in no other
character. -/
def Lists (g c : Nat) : Prop :=
  c ∈ (((image.table.splitOnP (· == 0xFF)).getD g []).takeWhile (· != 0xFE)).map UInt8.toNat

instance (g c : Nat) : Decidable (image.Lists g c) :=
  inferInstanceAs (Decidable (_ ∈ _))

/-- What the loop has to get right: `g` is the glyph for the ASCII character `c`. -/
def GlyphOf (c g : Nat) : Prop :=
  if image.header.flags.testBit 0 then (∃ r, image.Lists r c) → image.Lists g c else g = c

end Table

/-! ## The way the loop takes over the bytes -/

section Walk

variable {image : PSFImage} {s glyph p q g g' c : Nat}

/-- The offset and the glyph after the byte at `s`. -/
def next (image : PSFImage) (s glyph : Nat) : Nat × Nat :=
  if image.bytes.get8 s = 0xFF then (s + 1, (glyph + 1) % 2 ^ 16)
  else if image.bytes.get8 s &&& 128 ≠ 0 then (s + skipOf (image.bytes.get8 s) + 1, glyph)
  else (s + 1, glyph)

/-- From `s`, with number `glyph`, the loop comes to the byte at `p` with number `g`. -/
inductive Comes (image : PSFImage) : (s glyph p g : Nat) → Prop
  | here {s glyph : Nat} (hs : s < image.length) : Comes image s glyph s glyph
  | next {s glyph p g : Nat} (hs : s < image.length)
      (h : Comes image (image.next s glyph).1 (image.next s glyph).2 p g) : Comes image s glyph p g

theorem lt_next (image : PSFImage) (s glyph : Nat) : s < (image.next s glyph).1 := by
  unfold next
  split
  · exact Nat.lt_succ_self s
  · split
    · show s < s + _ + 1
      omega
    · exact Nat.lt_succ_self s

theorem Comes.le (h : image.Comes s glyph p g) : s ≤ p := by
  induction h with
  | here => exact Nat.le_refl _
  | next _ _ ih => exact Nat.le_trans (Nat.le_of_lt (image.lt_next _ _)) ih

theorem Comes.unique (h : image.Comes s glyph p g) (h' : image.Comes s glyph p g') : g = g' := by
  induction h with
  | here hs =>
    cases h' with
    | here => rfl
    | next _ h' => exact absurd h'.le (Nat.not_le_of_lt (image.lt_next _ _))
  | next hs h ih =>
    cases h' with
    | here => exact absurd h.le (Nat.not_le_of_lt (image.lt_next _ _))
    | next _ h' => exact ih h'

/-- The last time the loop comes to the character `c`, it does with number `g`. -/
def Last (image : PSFImage) (s glyph c g : Nat) : Prop :=
  ∃ p, image.Comes s glyph p g ∧ image.bytes.get8 p = c ∧
    ∀ q g', image.Comes s glyph q g' → image.bytes.get8 q = c → q ≤ p

/-- The loop never comes to the character `c`. -/
def Absent (image : PSFImage) (s glyph c : Nat) : Prop :=
  ∀ p g, image.Comes s glyph p g → image.bytes.get8 p ≠ c

theorem Last.unique (h : image.Last s glyph c g) (h' : image.Last s glyph c g') : g = g' := by
  obtain ⟨p, hp, hpc, hlast⟩ := h
  obtain ⟨q, hq, hqc, hlast'⟩ := h'
  obtain rfl : p = q := Nat.le_antisymm (hlast' p g hp hpc) (hlast q g' hq hqc)
  exact hp.unique hq

theorem Last.not_absent (h : image.Last s glyph c g) : ¬ image.Absent s glyph c := by
  obtain ⟨p, hp, hpc, _⟩ := h
  exact fun habsent => habsent p g hp hpc

theorem Last.of_next (hs : s < image.length)
    (h : image.Last (image.next s glyph).1 (image.next s glyph).2 c g) :
    image.Last s glyph c g := by
  obtain ⟨p, hp, hpc, hlast⟩ := h
  refine ⟨p, .next hs hp, hpc, fun q g' hq hqc => ?_⟩
  cases hq with
  | here => exact Nat.le_of_lt (Nat.lt_of_lt_of_le (image.lt_next s glyph) hp.le)
  | next _ hq => exact hlast q g' hq hqc

theorem Absent.last_here (hs : s < image.length)
    (h : image.Absent (image.next s glyph).1 (image.next s glyph).2 (image.bytes.get8 s)) :
    image.Last s glyph (image.bytes.get8 s) glyph := by
  refine ⟨s, .here hs, rfl, fun q g' hq hqc => ?_⟩
  cases hq with
  | here => exact Nat.le_refl s
  | next _ hq => exact absurd hqc (h q g' hq)

theorem Absent.of_next (h : image.Absent (image.next s glyph).1 (image.next s glyph).2 c)
    (hc : image.bytes.get8 s ≠ c) : image.Absent s glyph c := by
  intro p g hp
  cases hp with
  | here => exact hc
  | next _ hp => exact h p g hp

end Walk

/-! ## The loop over the table -/

variable {image : PSFImage}

def Inside (image : PSFImage) (s : FontState) : Prop := ∀ o ∈ s.reads, o < image.length

theorem Inside.read {st : FontState} {o : Nat} (h : image.Inside st) (ho : o < image.length) :
    image.Inside { st with reads := o :: st.reads } := by
  intro o' ho'
  rcases List.mem_cons.1 ho' with rfl | ho'
  · exact ho
  · exact h o' ho'

theorem high_bit_eq_zero : ∀ uc < 2 ^ 8, uc &&& 128 = 0 ↔ uc < asciiTableSize := by decide +kernel

/-- One round: the loop goes on behind the byte, and an ASCII character gets its glyph. -/
theorem run_readTable_succ {s : Nat} (hs : s < image.length) (steps glyph : Nat) (t : Nat → Nat)
    (st : FontState) :
    ∃ t' : Nat → Nat,
      (readTable image (steps + 1) s glyph t).run st =
        (readTable image steps (image.next s glyph).1 (image.next s glyph).2 t').run
          { st with reads := s :: st.reads } ∧
      ∀ c < asciiTableSize, t' c = if c = image.bytes.get8 s then glyph else t c := by
  have hbyte := high_bit_eq_zero _ (Bytes.get8_lt (b := image.bytes) (o := s))
  simp only [readTable, hs, if_true, next, readFontByte, bind_assoc, run_modify_bind, pure_bind]
  by_cases hend : image.bytes.get8 s = 0xFF
  · refine ⟨t, by simp only [hend, if_true], fun c hc => ?_⟩
    rw [if_neg]
    unfold asciiTableSize at hc
    omega
  by_cases hascii : image.bytes.get8 s < asciiTableSize
  · have hlow := hbyte.2 hascii
    refine ⟨fun c => if c = image.bytes.get8 s then glyph else t c, ?_, fun c _ => rfl⟩
    simp only [hend, hlow, if_false, ne_eq, not_true_eq_false]
    exact run_kassert_pos (decide_eq_true hascii)
  · have hhigh : image.bytes.get8 s &&& 128 ≠ 0 := fun h => hascii (hbyte.1 h)
    refine ⟨t, by simp only [hend, hhigh, if_true, if_false, ne_eq, not_false_eq_true], ?_⟩
    intro c hc
    rw [if_neg]
    rintro rfl
    exact hascii hc

/-- The loop ends, reads inside the image, and gives each ASCII character the number with which it
comes to it last. -/
theorem run_readTable {steps s glyph : Nat} {t : Nat → Nat} {st : FontState}
    (hsteps : image.length - s < steps) (hst : image.Inside st) :
    ∃ t' st', (readTable image steps s glyph t).run st = .ok t' st' ∧ image.Inside st' ∧
      ∀ c < asciiTableSize, image.Last s glyph c (t' c) ∨
        (image.Absent s glyph c ∧ t' c = t c) := by
  induction steps generalizing s glyph t st with
  | zero => omega
  | succ steps ih =>
    by_cases hs : s < image.length
    · obtain ⟨t₁, hrun, ht₁⟩ := run_readTable_succ hs steps glyph t st
      have hnext := image.lt_next s glyph
      obtain ⟨t', st', hrest, hin, ht'⟩ :=
        @ih (image.next s glyph).1 (image.next s glyph).2 t₁ _ (by omega) (hst.read hs)
      refine ⟨t', st', hrun.trans hrest, hin, fun c hc => ?_⟩
      rcases ht' c hc with hlast | ⟨habsent, heq⟩
      · exact .inl (hlast.of_next hs)
      by_cases hbyte : c = image.bytes.get8 s
      · rw [heq, ht₁ c hc, if_pos hbyte]
        subst hbyte
        exact .inl (habsent.last_here hs)
      · rw [heq, ht₁ c hc, if_neg hbyte]
        exact .inr ⟨habsent.of_next (Ne.symm hbyte), rfl⟩
    · refine ⟨t, st, ?_, hst, fun c _ => .inr ⟨fun p g hp => ?_, rfl⟩⟩
      · simp only [readTable, hs, if_false, EStateM.run_pure]
      · cases hp with
        | here h => exact absurd h hs
        | next h => exact absurd h hs

/-! ## The bitmaps -/

variable {st : FontState}

theorem run_cachePixel (h : image.Psf2) (hst : image.Inside st) {i y x : Nat}
    (hi : i < image.header.numglyph) (hy : y < image.header.size.height)
    (hx : x < image.header.size.width) :
    ∃ st', (cachePixel image image.header i y x).run st = .ok () st' ∧ image.Inside st' := by
  have hpixel : x + y * image.header.size.width <
      image.header.size.width * image.header.size.height := by
    have := Nat.mul_le_mul_left image.header.size.width (Nat.succ_le_of_lt hy)
    rw [Nat.mul_succ, Nat.mul_comm _ y] at this
    omega
  have hbyte : image.header.headersize + i * image.header.bytesperglyph +
      y * ((image.header.size.width + 7) % 2 ^ 32 / 8) + x / 8 < image.length := by
    have hline : (image.header.size.width + 7) % 2 ^ 32 / 8 ≤ image.header.lineBytes :=
      Nat.div_le_div_right (Nat.mod_le _ _)
    have hx8 : x / 8 < image.header.lineBytes := by unfold PSFHeader.lineBytes; omega
    have hrows := Nat.mul_le_mul_right image.header.lineBytes (Nat.succ_le_of_lt hy)
    have hglyphs := Nat.mul_le_mul_right image.header.bytesperglyph (Nat.succ_le_of_lt hi)
    have hrow := Nat.mul_le_mul_left y hline
    have := h.glyph_le
    have := h.bitmaps_le
    rw [Nat.succ_mul] at hrows hglyphs
    omega
  refine ⟨_, run_bind_ok.2 ⟨(), st, run_kassert_true (decide_eq_true hpixel), rfl⟩, hst.read hbyte⟩

theorem run_calcGlyphsCaches (h : image.Psf2) (hst : image.Inside st) :
    ∃ st', (calcGlyphsCaches image image.header).run st = .ok () st' ∧ image.Inside st' := by
  refine run_forRange_returns (P := fun _ t => image.Inside t) (fun i t _ hi ht => ?_) hst
  refine run_forRange_returns (P := fun _ t => image.Inside t) (fun y t _ hy ht => ?_) ht
  refine run_forRange_returns (P := fun _ t => image.Inside t) (fun x t _ hx ht => ?_) ht
  exact run_cachePixel h ht (by omega) (by omega) (by omega)

/-! ## The font -/

/-- The glyph that is selected for the ASCII character `c`, by what the image says. -/
def Selects (image : PSFImage) (c g : Nat) : Prop :=
  if image.header.flags = 0 then
    image.Last image.loopStart 0 c g ∨ (image.Absent image.loopStart 0 c ∧ g = 0)
  else g = c

theorem run_readAsciiTable (hst : image.Inside st) :
    ∃ t st', (readAsciiTable image).run st = .ok t st' ∧ image.Inside st' ∧
      ∀ c < asciiTableSize, image.Selects c (if image.hasTable then t c else c) := by
  unfold readAsciiTable Selects
  by_cases hflags : image.header.flags = 0
  · have htable : image.hasTable = true := beq_iff_eq.2 hflags
    simp only [htable, hflags, if_true]
    exact run_readTable (by omega) hst
  · have htable : image.hasTable = false := beq_eq_false_iff_ne.2 hflags
    simp only [htable, hflags, if_false]
    exact ⟨_, st, EStateM.run_pure _ _, hst, fun _ _ => rfl⟩

def emptyFontState : FontState := ⟨[], fun _ _ => false⟩

theorem inside_touchHeader (h : image.Psf2) :
    image.Inside ⟨List.range' 8 24 ++ (List.range' 0 4 ++ emptyFontState.reads),
      emptyFontState.pixels⟩ := by
  intro o ho
  have := h.header_le
  simp only [emptyFontState, List.append_nil, List.mem_append, List.mem_range'_1] at ho
  omega

theorem run_getDefaultPSFFont (h : image.Psf2) :
    ∃ font st, (getDefaultPSFFont image).run emptyFontState = .ok (some font) st ∧
      image.Inside st ∧ ∀ c, isExtendedAscii c = false → image.Selects c.toNat (font.unicode c) := by
  obtain ⟨t, st, htable, hst, ht⟩ := run_readAsciiTable (inside_touchHeader h)
  obtain ⟨st', hcaches, hst'⟩ := run_calcGlyphsCaches h hst
  refine ⟨image.font t st'.pixels, st', ?_, hst', fun c hc => ht _ (toNat_lt_of_ascii hc)⟩
  simp only [getDefaultPSFFont, touchHeader, run_modify_bind, h.magic_eq, ne_eq, not_true_eq_false,
    if_false]
  rw [run_ok_bind htable, run_ok_bind hcaches]
  rfl

/-- The font is right: the image is not read past its end, and each ASCII character has its
glyph. -/
def FontRight (image : PSFImage) : Prop :=
  ∃ font st, (getDefaultPSFFont image).run emptyFontState = .ok (some font) st ∧
    (∀ o ∈ st.reads, o < image.length) ∧
    ∀ c, isExtendedAscii c = false →
      image.GlyphOf c.toNat (font.unicode c) ∧ font.unicode c < image.header.numglyph

/-- The image is one for which the turned flag makes no difference: the table, or what is taken
for it, gives each ASCII character the glyph of its own number. -/
structure Numbered (image : PSFImage) : Prop where
  glyphs : asciiTableSize ≤ image.header.numglyph
  flag : image.header.flags.testBit 0 = true →
    ∀ c < asciiTableSize, (∃ r, image.Lists r c) → image.Lists c c
  no_flags : image.header.flags = 0 →
    ∀ c < asciiTableSize, image.Last image.loopStart 0 c c ∨
      (c = 0 ∧ image.Absent image.loopStart 0 c)

theorem ascii_ofNat {c : Nat} (hc : c < asciiTableSize) :
    isExtendedAscii (BitVec.ofNat 8 c) = false ∧ (BitVec.ofNat 8 c).toNat = c := by
  revert c
  decide +kernel

/-- A glyph that is selected is the right one for `Numbered` images, and is that of the character's
own number. -/
theorem Numbered.right (h : image.Numbered) {c g : Nat} (hc : c < asciiTableSize)
    (hg : image.Selects c g) : image.GlyphOf c g ∧ g < image.header.numglyph := by
  have hgc : g = c := by
    unfold Selects at hg
    split at hg
    case isFalse => exact hg
    case isTrue hflags =>
      rcases hg with hlast | ⟨habsent, rfl⟩
      · rcases h.no_flags hflags c hc with hlast' | ⟨_, habsent⟩
        · exact hlast.unique hlast'
        · exact absurd habsent hlast.not_absent
      · rcases h.no_flags hflags c hc with hlast' | ⟨rfl, _⟩
        · exact absurd habsent hlast'.not_absent
        · rfl
  subst hgc
  refine ⟨?_, Nat.lt_of_lt_of_le hc h.glyphs⟩
  unfold GlyphOf
  split
  case isTrue hflag => exact h.flag hflag g hc
  case isFalse => rfl

theorem numbered_of_right {f : Nat → Nat} (hsel : ∀ c < asciiTableSize, image.Selects c (f c))
    (hright : ∀ c < asciiTableSize, image.GlyphOf c (f c) ∧ f c < image.header.numglyph) :
    image.Numbered := by
  -- the flag is clear, or the selected glyph has the number of the character
  have hown : ∀ c < asciiTableSize, f c = c := by
    intro c hc
    have hs := hsel c hc
    have hg := (hright c hc).1
    unfold Selects at hs
    unfold GlyphOf at hg
    split at hs
    case isFalse => exact hs
    case isTrue hflags => simpa [hflags] using hg
  refine ⟨?_, fun hflag c hc => ?_, fun hflags c hc => ?_⟩
  · have hlast := (hright 127 (by decide)).2
    rw [hown 127 (by decide)] at hlast
    exact hlast
  · have hg := (hright c hc).1
    rwa [hown c hc, GlyphOf, if_pos hflag] at hg
  · have hs := hsel c hc
    rw [hown c hc, Selects, if_pos hflags] at hs
    exact hs.imp_right fun h => ⟨h.2, h.1⟩

/-- The font of a PSF2 image is right exactly if there are 128 glyphs, and the table, if the flag
is set, or else the bytes behind the bitmaps, if no flag is, give each ASCII character the glyph of
its own number. -/
theorem fontRight_iff (h : image.Psf2) : image.FontRight ↔ image.Numbered := by
  obtain ⟨font, st, hrun, hst, hsel⟩ := run_getDefaultPSFFont h
  constructor
  · rintro ⟨font', st', hrun', _, hright⟩
    rw [hrun] at hrun'
    cases hrun'
    refine numbered_of_right (f := fun c => font.unicode (BitVec.ofNat 8 c)) ?_ ?_
    · intro c hc
      have hascii := ascii_ofNat hc
      simpa only [hascii.2] using hsel _ hascii.1
    · intro c hc
      have hascii := ascii_ofNat hc
      simpa only [hascii.2] using hright _ hascii.1
  · intro hnum
    exact ⟨font, st, hrun, hst, fun c hc => hnum.right (toNat_lt_of_ascii hc) (hsel c hc)⟩

def tiny (flags numglyph : UInt8) (table : List UInt8) : PSFImage where
  bytes := Bytes.ofList
    ([0x72, 0xb5, 0x4a, 0x86, 0, 0, 0, 0, 32, 0, 0, 0, flags, 0, 0, 0, numglyph, 0, 0, 0,
      1, 0, 0, 0, 1, 0, 0, 0, 1, 0, 0, 0] ++ List.replicate numglyph.toNat 0 ++ table)
  length := 32 + numglyph.toNat + table.length

/-- A table in which every glyph has the ASCII character of its number. -/
def plainTable : List UInt8 := (List.range 128).flatMap fun c => [UInt8.ofNat c, 0xFF]

theorem fontRight_plainTable :
    (tiny 1 128 plainTable).Psf2 ∧ (tiny 1 128 plainTable).FontRight := by
  have hpsf : (tiny 1 128 plainTable).Psf2 := by decide +kernel
  have hrecords : (tiny 1 128 plainTable).table.splitOnP (· == 0xFF) =
      (List.range 128).map (fun c => [UInt8.ofNat c]) ++ [[]] := by decide +kernel
  have hlists : ∀ c < asciiTableSize, (tiny 1 128 plainTable).Lists c c := by
    unfold Lists
    rw [hrecords]
    decide +kernel
  exact ⟨hpsf, (fontRight_iff hpsf).2
    ⟨by decide +kernel, fun _ c hc _ => hlists c hc, fun h => absurd h (by decide +kernel)⟩⟩

/-- The glyph that is drawn for `c`. -/
def selected (image : PSFImage) (c : BitVec 8) : Option Nat :=
  match (getDefaultPSFFont image).run emptyFontState with
  | .ok (some font) _ => some (font.unicode c)
  | _ => none

/-- With a table that lists `A` for glyph 0 alone, `A` is drawn with glyph 65; without a table it is
drawn with glyph 0; and with one glyph only it is drawn with glyph 65. -/
theorem font_misread :
    ((tiny 1 128 [0x41, 0xFF]).Psf2 ∧ (tiny 1 128 [0x41, 0xFF]).Lists 0 65 ∧
      (tiny 1 128 [0x41, 0xFF]).selected 65 = some 65 ∧
      ¬ (tiny 1 128 [0x41, 0xFF]).Lists 65 65) ∧
    ((tiny 0 128 []).Psf2 ∧ (tiny 0 128 []).selected 65 = some 0) ∧
    ((tiny 1 1 [0x41, 0xFF]).Psf2 ∧ (tiny 1 1 [0x41, 0xFF]).selected 65 = some 65) := by
  decide +kernel

end PSFImage

end GarbageOS
