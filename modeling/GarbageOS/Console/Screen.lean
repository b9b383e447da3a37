import GarbageOS.Kernel.Defs
import GarbageOS.Lib.Runs

/-!
# `kio.c` and `psf.c`: drawing the text

`kio.c` keeps an image of the screen in memory. `unsync_write_char` draws a character into it at
the cursor, and moves the lines up when the last one is full. The model keeps the indices of the
image that were read or written, whether they are inside it or not.
-/

namespace GarbageOS

open Lib

structure Pixel where
  b : BitVec 8
  g : BitVec 8
  r : BitVec 8
  a : BitVec 8
  deriving DecidableEq

structure Color where
  r : BitVec 8
  g : BitVec 8
  b : BitVec 8
  a : BitVec 8
  deriving DecidableEq

def colorToPixel (c : Color) : Pixel := ⟨c.b, c.g, c.r, c.a⟩

structure Size where
  width : Nat
  height : Nat
  width_lt : width < 2 ^ 32
  height_lt : height < 2 ^ 32

structure CachedGlyph where
  pixels : Option (Nat → Bool)

def asciiTableSize : Nat := 128

/-- A font with the size of its characters, from the header. -/
structure PSFFont where
  header : Size
  numglyph : Nat
  hasTable : Bool
  asciiTable : Nat → Nat
  glyphs : Option (Nat → CachedGlyph)

/-- `kio_state` as far as drawing goes. -/
structure Screen where
  display : Size
  font : PSFFont
  nextX : Nat
  nextY : Nat
  screenSize : Nat
  backgroundColor : Color
  fontColor : Color
  buffer : Nat → Pixel
  /-- The indices that were used, the last one first. -/
  touched : List Nat

abbrev ScreenM := EStateM Stop Screen

def readPixel (i : Nat) : ScreenM Pixel := do
  modify fun s => { s with touched := i :: s.touched }
  return (← get).buffer i

def writePixel (i : Nat) (p : Pixel) : ScreenM Unit :=
  modify fun s =>
    { s with buffer := fun j => if j = i then p else s.buffer j, touched := i :: s.touched }

def newline : BitVec 8 := 10

/-! ## `write_PSF_char` -/

section

variable (glyph : CachedGlyph) (fontPixel backgroundPixel : Pixel) (fontWidth : Nat)

def drawPixel (y displayOffset x : Nat) : ScreenM Unit :=
  match glyph.pixels with
  | none => kpanic .failedAssert
  | some pixels =>
    writePixel (add64 displayOffset x)
      (if pixels (y * fontWidth + x) then fontPixel else backgroundPixel)

/-- The rows of the glyph from `y` on; `stride` is the width of the image. -/
def drawRows (stride : Nat) : (rows y displayOffset : Nat) → ScreenM Unit
  | 0, _, _ => pure ()
  | rows + 1, y, displayOffset => do
    forRange (drawPixel glyph fontPixel backgroundPixel fontWidth y displayOffset) fontWidth 0
    drawRows stride rows (y + 1) (add64 displayOffset stride)

end

def PSFFont.unicode (font : PSFFont) (c : BitVec 8) : Nat :=
  if font.hasTable then font.asciiTable c.toNat else c.toNat

def isExtendedAscii (c : BitVec 8) : Bool := c &&& 128 ≠ 0

def writePSFChar (font : PSFFont) (c : BitVec 8) (x y : Nat) (bufferSize : Size)
    (backgroundColor fontColor : Color) : ScreenM Bool := do
  if isExtendedAscii c then return false
  onlyIf (font.hasTable = true) (kassert (c.toNat < asciiTableSize))
  match font.glyphs with
  | none => kpanic .failedAssert
  | some glyphs => do
    drawRows (glyphs (font.unicode c)) (colorToPixel fontColor) (colorToPixel backgroundColor)
      font.header.width bufferSize.width font.header.height 0
      (add64 (y * bufferSize.width) x)
    return true

/-! ## `unsync_write_char` -/

/-- Moves the image up by a line of text. The counters of the loops and the products have 32 bits,
as `screen_size` has. -/
def scrollUp : ScreenM Unit := do
  let s ← get
  let offset := s.display.width * s.font.header.height % 2 ^ 32
  forRange (fun i => do
    let p ← readPixel i
    writePixel (sub64 i offset) p) (s.screenSize - offset) offset
  let start := sub64 s.screenSize offset % 2 ^ 32
  forRange (fun i => writePixel i (colorToPixel s.backgroundColor)) (s.screenSize - start) start

def nextLine : ScreenM Unit := do
  let s ← get
  onlyIf (add64 s.nextY (s.font.header.height * 2 % 2 ^ 32) ≥ s.display.height) (do
    modify fun s => { s with nextY := sub64 s.nextY s.font.header.height }
    scrollUp)
  modify fun s => { s with nextX := 0, nextY := add64 s.nextY s.font.header.height }

def drawChar (c : BitVec 8) : ScreenM Unit := do
  let s ← get
  let _ ← writePSFChar s.font c s.nextX s.nextY s.display s.backgroundColor s.fontColor
  modify fun s => { s with nextX := add64 s.nextX s.font.header.width }

def unsyncWriteChar (c : BitVec 8) : ScreenM Unit := do
  let s ← get
  onlyIf (add64 s.nextX s.font.header.width ≥ s.display.width ∨ c = newline) nextLine
  onlyIf (c ≠ newline) (drawChar c)

def writeText : List (BitVec 8) → ScreenM Unit
  | [] => pure ()
  | c :: text => do
    unsyncWriteChar c
    writeText text

/-- `init_kio`: `contents` is what `kmalloc` leaves in the image. -/
def Screen.init (display : Size) (font : PSFFont) (backgroundColor fontColor : Color)
    (contents : Nat → Pixel) : Screen :=
  { display, font, backgroundColor, fontColor
    nextX := 0
    nextY := 0
    screenSize := display.height * display.width % 2 ^ 32
    buffer := contents
    touched := [] }

def clearScreen : ScreenM Unit := do
  let s ← get
  forRange (fun i => writePixel i (colorToPixel s.backgroundColor)) s.screenSize 0

end GarbageOS
