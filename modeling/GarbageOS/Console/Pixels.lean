import GarbageOS.Console.Screen
import Mathlib.Algebra.Order.Ring.Nat

/-!
# Where the console draws

Whatever text is written, moving the lines up stays inside the image and the cursor stays at a cell
that the display has room for, unless the height of a line needs the 32nd bit. A cell of the display
need not be inside the image, whose size is the 32-bit product of width and height.
-/

namespace GarbageOS

open Lib

/-! ## What a step does -/

/-- From `s` to `s'` the cursor went to `(x, y)`, and the indices in `new` were used. -/
structure Moves (x y : Nat) (new : Nat → Prop) (s s' : Screen) : Prop where
  same : s' = { s with nextX := x, nextY := y, buffer := s'.buffer, touched := s'.touched }
  mem : ∀ i, i ∈ s'.touched ↔ i ∈ s.touched ∨ new i

def Draws {α : Type} (act : ScreenM α) (s : Screen) (x y : Nat) (new : Nat → Prop) : Prop :=
  ∃ a s', act.run s = .ok a s' ∧ Moves x y new s s'

section

variable {α β : Type} {x y x' y' : Nat} {new new' : Nat → Prop} {s t u : Screen}

namespace Moves

theorem refl (s : Screen) : Moves s.nextX s.nextY (fun _ => False) s s :=
  ⟨rfl, fun i => by simp⟩

section

variable (h : Moves x y new s t)

include h

theorem trans (h' : Moves x' y' new' t u) : Moves x' y' (fun i => new i ∨ new' i) s u := by
  obtain ⟨hst, hmem⟩ := h
  obtain ⟨htu, hmem'⟩ := h'
  refine ⟨?_, fun i => ?_⟩
  · rw [htu, hst]
  · rw [hmem', hmem, or_assoc]

theorem congr (hnew : ∀ i, new i ↔ new' i) : Moves x y new' s t :=
  ⟨h.same, fun i => by rw [h.mem, hnew]⟩

theorem nextX : t.nextX = x := by rw [h.same]

theorem nextY : t.nextY = y := by rw [h.same]

theorem display : t.display = s.display := by rw [h.same]

theorem font : t.font = s.font := by rw [h.same]

theorem screenSize : t.screenSize = s.screenSize := by rw [h.same]

end

end Moves

namespace Draws

theorem congr {act : ScreenM α} (h : Draws act s x y new) (hnew : ∀ i, new i ↔ new' i) :
    Draws act s x y new' := by
  obtain ⟨a, t, hrun, hmoves⟩ := h
  exact ⟨a, t, hrun, hmoves.congr hnew⟩

theorem bind {act : ScreenM α} {f : α → ScreenM β} (h : Draws act s x y new)
    (hf : ∀ a t, Moves x y new s t → Draws (f a) t x' y' new') :
    Draws (act >>= f) s x' y' fun i => new i ∨ new' i := by
  obtain ⟨a, t, hrun, hmoves⟩ := h
  obtain ⟨b, u, hrun', hmoves'⟩ := hf a t hmoves
  exact ⟨b, u, by rw [run_ok_bind hrun, hrun'], hmoves.trans hmoves'⟩

theorem pure (a : α) : Draws (pure a) s s.nextX s.nextY fun _ => False :=
  ⟨a, s, EStateM.run_pure a s, .refl s⟩

theorem stay {act : ScreenM α} {f : α → ScreenM β} (h : Draws act s s.nextX s.nextY new)
    (hf : ∀ a t, Draws (f a) t t.nextX t.nextY new') :
    Draws (act >>= f) s s.nextX s.nextY fun i => new i ∨ new' i := by
  refine h.bind fun a t hmoves => ?_
  have hrest := hf a t
  rwa [hmoves.nextX, hmoves.nextY] at hrest

theorem get {f : Screen → ScreenM α} (h : Draws (f s) s x y new) : Draws (get >>= f) s x y new := by
  obtain ⟨a, t, hrun, hmoves⟩ := h
  exact ⟨a, t, by rw [run_get_bind, hrun], hmoves⟩

theorem forRange {f : Nat → ScreenM Unit} {used : Nat → Nat → Prop} {count start : Nat}
    (h : ∀ i t, start ≤ i → i < start + count → Draws (f i) t t.nextX t.nextY (used i)) :
    Draws (forRange f count start) s s.nextX s.nextY fun j =>
      ∃ i, start ≤ i ∧ i < start + count ∧ used i j := by
  induction count generalizing start s with
  | zero => exact (Draws.pure ()).congr fun j => ⟨False.elim, fun ⟨i, _, _, _⟩ => by omega⟩
  | succ count ih =>
    have hall := (h start s (Nat.le_refl _) (by omega)).stay fun _ t =>
      @ih t (start + 1) fun i t hlo hhi => h i t (by omega) (by omega)
    refine hall.congr fun j => ⟨?_, ?_⟩
    · rintro (hj | ⟨i, hlo, hhi, hj⟩)
      · exact ⟨start, Nat.le_refl _, by omega, hj⟩
      · exact ⟨i, by omega, by omega, hj⟩
    · rintro ⟨i, hlo, hhi, hj⟩
      rcases Nat.eq_or_lt_of_le hlo with rfl | hlt
      · exact .inl hj
      · exact .inr ⟨i, hlt, by omega, hj⟩

end Draws

theorem draws_writePixel (i : Nat) (p : Pixel) :
    Draws (writePixel i p) s s.nextX s.nextY fun j => j = i :=
  ⟨(), _, EStateM.run_modify .., rfl, fun j => by simp [or_comm]⟩

theorem draws_readPixel (i : Nat) : Draws (readPixel i) s s.nextX s.nextY fun j => j = i :=
  ⟨s.buffer i, { s with touched := i :: s.touched }, rfl, rfl, fun j => by simp [or_comm]⟩

/-! ## Drawing a character -/

def InCell (stride width height x y i : Nat) : Prop :=
  ∃ dy < height, ∃ dx < width, i = (y * stride + x + dy * stride + dx) % 2 ^ 64

theorem draws_drawRows {glyph : CachedGlyph} {fontPixel backgroundPixel : Pixel}
    {fontWidth stride : Nat} (hpixels : glyph.pixels ≠ none) (rows y offset : Nat) :
    Draws (drawRows glyph fontPixel backgroundPixel fontWidth stride rows y offset) s s.nextX s.nextY
      fun i => ∃ dy < rows, ∃ dx < fontWidth, i = (offset + dy * stride + dx) % 2 ^ 64 := by
  obtain ⟨pixels, hpixels⟩ := Option.ne_none_iff_exists'.1 hpixels
  induction rows generalizing s y offset with
  | zero => exact (Draws.pure ()).congr fun i => by simp
  | succ rows ih =>
    have hrow : Draws (forRange (drawPixel glyph fontPixel backgroundPixel fontWidth y offset)
        fontWidth 0) s s.nextX s.nextY fun i =>
        ∃ dx, 0 ≤ dx ∧ dx < 0 + fontWidth ∧ i = add64 offset dx := by
      refine Draws.forRange fun dx t _ _ => ?_
      rw [drawPixel, hpixels]
      exact draws_writePixel ..
    have hall := hrow.stay fun _ t => @ih t (y + 1) (add64 offset stride)
    refine hall.congr fun i => ⟨?_, ?_⟩
    · rintro (⟨dx, _, hdx, rfl⟩ | ⟨dy, hdy, dx, hdx, rfl⟩)
      · exact ⟨0, by omega, dx, by omega, by rw [Nat.zero_mul, Nat.add_zero, add64]⟩
      · refine ⟨dy + 1, by omega, dx, hdx, ?_⟩
        rw [add64, Nat.succ_mul]
        omega
    · rintro ⟨dy, hdy, dx, hdx, rfl⟩
      cases dy with
      | zero => exact .inl ⟨dx, by omega, by omega, by rw [Nat.zero_mul, Nat.add_zero, add64]⟩
      | succ dy =>
        refine .inr ⟨dy, by omega, dx, hdx, ?_⟩
        rw [add64, Nat.succ_mul]
        omega

/-- A font whose glyphs are cached, with a glyph for every ASCII character. -/
structure PSFFont.Valid (font : PSFFont) : Prop where
  unicode_lt : ∀ c, isExtendedAscii c = false → font.unicode c < font.numglyph
  cached : ∃ glyphs, font.glyphs = some glyphs ∧ ∀ i < font.numglyph, (glyphs i).pixels ≠ none

theorem toNat_lt_of_ascii {c : BitVec 8} (h : isExtendedAscii c = false) :
    c.toNat < asciiTableSize := by
  revert c
  decide

theorem draws_writePSFChar {font : PSFFont} (hfont : font.Valid) (c : BitVec 8) (x y : Nat)
    (size : Size) (backgroundColor fontColor : Color) :
    Draws (writePSFChar font c x y size backgroundColor fontColor) s s.nextX s.nextY fun i =>
      isExtendedAscii c = false ∧ InCell size.width font.header.width font.header.height x y i := by
  unfold writePSFChar
  cases hc : isExtendedAscii c with
  | true => exact (Draws.pure false).congr fun i => by simp
  | false =>
    obtain ⟨glyphs, hglyphs, hcached⟩ := hfont.cached
    have hcheck : Draws (onlyIf (font.hasTable = true) (kassert (c.toNat < asciiTableSize))) s s.nextX
        s.nextY fun _ => False := by
      refine ⟨(), s, ?_, .refl s⟩
      by_cases htable : font.hasTable = true
      · rw [onlyIf_pos htable, run_kassert_true (decide_eq_true (toNat_lt_of_ascii hc))]
      · rw [onlyIf_neg htable, EStateM.run_pure]
    have hrows := fun t => @draws_drawRows t (glyphs (font.unicode c)) (colorToPixel fontColor)
      (colorToPixel backgroundColor) font.header.width size.width
      (hcached _ (hfont.unicode_lt c hc)) font.header.height 0 (add64 (y * size.width) x)
    have hall := hcheck.stay fun _ t => (hrows t).stay fun _ u => @Draws.pure _ u true
    simp only [hglyphs]
    refine Draws.congr hall fun i => ?_
    simp only [false_or, or_false, true_and, InCell, add64]
    constructor
    · rintro ⟨dy, hdy, dx, hdx, rfl⟩
      exact ⟨dy, hdy, dx, hdx, by omega⟩
    · rintro ⟨dy, hdy, dx, hdx, rfl⟩
      exact ⟨dy, hdy, dx, hdx, by omega⟩

/-! ## Moving the lines up -/

def Screen.lineSize (s : Screen) : Nat := s.display.width * s.font.header.height % 2 ^ 32

/-- Moving the lines up uses the whole image, or nothing if a line is larger than the image. -/
theorem draws_scrollUp (hsize : s.screenSize < 2 ^ 32) :
    Draws scrollUp s s.nextX s.nextY fun j => s.lineSize ≤ s.screenSize ∧ j < s.screenSize := by
  have hlt : s.lineSize < 2 ^ 32 := Nat.mod_lt _ (by decide)
  set start := sub64 s.screenSize s.lineSize % 2 ^ 32 with hstart
  have hcopy : Draws (forRange (fun i => do
      let p ← readPixel i
      writePixel (sub64 i s.lineSize) p) (s.screenSize - s.lineSize) s.lineSize) s s.nextX s.nextY
      fun j => ∃ i, s.lineSize ≤ i ∧ i < s.lineSize + (s.screenSize - s.lineSize) ∧
        (j = i ∨ j = sub64 i s.lineSize) :=
    Draws.forRange fun i t _ _ => (draws_readPixel i).stay fun p u => draws_writePixel _ p
  have hclear := fun t => @Draws.forRange t
    (fun i => writePixel i (colorToPixel s.backgroundColor)) (fun i j => j = i)
    (s.screenSize - start) start fun i t _ _ => draws_writePixel ..
  refine Draws.congr (Draws.get (hcopy.stay fun _ t => hclear t)) fun j => ⟨?_, ?_⟩
  · rintro (⟨i, hlo, hhi, rfl | rfl⟩ | ⟨i, hlo, hhi, rfl⟩)
    · omega
    · rw [sub64_eq hlo (by omega)]
      omega
    · -- the second loop starts behind the image if the line is larger
      rw [sub64] at hstart
      omega
  · rintro ⟨hle, hj⟩
    rw [sub64_eq hle (by omega)] at hstart
    by_cases hlow : j < s.screenSize - s.lineSize
    · refine .inl ⟨j + s.lineSize, by omega, by omega, .inr ?_⟩
      rw [sub64_eq (by omega) (by omega), Nat.add_sub_cancel]
    · exact .inr ⟨j, by omega, by omega, rfl⟩

/-- A line below the cursor's would not fit. -/
def Screen.AtBottom (s : Screen) : Prop :=
  s.nextY + s.font.header.height * 2 % 2 ^ 32 ≥ s.display.height

instance (s : Screen) : Decidable s.AtBottom := inferInstanceAs (Decidable (_ ≥ _))

def Screen.lineBelow (s : Screen) : Nat :=
  if s.AtBottom then s.nextY else s.nextY + s.font.header.height

theorem draws_nextLine (hsize : s.screenSize < 2 ^ 32) (hy : s.nextY ≤ 2 ^ 32) :
    Draws nextLine s 0 s.lineBelow fun j =>
      s.AtBottom ∧ s.lineSize ≤ s.screenSize ∧ j < s.screenSize := by
  have hheight := s.font.header.height_lt
  have hwrap : add64 s.nextY (s.font.header.height * 2 % 2 ^ 32) =
      s.nextY + s.font.header.height * 2 % 2 ^ 32 := add64_eq (by omega)
  have hdown : ∀ t y, t.font = s.font → t.nextY = y →
      Draws (modify fun s => { s with nextX := 0, nextY := add64 s.nextY s.font.header.height }) t 0
        (add64 y s.font.header.height) fun _ => False := by
    intro t y hfont hy
    exact ⟨(), _, EStateM.run_modify .., by rw [hfont, hy], fun i => by simp⟩
  refine Draws.get ?_
  rw [hwrap, Screen.lineBelow]
  by_cases hbottom : s.AtBottom
  · have hcond : s.nextY + s.font.header.height * 2 % 2 ^ 32 ≥ s.display.height := hbottom
    rw [if_pos hbottom, onlyIf_pos hcond]
    have hup : Draws (modify fun s => { s with nextY := sub64 s.nextY s.font.header.height }) s s.nextX
        (sub64 s.nextY s.font.header.height) fun _ => False :=
      ⟨(), _, EStateM.run_modify .., rfl, fun i => by simp⟩
    have hscroll := hup.bind fun _ t hmoves => by
      have h := @draws_scrollUp t (by rw [hmoves.screenSize]; exact hsize)
      simp only [Screen.lineSize] at h
      rw [hmoves.nextX, hmoves.nextY, hmoves.display, hmoves.font, hmoves.screenSize] at h
      exact h
    have hall := hscroll.bind fun _ t hmoves => hdown t _ hmoves.font hmoves.nextY
    have hback : add64 (sub64 s.nextY s.font.header.height) s.font.header.height = s.nextY := by
      rw [add64, sub64]
      omega
    rw [hback] at hall
    exact Draws.congr hall fun j => by simp [hbottom, Screen.lineSize]
  · have hcond : ¬ s.nextY + s.font.header.height * 2 % 2 ^ 32 ≥ s.display.height := hbottom
    rw [if_neg hbottom, onlyIf_neg hcond]
    have hall := (@Draws.pure _ s ()).bind fun _ t hmoves => hdown t _ hmoves.font hmoves.nextY
    rw [add64_eq (by omega)] at hall
    exact Draws.congr hall fun j => by simp [hbottom]

/-! ## Writing a character -/

theorem draws_drawChar (hfont : s.font.Valid) (hx : s.nextX ≤ 2 ^ 32) (c : BitVec 8) :
    Draws (drawChar c) s (s.nextX + s.font.header.width) s.nextY fun i =>
      isExtendedAscii c = false ∧
        InCell s.display.width s.font.header.width s.font.header.height s.nextX s.nextY i := by
  have hwidth := s.font.header.width_lt
  have hwrite := @draws_writePSFChar s s.font hfont c s.nextX s.nextY s.display s.backgroundColor
    s.fontColor
  have hall := hwrite.bind fun _ t hmoves => by
    have hmove : Draws (modify fun s => { s with nextX := add64 s.nextX s.font.header.width }) t
        (add64 t.nextX t.font.header.width) t.nextY fun _ => False :=
      ⟨(), _, EStateM.run_modify .., rfl, fun i => by simp⟩
    rw [hmoves.nextX, hmoves.nextY, hmoves.font, add64_eq (by omega)] at hmove
    exact hmove
  exact Draws.congr (Draws.get hall) fun i => by simp

/-- Where the cursor is when `c` is drawn. -/
def Screen.cellX (s : Screen) (c : BitVec 8) : Nat :=
  if s.nextX + s.font.header.width ≥ s.display.width ∨ c = newline then 0 else s.nextX

def Screen.cellY (s : Screen) (c : BitVec 8) : Nat :=
  if s.nextX + s.font.header.width ≥ s.display.width ∨ c = newline then s.lineBelow else s.nextY

/-- The cell that `c` is drawn into, if it is drawn. -/
def Screen.Drawn (s : Screen) (c : BitVec 8) (i : Nat) : Prop :=
  c ≠ newline ∧ isExtendedAscii c = false ∧
    InCell s.display.width s.font.header.width s.font.header.height (s.cellX c) (s.cellY c) i

def Screen.Scrolled (s : Screen) (c : BitVec 8) (i : Nat) : Prop :=
  (s.nextX + s.font.header.width ≥ s.display.width ∨ c = newline) ∧ s.AtBottom ∧
    s.lineSize ≤ s.screenSize ∧ i < s.screenSize

theorem draws_unsyncWriteChar (hfont : s.font.Valid) (hsize : s.screenSize < 2 ^ 32)
    (hx : s.nextX ≤ 2 ^ 32) (hy : s.nextY ≤ 2 ^ 32) (c : BitVec 8) :
    Draws (unsyncWriteChar c) s
      (if c = newline then s.cellX c else s.cellX c + s.font.header.width) (s.cellY c)
      fun i => s.Scrolled c i ∨ s.Drawn c i := by
  have hwidth := s.font.header.width_lt
  have hwrap : add64 s.nextX s.font.header.width = s.nextX + s.font.header.width :=
    add64_eq (by omega)
  have hline : Draws (onlyIf (s.nextX + s.font.header.width ≥ s.display.width ∨ c = newline) nextLine)
      s (s.cellX c) (s.cellY c) (s.Scrolled c) := by
    rw [Screen.cellX, Screen.cellY]
    by_cases hwraps : s.nextX + s.font.header.width ≥ s.display.width ∨ c = newline
    · rw [if_pos hwraps, if_pos hwraps, onlyIf_pos hwraps]
      exact (draws_nextLine hsize hy).congr fun i => by simp [Screen.Scrolled, hwraps]
    · rw [if_neg hwraps, if_neg hwraps, onlyIf_neg hwraps]
      exact (Draws.pure ()).congr fun i => by simp [Screen.Scrolled, hwraps]
  refine Draws.get ?_
  rw [hwrap]
  by_cases hc : c = newline
  · rw [if_pos hc]
    have hall := hline.bind fun _ t hmoves => by
      have h := @Draws.pure _ t ()
      rwa [hmoves.nextX, hmoves.nextY] at h
    rw [onlyIf_neg (not_not.2 hc)]
    exact Draws.congr hall fun i => by simp [Screen.Drawn, hc]
  · rw [if_neg hc, onlyIf_pos hc]
    have hcell : s.cellX c ≤ 2 ^ 32 := by
      rw [Screen.cellX]
      split <;> omega
    have hall := hline.bind fun _ t hmoves => by
      have h := @draws_drawChar t (by rw [hmoves.font]; exact hfont) (by rw [hmoves.nextX]; exact hcell) c
      rwa [hmoves.nextX, hmoves.nextY, hmoves.font, hmoves.display] at h
    exact Draws.congr hall fun i => by simp [Screen.Drawn, hc]

end

/-! ## The cells -/

section

variable (display : Size) (font : PSFFont)

def lastRow : Nat := ((display.height - 1) / font.header.height - 1) * font.header.height

def lastColumn : Nat :=
  (display.width - font.header.width - 1) / font.header.width * font.header.width

def lastPixel : Nat :=
  (lastRow display font + (font.header.height - 1)) * display.width +
    (lastColumn display font + (font.header.width - 1))

end

section

variable {display : Size} {font : PSFFont} {s : Screen}

theorem lastRow_add_le (hh : font.header.height ≤ display.height) :
    lastRow display font + font.header.height ≤ display.height := by
  rw [lastRow, ← Nat.succ_mul]
  have hdiv := Nat.div_mul_le_self (display.height - 1) font.header.height
  cases hq : (display.height - 1) / font.header.height with
  | zero => simpa using hh
  | succ q =>
    rw [hq] at hdiv
    exact Nat.le_trans hdiv (Nat.sub_le _ _)

theorem lastColumn_add_le (hw : font.header.width ≤ display.width) :
    lastColumn display font + font.header.width ≤ display.width := by
  rw [lastColumn]
  have hdiv := Nat.div_mul_le_self (display.width - font.header.width - 1) font.header.width
  omega

theorem inCell_le_lastPixel {x y i : Nat} (hx : x ≤ lastColumn display font)
    (hy : y ≤ lastRow display font)
    (hi : InCell display.width font.header.width font.header.height x y i) :
    font.header.width ≠ 0 ∧ font.header.height ≠ 0 ∧ i ≤ lastPixel display font := by
  obtain ⟨dy, hdy, dx, hdx, rfl⟩ := hi
  refine ⟨by omega, by omega, Nat.le_trans (Nat.mod_le _ _) ?_⟩
  calc y * display.width + x + dy * display.width + dx
      = (y + dy) * display.width + (x + dx) := by rw [Nat.add_mul]; omega
    _ ≤ lastPixel display font := by
      refine Nat.add_le_add (Nat.mul_le_mul_right _ ?_) ?_ <;> omega

section

variable (hw : font.header.width ≤ display.width) (hh : font.header.height ≤ display.height)
  (hwpos : font.header.width ≠ 0) (hhpos : font.header.height ≠ 0)

include hw hh hwpos hhpos

theorem lastPixel_lt : lastPixel display font < display.height * display.width := by
  have hrow := lastRow_add_le hh
  have hcol := lastColumn_add_le hw
  calc lastPixel display font
      < (lastRow display font + (font.header.height - 1)) * display.width + display.width := by
        rw [lastPixel]; omega
    _ = (lastRow display font + font.header.height) * display.width := by
        rw [← Nat.succ_mul]; congr 1; omega
    _ ≤ display.height * display.width := Nat.mul_le_mul_right _ hrow

theorem inCell_lastPixel :
    InCell display.width font.header.width font.header.height (lastColumn display font)
      (lastRow display font) (lastPixel display font) := by
  refine ⟨font.header.height - 1, by omega, font.header.width - 1, by omega, ?_⟩
  have hlt : lastPixel display font < 2 ^ 64 :=
    Nat.lt_of_lt_of_le (lastPixel_lt hw hh hwpos hhpos) (Nat.le_trans
      (Nat.mul_le_mul (Nat.le_of_lt display.height_lt) (Nat.le_of_lt display.width_lt)) (by decide))
  rw [← Nat.mod_eq_of_lt hlt, lastPixel, Nat.add_mul]
  congr 1
  omega

end

/-- A font that fits on the display. -/
structure Fits (display : Size) (font : PSFFont) : Prop where
  valid : font.Valid
  width_le : font.header.width ≤ display.width
  height_le : font.header.height ≤ display.height
  height_lt : font.header.height < 2 ^ 31

/-! ## Every text -/

/-- What stays fixed while text is written. -/
structure Placed (display : Size) (font : PSFFont) (s : Screen) : Prop where
  display_eq : s.display = display
  font_eq : s.font = font
  size_eq : s.screenSize = display.height * display.width % 2 ^ 32

theorem Placed.moves {x y : Nat} {new : Nat → Prop} {t : Screen} (h : Placed display font s)
    (hmoves : Moves x y new s t) : Placed display font t :=
  ⟨hmoves.display.trans h.display_eq, hmoves.font.trans h.font_eq, hmoves.screenSize.trans h.size_eq⟩

theorem Placed.size_lt (h : Placed display font s) : s.screenSize < 2 ^ 32 := by
  rw [h.size_eq]
  exact Nat.mod_lt _ (by decide)

structure AtCell (display : Size) (font : PSFFont) (s : Screen) : Prop
    extends Placed display font s where
  column : font.header.width ∣ s.nextX
  column_le : s.nextX ≤ display.width
  row : font.header.height ∣ s.nextY
  row_le : s.nextY ≤ lastRow display font

namespace AtCell

section

variable (h : AtCell display font s)

include h

theorem lineBelow (hh : font.header.height < 2 ^ 31) :
    font.header.height ∣ s.lineBelow ∧ s.lineBelow ≤ lastRow display font := by
  rw [Screen.lineBelow]
  split
  · exact ⟨h.row, h.row_le⟩
  next hmore =>
    rw [Screen.AtBottom, h.font_eq, h.display_eq, Nat.mod_eq_of_lt (by omega)] at hmore
    obtain ⟨k, hk⟩ := h.row
    rw [h.font_eq]
    refine ⟨Nat.dvd_add h.row (Nat.dvd_refl _), ?_⟩
    have hpos : 0 < font.header.height ∨ font.header.height = 0 := by omega
    rcases hpos with hpos | hzero
    · have hrows : k + 2 ≤ (display.height - 1) / font.header.height := by
        rw [Nat.le_div_iff_mul_le hpos, Nat.add_mul, Nat.mul_comm k, ← hk]
        omega
      rw [hk, lastRow, Nat.mul_comm, ← Nat.succ_mul]
      exact Nat.mul_le_mul_right _ (by omega)
    · rw [hzero, Nat.add_zero]
      exact h.row_le

theorem cellY (hh : font.header.height < 2 ^ 31) (c : BitVec 8) :
    font.header.height ∣ s.cellY c ∧ s.cellY c ≤ lastRow display font := by
  rw [Screen.cellY]
  split
  · exact h.lineBelow hh
  · exact ⟨h.row, h.row_le⟩

theorem cellX (c : BitVec 8) :
    font.header.width ∣ s.cellX c ∧ s.cellX c ≤ lastColumn display font := by
  rw [Screen.cellX]
  split
  · exact ⟨Nat.dvd_zero _, Nat.zero_le _⟩
  next hroom =>
    rw [h.font_eq, h.display_eq, not_or] at hroom
    obtain ⟨k, hk⟩ := h.column
    refine ⟨h.column, ?_⟩
    rcases Nat.eq_zero_or_pos font.header.width with hzero | hpos
    · rw [hk, hzero, Nat.zero_mul]
      exact Nat.zero_le _
    · have hcells : k ≤ (display.width - font.header.width - 1) / font.header.width := by
        rw [Nat.le_div_iff_mul_le hpos, Nat.mul_comm, ← hk]
        omega
      rw [hk, lastColumn, Nat.mul_comm]
      exact Nat.mul_le_mul_right _ hcells

theorem nextY_add_le (hh : font.header.height ≤ display.height) :
    s.nextY + font.header.height ≤ display.height :=
  Nat.le_trans (Nat.add_le_add_right h.row_le _) (lastRow_add_le hh)

theorem write (hf : Fits display font) (c : BitVec 8) :
    ∃ t, (unsyncWriteChar c).run s = .ok () t ∧ AtCell display font t ∧
      Moves (if c = newline then s.cellX c else s.cellX c + font.header.width) (s.cellY c)
        (fun i => s.Scrolled c i ∨ s.Drawn c i) s t := by
  have hrow := h.nextY_add_le hf.height_le
  have hcolumn := h.column_le
  have hwidth := display.width_lt
  have hheight := display.height_lt
  obtain ⟨_, t, hrun, hmoves⟩ := draws_unsyncWriteChar (h.font_eq ▸ hf.valid) h.size_lt (by omega)
    (by omega) c
  obtain ⟨hdvdX, hleX⟩ := h.cellX c
  obtain ⟨hdvdY, hleY⟩ := h.cellY hf.height_lt c
  have hend := lastColumn_add_le hf.width_le
  rw [h.font_eq] at hmoves
  refine ⟨t, hrun, ⟨h.moves hmoves, ?_, ?_, ?_, ?_⟩, hmoves⟩
  · rw [hmoves.nextX]
    split
    · exact hdvdX
    · exact Nat.dvd_add hdvdX (Nat.dvd_refl _)
  · rw [hmoves.nextX]
    split <;> omega
  · rw [hmoves.nextY]
    exact hdvdY
  · rw [hmoves.nextY]
    exact hleY

end

end AtCell

/-- Every index that was used is inside the image, and the display has room for the line of the
cursor. -/
structure OnScreen (s : Screen) : Prop where
  inside : ∀ i ∈ s.touched, i < s.screenSize
  cursor : s.nextY + s.font.header.height ≤ s.display.height

def CellsInside (display : Size) (font : PSFFont) : Prop :=
  font.header.width = 0 ∨ font.header.height = 0 ∨
    lastPixel display font < display.height * display.width % 2 ^ 32

theorem AtCell.writeText (h : AtCell display font s) (hinside : ∀ i ∈ s.touched, i < s.screenSize)
    (hf : Fits display font) (hcells : CellsInside display font) (text : List (BitVec 8)) :
    ∃ t, (writeText text).run s = .ok () t ∧ OnScreen t := by
  induction text generalizing s with
  | nil =>
    refine ⟨s, EStateM.run_pure () s, hinside, ?_⟩
    rw [h.font_eq, h.display_eq]
    exact h.nextY_add_le hf.height_le
  | cons c text ih =>
    obtain ⟨t, hrun, hcell, hmoves⟩ := h.write hf c
    have hinside' : ∀ i ∈ t.touched, i < t.screenSize := by
      intro i hi
      rw [hmoves.screenSize]
      rcases (hmoves.mem i).1 hi with hold | hscrolled | ⟨-, -, hdrawn⟩
      · exact hinside i hold
      · exact hscrolled.2.2.2
      · rw [h.font_eq, h.display_eq] at hdrawn
        obtain ⟨hwpos, hhpos, hle⟩ :=
          inCell_le_lastPixel (h.cellX c).2 (h.cellY hf.height_lt c).2 hdrawn
        rw [h.size_eq]
        rcases hcells with hzero | hzero | hlast
        · exact absurd hzero hwpos
        · exact absurd hzero hhpos
        · exact Nat.lt_of_le_of_lt hle hlast
    obtain ⟨u, hrest, hon⟩ := ih hcell hinside'
    exact ⟨u, by rw [GarbageOS.writeText, run_ok_bind hrun, hrest], hon⟩

/-- The console after `init_kio` and some text. -/
def shownText (display : Size) (font : PSFFont) (backgroundColor fontColor : Color)
    (contents : Nat → Pixel) (text : List (BitVec 8)) : EStateM.Result Stop Screen Unit :=
  (do
    clearScreen
    writeText text : ScreenM Unit).run (.init display font backgroundColor fontColor contents)

/-- Any text is written, and stays on the screen. -/
def StaysOnScreen (display : Size) (font : PSFFont) : Prop :=
  ∀ backgroundColor fontColor contents text, ∃ s,
    shownText display font backgroundColor fontColor contents text = .ok () s ∧ OnScreen s

theorem draws_clearScreen : Draws clearScreen s s.nextX s.nextY fun i => i < s.screenSize := by
  have hall := @Draws.forRange s (fun i => writePixel i (colorToPixel s.backgroundColor))
    (fun i j => j = i) s.screenSize 0 fun i t _ _ => draws_writePixel ..
  exact Draws.congr (Draws.get hall) fun i => by simp

theorem cleared (display : Size) (font : PSFFont) (backgroundColor fontColor : Color)
    (contents : Nat → Pixel) : ∃ s, AtCell display font s ∧ s.nextX = 0 ∧ s.nextY = 0 ∧
      (∀ i ∈ s.touched, i < s.screenSize) ∧
      ∀ text, shownText display font backgroundColor fontColor contents text =
        (writeText text).run s := by
  obtain ⟨_, s, hclear, hmoves⟩ :=
    @draws_clearScreen (.init display font backgroundColor fontColor contents)
  refine ⟨s, ?_, hmoves.nextX, hmoves.nextY, fun i hi => ?_,
    fun text => by rw [shownText, run_ok_bind hclear]⟩
  · exact
      { toPlaced := Placed.moves ⟨rfl, rfl, rfl⟩ hmoves
        column := hmoves.nextX ▸ Nat.dvd_zero _
        column_le := hmoves.nextX ▸ Nat.zero_le _
        row := hmoves.nextY ▸ Nat.dvd_zero _
        row_le := hmoves.nextY ▸ Nat.zero_le _ }
  · rw [hmoves.screenSize]
    exact ((hmoves.mem i).1 hi).resolve_left List.not_mem_nil

theorem Fits.staysOnScreen (hf : Fits display font) (hcells : CellsInside display font) :
    StaysOnScreen display font := by
  intro backgroundColor fontColor contents text
  obtain ⟨s, hcell, -, -, hinside, hshown⟩ := cleared display font backgroundColor fontColor contents
  rw [hshown]
  exact hcell.writeText hinside hf hcells text

/-! ## The last cell is reached -/

theorem writeText_append (text rest : List (BitVec 8)) :
    writeText (text ++ rest) = writeText text >>= fun _ => writeText rest := by
  induction text with
  | nil => exact (pure_bind () fun _ => writeText rest).symm
  | cons c text ih =>
    rw [List.cons_append, writeText, writeText, bind_assoc]
    exact congrArg _ (funext fun _ => ih)

section

variable (hf : Fits display font)

include hf

/-- Writing a character again and again moves the cursor to the places `p 0, p 1, ...`. -/
theorem reaches_place (p : Nat → Nat × Nat) (n : Nat) (c : BitVec 8) (h : AtCell display font s)
    (hstart : (s.nextX, s.nextY) = p 0)
    (hstep : ∀ m < n, ∀ t, AtCell display font t → (t.nextX, t.nextY) = p m →
      (if c = newline then t.cellX c else t.cellX c + font.header.width, t.cellY c) = p (m + 1)) :
    ∃ text t, (writeText text).run s = .ok () t ∧ AtCell display font t ∧
      (t.nextX, t.nextY) = p n := by
  induction n with
  | zero => exact ⟨[], s, EStateM.run_pure () s, h, hstart⟩
  | succ n ih =>
    obtain ⟨text, t, hrun, ht, hplace⟩ := ih fun m hm => hstep m (by omega)
    obtain ⟨u, hrun', hu, hmoves⟩ := ht.write hf c
    refine ⟨text ++ [c], u, ?_, hu, ?_⟩
    · rw [writeText_append, run_ok_bind hrun, writeText, run_ok_bind hrun']
      rfl
    · rw [hmoves.nextX, hmoves.nextY]
      exact hstep n (Nat.lt_succ_self n) t ht hplace

theorem reaches_lastRow (h : AtCell display font s) (hx : s.nextX = 0) (hy : s.nextY = 0) :
    ∃ text t, (writeText text).run s = .ok () t ∧ AtCell display font t ∧
      (t.nextX, t.nextY) = (0, lastRow display font) := by
  refine reaches_place hf (fun n => (0, n * font.header.height))
    ((display.height - 1) / font.header.height - 1) newline h (by rw [hx, hy, Nat.zero_mul])
    fun n hn t ht hplace => ?_
  obtain ⟨-, hy⟩ := Prod.mk.inj hplace
  have hroom : (n + 2) * font.header.height ≤ display.height - 1 :=
    Nat.le_trans (Nat.mul_le_mul_right _ (by omega)) (Nat.div_mul_le_self _ _)
  rw [Nat.add_mul] at hroom
  have hpos : 0 < display.height := by
    refine Nat.pos_of_ne_zero fun hzero => ?_
    rw [hzero, Nat.zero_sub, Nat.zero_div] at hn
    omega
  have hline := hf.height_lt
  have hmore : ¬ t.AtBottom := by
    rw [Screen.AtBottom, hy, ht.font_eq, ht.display_eq, Nat.mod_eq_of_lt (by omega)]
    omega
  rw [if_pos rfl, Screen.cellX, Screen.cellY, if_pos (.inr rfl), if_pos (.inr rfl),
    Screen.lineBelow, if_neg hmore, hy, ht.font_eq, Nat.succ_mul]

theorem reaches_lastColumn (h : AtCell display font s) (hx : s.nextX = 0) :
    ∃ text t, (writeText text).run s = .ok () t ∧ AtCell display font t ∧
      (t.nextX, t.nextY) = (lastColumn display font, s.nextY) := by
  refine reaches_place hf (fun n => (n * font.header.width, s.nextY))
    ((display.width - font.header.width - 1) / font.header.width) 97 h (by rw [hx, Nat.zero_mul])
    fun n hn t ht hplace => ?_
  obtain ⟨hx, hy⟩ := Prod.mk.inj hplace
  have hroom : (n + 1) * font.header.width ≤ display.width - font.header.width - 1 :=
    Nat.le_trans (Nat.mul_le_mul_right _ hn) (Nat.div_mul_le_self _ _)
  rw [Nat.succ_mul] at hroom
  have hstay : ¬ (t.nextX + t.font.header.width ≥ t.display.width ∨ (97 : BitVec 8) = newline) := by
    rw [hx, ht.font_eq, ht.display_eq]
    rintro (hfull | hc)
    · rcases Nat.eq_zero_or_pos font.header.width with hzero | hpos
      · rw [hzero, Nat.div_zero] at hn
        omega
      · have hwide := Nat.div_pos_iff.1 (Nat.lt_of_le_of_lt (Nat.zero_le n) hn)
        omega
    · exact absurd hc (by decide)
  rw [if_neg (by decide), Screen.cellX, Screen.cellY, if_neg hstay, if_neg hstay, hx, hy,
    ← Nat.succ_mul]

end

theorem atBottom_lastRow (h : AtCell display font s) (hline : font.header.height < 2 ^ 31)
    (hpos : 0 < font.header.height) (hy : s.nextY = lastRow display font) : s.AtBottom := by
  rw [Screen.AtBottom, h.font_eq, h.display_eq, hy, Nat.mod_eq_of_lt (by omega), lastRow]
  have hlt := Nat.lt_mul_div_succ (display.height - 1) hpos
  cases hq : (display.height - 1) / font.header.height with
  | zero =>
    rw [hq] at hlt
    omega
  | succ q =>
    rw [hq, Nat.mul_add, Nat.mul_comm, Nat.succ_mul] at hlt
    rw [Nat.succ_sub_one]
    omega

theorem cell_last (h : AtCell display font s) (hline : font.header.height < 2 ^ 31)
    (hpos : 0 < font.header.height)
    (hx : s.nextX = lastColumn display font) (hy : s.nextY = lastRow display font) :
    s.cellX 97 = lastColumn display font ∧ s.cellY 97 = lastRow display font := by
  rw [Screen.cellX, Screen.cellY, h.font_eq, h.display_eq, hx, hy]
  split
  next hfull =>
    have hcolumn : lastColumn display font = 0 := by
      have hfull := hfull.resolve_right (by decide)
      have hdiv := Nat.div_mul_le_self (display.width - font.header.width - 1) font.header.width
      rw [lastColumn] at hfull
      have heq : display.width - font.header.width - 1 = 0 := by omega
      rw [lastColumn, heq, Nat.zero_div, Nat.zero_mul]
    rw [hcolumn, Screen.lineBelow, if_pos (atBottom_lastRow h hline hpos hy), hy]
    exact ⟨rfl, rfl⟩
  · exact ⟨rfl, rfl⟩

theorem StaysOnScreen.cleared (h : StaysOnScreen display font) :
    ∃ s, AtCell display font s ∧ s.nextX = 0 ∧ s.nextY = 0 ∧
      ∀ text t, (writeText text).run s = .ok () t → OnScreen t := by
  let black : Color := ⟨0, 0, 0, 0⟩
  obtain ⟨s, hcell, hx, hy, -, hshown⟩ :=
    GarbageOS.cleared display font black black fun _ => colorToPixel black
  refine ⟨s, hcell, hx, hy, fun text t hrun => ?_⟩
  obtain ⟨t', hok, hon⟩ := h black black (fun _ => colorToPixel black) text
  rw [hshown, hrun] at hok
  cases hok
  exact hon

theorem StaysOnScreen.height_lt (h : StaysOnScreen display font) (hfont : font.Valid)
    (hh : font.header.height ≤ display.height) : font.header.height < 2 ^ 31 := by
  obtain ⟨s, hs, hx, hy, hon⟩ := h.cleared
  have hheight := display.height_lt
  refine Nat.lt_of_not_le fun hlarge => ?_
  -- twice the height has lost its last bit, so the second line does not seem to be the last
  have hmore : ¬ s.AtBottom := by
    rw [Screen.AtBottom, hs.font_eq, hs.display_eq, hy]
    omega
  obtain ⟨_, t, hrun, hmoves⟩ := draws_unsyncWriteChar (hs.font_eq ▸ hfont) hs.size_lt (by omega)
    (by omega) newline
  have ht := hs.moves hmoves
  have hroom := (hon [newline] t (by rw [writeText, run_ok_bind hrun]; rfl)).cursor
  rw [hmoves.nextY, Screen.cellY, if_pos (.inr rfl), Screen.lineBelow, if_neg hmore, ht.font_eq,
    ht.display_eq, hs.font_eq] at hroom
  omega

theorem StaysOnScreen.cellsInside (h : StaysOnScreen display font) (hf : Fits display font) :
    CellsInside display font := by
  obtain ⟨s, hs, hx, hy, hon⟩ := h.cleared
  by_cases hwpos : font.header.width = 0
  · exact .inl hwpos
  by_cases hhpos : font.header.height = 0
  · exact .inr (.inl hhpos)
  obtain ⟨lines, t, hlines, ht, hplace⟩ := reaches_lastRow hf hs hx hy
  obtain ⟨hx, hy⟩ := Prod.mk.inj hplace
  obtain ⟨columns, u, hcolumns, hu, hplace⟩ := reaches_lastColumn hf ht hx
  obtain ⟨hx, hy'⟩ := Prod.mk.inj hplace
  obtain ⟨v, hrun, hv, hmoves⟩ := hu.write hf 97
  obtain ⟨hcellX, hcellY⟩ := cell_last hu hf.height_lt (by omega) hx (hy'.trans hy)
  have hdrawn : u.Drawn 97 (lastPixel display font) := by
    refine ⟨by decide, by decide, ?_⟩
    rw [hcellX, hcellY, hu.font_eq, hu.display_eq]
    exact inCell_lastPixel hf.width_le hf.height_le hwpos hhpos
  have hinside := (hon (lines ++ (columns ++ [97])) v (by
    rw [writeText_append, run_ok_bind hlines, writeText_append, run_ok_bind hcolumns,
      writeText, run_ok_bind hrun]
    rfl)).inside _ ((hmoves.mem _).2 (.inr (.inr hdrawn)))
  rw [hv.size_eq] at hinside
  exact .inr (.inr hinside)

theorem staysOnScreen_iff (hfont : font.Valid) (hw : font.header.width ≤ display.width)
    (hh : font.header.height ≤ display.height) :
    StaysOnScreen display font ↔ font.header.height < 2 ^ 31 ∧ CellsInside display font := by
  constructor
  · intro h
    have hline := h.height_lt hfont hh
    exact ⟨hline, h.cellsInside ⟨hfont, hw, hh, hline⟩⟩
  · rintro ⟨hline, hcells⟩
    exact Fits.staysOnScreen ⟨hfont, hw, hh, hline⟩ hcells

end

def blockFont : PSFFont where
  header := ⟨10, 20, by decide, by decide⟩
  numglyph := 256
  hasTable := false
  asciiTable := id
  glyphs := some fun _ => ⟨some fun _ => true⟩

theorem blockFont_valid : blockFont.Valid where
  unicode_lt c _ := c.isLt
  cached := ⟨_, rfl, fun _ _ => Option.some_ne_none _⟩

theorem staysOnScreen_xga :
    blockFont.Valid ∧ StaysOnScreen ⟨1024, 768, by decide, by decide⟩ blockFont :=
  ⟨blockFont_valid, (staysOnScreen_iff blockFont_valid (by decide) (by decide)).2
    ⟨by decide, .inr (.inr (by decide))⟩⟩

/-- The size of an image with `2 ^ 32` pixels is taken to be 0. -/
theorem exists_pixel_outside : ∃ display font, font.Valid ∧ font.header.width ≤ display.width ∧
    font.header.height ≤ display.height ∧ ¬ StaysOnScreen display font := by
  let display : Size := ⟨65536, 65536, by decide, by decide⟩
  let white : Color := ⟨255, 255, 255, 0⟩
  let black : Color := ⟨0, 0, 0, 0⟩
  refine ⟨display, blockFont, blockFont_valid, by decide, by decide, fun h => ?_⟩
  obtain ⟨s, hshown, hon⟩ := h black white (fun _ => colorToPixel black) [97]
  have hdrawn : 0 ∈ (finalState (shownText display blockFont black white
      (fun _ => colorToPixel black) [97])).touched ∧ (finalState (shownText display blockFont black
      white (fun _ => colorToPixel black) [97])).screenSize = 0 := by
    decide +kernel
  rw [hshown] at hdrawn
  have hlt := hon.inside 0 hdrawn.1
  rw [show s.screenSize = 0 from hdrawn.2] at hlt
  omega

end GarbageOS
