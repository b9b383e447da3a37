import GarbageOS.Lib.Effect
import GarbageOS.Tools.Fat32Maker

/-!
# What the passes leave in the image

Sector by sector: a pass reads the boot sector, so each lemma starts from an image whose
sector 0 holds it. A read past the end of the file stops all passes after it from doing
anything, which is followed through as well.
-/

namespace GarbageOS.Fat32Maker

open Lib

variable {image : FileImage} {f f' : ImageFile} {n m i : Nat} {data b b' vbr : Bytes} {u : Unit}

/-- Byte `i` of a sector. -/
def ImageFile.sec (image : FileImage) (f : ImageFile) (n i : Nat) : UInt8 :=
  f.bytes (image.position n + i)

def ImageFile.Has (image : FileImage) (f : ImageFile) (n : Nat) : Prop :=
  image.position n + image.sectorSize ≤ f.length

theorem position_lt (image : FileImage) (h : m < n) :
    image.position m + image.sectorSize ≤ image.position n := by
  unfold FileImage.position
  have := Nat.mul_le_mul_right image.sectorSize (Nat.succ_le_of_lt h)
  rw [Nat.succ_mul] at this
  omega

theorem ImageFile.Has.mono (h : f.Has image n) (hm : m ≤ n) : f.Has image m := by
  rcases Nat.eq_or_lt_of_le hm with rfl | hlt
  · exact h
  · have := position_lt image hlt
    unfold ImageFile.Has at h ⊢
    omega

theorem sec_write (hi : i < image.sectorSize) :
    (f.write image n data).sec image m i = if m = n then data i else f.sec image m i := by
  unfold ImageFile.sec ImageFile.write
  by_cases h : m = n
  · subst h
    rw [if_pos rfl]
    exact Bytes.copy_in hi
  · rw [if_neg h]
    apply Bytes.copy_out
    rcases Nat.lt_or_gt_of_ne h with hlt | hlt
    · have := position_lt image hlt
      omega
    · have := position_lt image hlt
      omega

theorem ImageFile.Has.write (h : f.Has image m) : (f.write image n data).Has image m :=
  Nat.le_trans h (Nat.le_max_left ..)

theorem has_write_of_le (h : m ≤ n) : (f.write image n data).Has image m :=
  ImageFile.Has.mono (Nat.le_max_right ..) h

theorem run_writeSector_ok : (writeSector image n data).run f = .ok u f' ↔
    image.position n < 2 ^ 31 ∧ f' = if f.failed then f else f.write image n data := by
  unfold writeSector
  rw [run_check_bind, EStateM.run_modify, decide_eq_true_eq]
  constructor
  · rintro ⟨hpos, h⟩; cases h; exact ⟨hpos, rfl⟩
  · rintro ⟨hpos, rfl⟩; exact ⟨hpos, rfl⟩

theorem run_readSector_ok : (readSector image n b).run f = .ok b' f' ↔
    image.position n < 2 ^ 31 ∧ (f.failed = true ∧ b' = b ∧ f' = f ∨
      f.failed = false ∧ b' = f.read image n b ∧
        f' = { f with failed := image.position n + image.sectorSize > f.length }) := by
  unfold readSector
  rw [run_check_bind, run_get_bind, decide_eq_true_eq]
  cases hf : f.failed with
  | true =>
    rw [if_pos rfl]
    constructor
    · rintro ⟨hpos, h⟩; cases h; exact ⟨hpos, .inl ⟨rfl, rfl, rfl⟩⟩
    · rintro ⟨hpos, ⟨-, rfl, rfl⟩ | ⟨h, -⟩⟩
      · exact ⟨hpos, rfl⟩
      · cases h
  | false =>
    rw [if_neg Bool.false_ne_true, run_modify_bind]
    constructor
    · rintro ⟨hpos, h⟩; cases h; exact ⟨hpos, .inr ⟨rfl, rfl, rfl⟩⟩
    · rintro ⟨hpos, ⟨h, -⟩ | ⟨-, rfl, rfl⟩⟩
      · cases h
      · exact ⟨hpos, rfl⟩

theorem readSector_has (hf : f.failed = false) (hhas : f.Has image n)
    (h : (readSector image n b).run f = .ok b' f') :
    f = f' ∧ ∀ i < image.sectorSize, b' i = f.sec image n i := by
  obtain ⟨-, ⟨hf', -⟩ | ⟨-, rfl, rfl⟩⟩ := run_readSector_ok.1 h
  · rw [hf] at hf'
    cases hf'
  · have hle : ¬ image.position n + image.sectorSize > f.length := Nat.not_lt.2 hhas
    constructor
    · rw [decide_eq_false hle, ← hf]
    · intro i hi
      unfold ImageFile.read
      rw [if_pos ⟨hi, by unfold ImageFile.Has at hhas; omega⟩]
      rfl

theorem run_readSector_of_has (hpos : image.position n < 2 ^ 31) (hf : f.failed = false)
    (hhas : f.Has image n) : (readSector image n b).run f = .ok (f.read image n b) f := by
  refine run_readSector_ok.2 ⟨hpos, .inr ⟨hf, rfl, ?_⟩⟩
  have hle : ¬ image.position n + image.sectorSize > f.length := Nat.not_lt.2 hhas
  rw [decide_eq_false hle, ← hf]

def ImageFile.fail (f : ImageFile) : ImageFile := { f with failed := true }

theorem readSector_short (hf : f.failed = false) (hshort : ¬ f.Has image n)
    (h : (readSector image n b).run f = .ok b' f') : f' = f.fail := by
  obtain ⟨-, ⟨hf', -⟩ | ⟨-, rfl, rfl⟩⟩ := run_readSector_ok.1 h
  · rw [hf] at hf'
    cases hf'
  · unfold ImageFile.fail
    rw [decide_eq_true (Nat.lt_of_not_le hshort)]

theorem run_writeSector_of_good (hpos : image.position n < 2 ^ 31) (hf : f.failed = false) :
    (writeSector image n data).run f = .ok () (f.write image n data) := by
  refine run_writeSector_ok.2 ⟨hpos, ?_⟩
  rw [hf]
  rfl

theorem writeSector_ready (hf : f.failed = false)
    (h : (writeSector image n data).run f = .ok u f') : f' = f.write image n data := by
  obtain ⟨-, rfl⟩ := run_writeSector_ok.1 h
  rw [hf]
  rfl

/-! ## A failed stream -/

def Stuck (f f' : ImageFile) : Prop := f.failed = true → f' = f

instance : IsPreorder ImageFile Stuck where
  refl _ _ := rfl
  trans _ _ _ h₁ h₂ hf := by
    have := h₁ hf
    subst this
    exact h₂ hf

instance (n : Nat) (data : Bytes) : Kept Stuck (writeSector image n data) where
  keeps f u f' h hf := by
    obtain ⟨-, rfl⟩ := run_writeSector_ok.1 h
    rw [hf]
    rfl

instance (n : Nat) (b : Bytes) : Kept Stuck (readSector image n b) where
  keeps f b' f' h hf := by
    obtain ⟨-, ⟨-, -, rfl⟩ | ⟨hf', -⟩⟩ := run_readSector_ok.1 h
    · rfl
    · rw [hf] at hf'
      cases hf'

instance (entry value : Nat) : Kept Stuck (writeFatEntry image entry value) := by
  unfold writeFatEntry
  infer_instance

instance stuck_clearDirectory (first count offset : Nat) (b : Bytes) :
    Kept Stuck (clearDirectory image first count offset b) := by
  induction count generalizing offset b with
  | zero => exact ⟨.pure ()⟩
  | succ count ih =>
    unfold clearDirectory
    infer_instance

instance : Kept Stuck (makeRootDirectory image) := by
  unfold makeRootDirectory
  infer_instance

instance stuck_writeCodeFrom (vbr code : Bytes) (codeSize steps offset sector : Nat) (b : Bytes) :
    Kept Stuck (writeCodeFrom image vbr code codeSize steps offset sector b) := by
  induction steps generalizing offset sector b with
  | zero => exact ⟨.throw⟩
  | succ steps ih =>
    unfold writeCodeFrom
    infer_instance

instance (bootCode : Option File) (garbage : Bytes) :
    Kept Stuck (writeBootCode image bootCode garbage) := by
  unfold writeBootCode
  cases bootCode <;> infer_instance

theorem stuck_of_failed {α : Type} {x : ToolM α} [hx : Kept Stuck x] {a : α}
    (hf : f.failed = true) (h : x.run f = .ok a f') : f' = f :=
  hx.keeps h hf

/-! ## Sectors that stay -/

/-- The sectors in `P` are unchanged and the file has not become shorter. -/
structure KeepsSectors (image : FileImage) (P : Nat → Prop) (f f' : ImageFile) : Prop where
  sec : ∀ n, P n → ∀ i < image.sectorSize, f'.sec image n i = f.sec image n i
  length : f.length ≤ f'.length

instance {P : Nat → Prop} : IsPreorder ImageFile (KeepsSectors image P) where
  refl _ := ⟨fun _ _ _ _ => rfl, Nat.le_refl _⟩
  trans _ _ _ h₁ h₂ :=
    ⟨fun n hn i hi => (h₂.sec n hn i hi).trans (h₁.sec n hn i hi),
      Nat.le_trans h₁.length h₂.length⟩

theorem KeepsSectors.has {P : Nat → Prop} (h : KeepsSectors image P f f') (hf : f.Has image n) :
    f'.Has image n :=
  Nat.le_trans hf h.length

theorem KeepsSectors.mono {P Q : Nat → Prop} (h : KeepsSectors image P f f')
    (hQ : ∀ n, Q n → P n) : KeepsSectors image Q f f' :=
  ⟨fun n hn => h.sec n (hQ n hn), h.length⟩

theorem keepsSectors_write {P : Nat → Prop} (hn : ¬ P n) :
    KeepsSectors image P f (f.write image n data) := by
  refine ⟨fun m hm i hi => ?_, Nat.le_max_left ..⟩
  have hne : m ≠ n := fun e => hn (e ▸ hm)
  rw [sec_write hi, if_neg hne]

theorem keeps_writeSector {P : Nat → Prop} (hn : ¬ P n) :
    Keeps (KeepsSectors image P) (writeSector image n data) := by
  intro f u f' h
  obtain ⟨-, rfl⟩ := run_writeSector_ok.1 h
  split
  · exact refl_of _ _
  · exact keepsSectors_write hn

theorem keeps_readSector {P : Nat → Prop} (n : Nat) (b : Bytes) :
    Keeps (KeepsSectors image P) (readSector image n b) := by
  intro f b' f' h
  obtain ⟨-, ⟨-, -, rfl⟩ | ⟨-, -, rfl⟩⟩ := run_readSector_ok.1 h
  · exact refl_of _ _
  · exact ⟨fun _ _ _ _ => rfl, Nat.le_refl _⟩

/-! ## The passes on an image with a boot sector -/

def SameSector (image : FileImage) (b b' : Bytes) : Prop := ∀ i < image.sectorSize, b i = b' i

section

variable (hsize : 512 ≤ image.sectorSize) (hsame : SameSector image b b')

include hsize hsame

theorem SameSector.get8 {o : Nat} (ho : o < 512) : b.get8 o = b'.get8 o :=
  Bytes.get8_congr (hsame o (by omega))

theorem SameSector.get16 {o : Nat} (ho : o + 1 < 512) : b.get16 o = b'.get16 o :=
  Bytes.get16_congr fun i _ => hsame (o + i) (by omega)

theorem SameSector.get32 {o : Nat} (ho : o + 3 < 512) : b.get32 o = b'.get32 o :=
  Bytes.get32_congr fun i _ => hsame (o + i) (by omega)

end

structure Ready (image : FileImage) (vbr : Bytes) (f : ImageFile) : Prop where
  good : f.failed = false
  vbr : SameSector image (f.sec image 0) vbr
  has : f.Has image 0

theorem Ready.write (h : Ready image vbr f) (hn : n ≠ 0) :
    Ready image vbr (f.write image n data) where
  good := h.good
  vbr i hi := by rw [sec_write hi, if_neg (Ne.symm hn)]; exact h.vbr i hi
  has := h.has.write

theorem Ready.sameSector_read (h : Ready image vbr f) :
    SameSector image (f.read image 0 b) vbr := by
  intro i hi
  have hhas := h.has
  unfold ImageFile.Has at hhas
  unfold ImageFile.read
  rw [if_pos ⟨hi, by omega⟩]
  exact h.vbr i hi

theorem Ready.readVbr (h : Ready image vbr f) (hr : (readSector image 0 b).run f = .ok b' f') :
    f = f' ∧ SameSector image b' vbr := by
  obtain ⟨rfl, hb⟩ := readSector_has h.good h.has hr
  exact ⟨rfl, fun i hi => (hb i hi).trans (h.vbr i hi)⟩

/-- The fields of a boot sector that say where the boot code goes. -/
structure BootFields (vbr : Bytes) : Prop where
  start : getFatAreaStart vbr = reservedSectorsCount
  backup : vbr.get16 vbrOffsetBkBootSec = 6

/-- The fields of a boot sector that the passes use. -/
structure VbrFields (vbr : Bytes) (fatSize : Nat) : Prop extends BootFields vbr where
  numFats : vbr.get8 vbrOffsetNumFats = numberOfFats
  fatSize : vbr.get32 vbrOffsetFatSz32 = fatSize
  fsInfo : vbr.get16 vbrOffsetFsInfo = 1
  rootCluster : vbr.get32 vbrOffsetRootClus = 2
  media : vbr.get8 vbrOffsetMedia = 0xF0

theorem updateFat32Backup_ok {fatSize : Nat} (hsize : 512 ≤ image.sectorSize)
    (hvbr : VbrFields vbr fatSize) (hready : Ready image vbr f) (hhas : f.Has image 1)
    (h : (updateFat32Backup image).run f = .ok u f') :
    Ready image vbr f' ∧ KeepsSectors image (· < 6) f f' ∧ f'.Has image 8 := by
  unfold updateFat32Backup at h
  obtain ⟨b₀, t, h₀, h⟩ := run_bind_ok.1 h
  obtain ⟨rfl, hb₀⟩ := hready.readVbr h₀
  obtain ⟨b₁, t, h₁, h⟩ := run_bind_ok.1 h
  obtain ⟨rfl, -⟩ := hready.readVbr h₁
  have hstart : b₀.get16 vbrOffsetBkBootSec = 6 :=
    (SameSector.get16 hsize hb₀ (by decide)).trans hvbr.backup
  simp only [hstart] at h
  obtain ⟨_, t, h₂, h⟩ := run_bind_ok.1 h
  obtain rfl := writeSector_ready hready.good h₂
  have hready₁ : Ready image vbr (f.write image (0 + 6) b₁) := hready.write (by decide)
  obtain ⟨b₂, t, h₃, h⟩ := run_bind_ok.1 h
  obtain ⟨rfl, -⟩ := readSector_has hready₁.good hhas.write h₃
  obtain ⟨_, t, h₄, h⟩ := run_bind_ok.1 h
  obtain rfl := writeSector_ready hready₁.good h₄
  have hready₂ : Ready image vbr ((f.write image (0 + 6) b₁).write image (1 + 6) b₂) :=
    hready₁.write (by decide)
  obtain ⟨b₃, t, h₅, h⟩ := run_bind_ok.1 h
  obtain ⟨rfl, -⟩ := readSector_has hready₂.good (has_write_of_le (by decide)) h₅
  obtain rfl := writeSector_ready hready₂.good h
  refine ⟨hready₂.write (by decide), ?_, has_write_of_le (by decide)⟩
  exact trans_of (KeepsSectors image (· < 6)) (keepsSectors_write (by decide))
    (trans_of (KeepsSectors image (· < 6)) (keepsSectors_write (by decide))
      (keepsSectors_write (by decide)))

theorem zeroSectors_ok {start : Nat} (hstart : start ≠ 0) (hz : SameSector image data newBuffer) :
    ∀ {count n : Nat} {f : ImageFile}, Ready image vbr f →
      (forRange (fun i => writeSector image (start + i) data) count n).run f = .ok u f' →
      Ready image vbr f' ∧ KeepsSectors image (fun m => m < start + n) f f' ∧
        ∀ j < count, f'.Has image (start + n + j) ∧
          SameSector image (f'.sec image (start + n + j)) newBuffer := by
  intro count
  induction count with
  | zero =>
    intro n f hready h
    cases h
    exact ⟨hready, refl_of _ _, fun j hj => absurd hj (Nat.not_lt_zero j)⟩
  | succ count ih =>
    intro n f hready h
    obtain ⟨_, t, h₀, h⟩ := run_bind_ok.1 h
    obtain rfl := writeSector_ready hready.good h₀
    obtain ⟨hready', hkeep, hzero⟩ := ih (hready.write (by omega)) h
    refine ⟨hready', ?_, fun j hj => ?_⟩
    · exact trans_of (KeepsSectors image (fun m => m < start + n))
        (keepsSectors_write (Nat.lt_irrefl _)) (hkeep.mono fun m hm => by omega)
    · cases j with
      | zero =>
        refine ⟨hkeep.has (has_write_of_le (Nat.le_refl _)), fun i hi => ?_⟩
        rw [Nat.add_zero, hkeep.sec _ (by omega) i hi, sec_write hi, if_pos rfl]
        exact hz i hi
      | succ j =>
        rw [show start + n + (j + 1) = start + (n + 1) + j by omega]
        exact hzero j (by omega)

section

variable {fatSize : Nat} (hsize : 512 ≤ image.sectorSize) (hvbr : VbrFields vbr fatSize)
  (hready : Ready image vbr f)

include hsize hvbr hready

/-- One of the first entries is written to the first sector of the first table, or the file
does not reach that far and the stream fails. -/
theorem writeFatEntry_ok {entry value : Nat} (he : entry < 128)
    (h : (writeFatEntry image entry value).run f = .ok u f') :
    (∃ b, SameSector image b (f.sec image reservedSectorsCount) ∧
      f' = f.write image reservedSectorsCount (b.put32 (entry * 4) value) ∧
      f.Has image reservedSectorsCount) ∨
    f' = f.fail ∧ ¬ f.Has image reservedSectorsCount := by
  unfold writeFatEntry at h
  obtain ⟨b₀, t, h₀, h⟩ := run_bind_ok.1 h
  obtain ⟨rfl, hb₀⟩ := hready.readVbr h₀
  have hstart : getFatAreaStart b₀ = reservedSectorsCount :=
    (SameSector.get16 hsize hb₀ (by decide)).trans hvbr.start
  have hwrap : entry * 4 % 2 ^ 32 = entry * 4 := Nat.mod_eq_of_lt (by omega)
  have hsector : fatEntrySector image b₀ entry = reservedSectorsCount := by
    unfold fatEntrySector
    rw [hstart, hwrap, Nat.div_eq_of_lt (by omega)]
    rfl
  have hmod : entry * 4 % image.sectorSize = entry * 4 := Nat.mod_eq_of_lt (by omega)
  simp only [hsector, hwrap, hmod] at h
  obtain ⟨b₁, t, h₁, h⟩ := run_bind_ok.1 h
  by_cases hhas : f.Has image reservedSectorsCount
  · obtain ⟨rfl, hb₁⟩ := readSector_has hready.good hhas h₁
    exact .inl ⟨b₁, hb₁, writeSector_ready hready.good h, hhas⟩
  · obtain rfl := readSector_short hready.good hhas h₁
    exact .inr ⟨stuck_of_failed rfl h, hhas⟩

theorem writeFirstEntries_ok {value : Nat}
    (h : (do writeFatEntry image 0 value; writeFatEntry image 1 0xFFFFFFFF).run f = .ok u f') :
    Ready image vbr f' ∧ f'.Has image reservedSectorsCount ∧
        KeepsSectors image (· ≠ reservedSectorsCount) f f' ∧
        f'.sec image reservedSectorsCount 0 = UInt8.ofNat value ∨
      f' = f.fail ∧ ¬ f.Has image reservedSectorsCount := by
  obtain ⟨_, t, h₀, h⟩ := run_bind_ok.1 h
  rcases writeFatEntry_ok hsize hvbr hready (by decide) h₀ with ⟨b, -, rfl, hhas⟩ | ⟨rfl, hno⟩
  · left
    have hready₁ : Ready image vbr
        (f.write image reservedSectorsCount (b.put32 (0 * 4) value)) := hready.write (by decide)
    rcases writeFatEntry_ok hsize hvbr hready₁ (by decide) h with ⟨c, hc, rfl, -⟩ | ⟨-, hno⟩
    · refine ⟨hready₁.write (by decide), hhas.write.write, ?_, ?_⟩
      · exact trans_of (KeepsSectors image (· ≠ reservedSectorsCount))
          (keepsSectors_write fun hn => hn rfl) (keepsSectors_write fun hn => hn rfl)
      · have hpos : 0 < image.sectorSize := by omega
        rw [sec_write hpos, if_pos rfl, Bytes.put32_out (by decide), hc 0 hpos, sec_write hpos,
          if_pos rfl]
        rfl
    · exact absurd hhas.write hno
  · exact .inr ⟨stuck_of_failed rfl h, hno⟩

/-- The first table of an image: its first two entries are set, the other table is zero. -/
theorem initializeFileAllocationTable_ok
    (h : (initializeFileAllocationTable image).run f = .ok u f') :
    KeepsSectors image (· < reservedSectorsCount) f f' ∧
    (Ready image vbr f' ∧ f'.Has image reservedSectorsCount ∨
      f'.failed = true ∧ ¬ f'.Has image reservedSectorsCount) ∧
    (fatSize ≠ 0 → 2 * fatSize < 2 ^ 31 → Ready image vbr f' ∧
      f'.sec image reservedSectorsCount 0 = 0xF0 ∧
      f'.sec image (reservedSectorsCount + fatSize) 0 = 0 ∧
      f'.Has image (reservedSectorsCount + fatSize)) := by
  unfold initializeFileAllocationTable at h
  obtain ⟨b₀, t, h₀, h⟩ := run_bind_ok.1 h
  obtain ⟨rfl, hb₀⟩ := hready.readVbr h₀
  have hstart : getFatAreaStart b₀ = reservedSectorsCount :=
    (SameSector.get16 hsize hb₀ (by decide)).trans hvbr.start
  have harea : getFatAreaSize b₀ = 2 * fatSize % 2 ^ 32 := by
    unfold getFatAreaSize
    rw [SameSector.get8 hsize hb₀ (by decide), SameSector.get32 hsize hb₀ (by decide),
      hvbr.numFats, hvbr.fatSize]
    rfl
  have hzero : SameSector image (b₀.fill 0 image.sectorSize 0) newBuffer := fun i hi => by
    unfold Bytes.fill
    rw [if_pos ⟨Nat.zero_le i, by omega⟩]
    rfl
  simp only [hstart, harea] at h
  obtain ⟨_, g, hloop, h⟩ := run_bind_ok.1 h
  obtain ⟨hreadyg, hkeep, hzeros⟩ :=
    zeroSectors_ok (show reservedSectorsCount ≠ 0 by decide) hzero hready hloop
  obtain ⟨b₁, t, h₁, h⟩ := run_bind_ok.1 h
  obtain ⟨rfl, hb₁⟩ := hreadyg.readVbr h₁
  have hmedia : 0xFFFFFF00 ||| b₁.get8 vbrOffsetMedia = 0xFFFFFFF0 := by
    rw [SameSector.get8 hsize hb₁ (by decide), hvbr.media]
    rfl
  rw [hmedia] at h
  have hcount (hfat : 2 * fatSize < 2 ^ 31) :
      intBound (2 * fatSize % 2 ^ 32) = 2 * fatSize := by
    rw [Nat.mod_eq_of_lt (by omega), intBound, if_pos hfat]
  have hbelow : KeepsSectors image (· < reservedSectorsCount) f g :=
    hkeep.mono fun m hm => by omega
  rcases writeFirstEntries_ok hsize hvbr hreadyg h with ⟨hready', hhas, hkeep', hbyte⟩ | ⟨rfl, hno⟩
  · refine ⟨?_, .inl ⟨hready', hhas⟩, fun hfat hfat' => ⟨hready', ?_, ?_, ?_⟩⟩
    · exact trans_of (KeepsSectors image (· < reservedSectorsCount)) hbelow
        (hkeep'.mono fun m hm => Nat.ne_of_lt hm)
    · rw [hbyte]
      rfl
    · have hsecond := (hzeros fatSize (by rw [hcount hfat']; omega)).2 0 (by omega)
      rw [Nat.add_zero] at hsecond
      rw [hkeep'.sec _ (by omega) 0 (by omega), hsecond]
      rfl
    · exact hkeep'.has (hzeros fatSize (by rw [hcount hfat']; omega)).1
  · refine ⟨⟨hbelow.sec, hbelow.length⟩, .inr ⟨rfl, hno⟩, fun hfat hfat' => ?_⟩
    exact absurd (hzeros 0 (by rw [hcount hfat']; omega)).1 hno

end

/-- The loop over the sectors of the root directory. If it reads past the end of the file,
the stream has failed. -/
theorem clearDirectory_ok {first : Nat} : ∀ {count offset : Nat} {b : Bytes} {f : ImageFile},
    first + offset ≠ 0 → first + offset + count ≤ 2 ^ 32 → Ready image vbr f →
    (clearDirectory image first count offset b).run f = .ok u f' →
    KeepsSectors image (· < first) f f' ∧
      (Ready image vbr f' ∨ f'.failed = true ∧ ¬ f'.Has image (first + offset + count)) := by
  intro count
  induction count with
  | zero =>
    intro offset b f _ _ hready h
    cases h
    exact ⟨refl_of _ _, .inl hready⟩
  | succ count ih =>
    intro offset b f hne hfit hready h
    unfold clearDirectory at h
    rw [Nat.mod_eq_of_lt (by omega)] at h
    obtain ⟨b₁, t, h₁, h⟩ := run_bind_ok.1 h
    by_cases hhas : f.Has image (first + offset)
    · obtain ⟨rfl, -⟩ := readSector_has hready.good hhas h₁
      obtain ⟨_, t, h₂, h⟩ := run_bind_ok.1 h
      obtain rfl := writeSector_ready hready.good h₂
      obtain ⟨hkeep, hend⟩ := ih (by omega) (by omega) (hready.write hne) h
      refine ⟨trans_of (KeepsSectors image (· < first)) (keepsSectors_write (by omega)) hkeep, ?_⟩
      rw [show first + offset + (count + 1) = first + (offset + 1) + count by omega]
      exact hend
    · obtain rfl := readSector_short hready.good hhas h₁
      obtain ⟨_, t, h₂, h⟩ := run_bind_ok.1 h
      obtain rfl := stuck_of_failed rfl h₂
      obtain rfl := stuck_of_failed rfl h
      exact ⟨⟨fun _ _ _ _ => rfl, Nat.le_refl _⟩, .inr ⟨rfl, fun hh => hhas (hh.mono (by omega))⟩⟩

section

variable {fatSize : Nat} (hsize : 512 ≤ image.sectorSize) (hvbr : VbrFields vbr fatSize)
  (hready : Ready image vbr f)

include hsize hvbr hready

theorem makeRootDirectory_ok (hfirst : 2 ≤ getDataAreaFirstSector vbr)
    (hfirst' : getDataAreaFirstSector vbr ≤ 2 ^ 31) (hhas : f.Has image reservedSectorsCount)
    (h : (makeRootDirectory image).run f = .ok u f') :
    KeepsSectors image (fun n => n < getDataAreaFirstSector vbr ∧ n ≠ reservedSectorsCount) f f' ∧
    (Ready image vbr f' ∧
        Bytes.get32 (f'.sec image reservedSectorsCount) 8 = fatEntryEndOfChain ∨
      f'.failed = true ∧ KeepsSectors image (· < getDataAreaFirstSector vbr) f f' ∧
        ¬ f'.Has image (getDataAreaFirstSector vbr + 255)) := by
  unfold makeRootDirectory at h
  obtain ⟨b₀, t, h₀, h⟩ := run_bind_ok.1 h
  obtain ⟨rfl, hb₀⟩ := hready.readVbr h₀
  have hdata : getDataAreaFirstSector b₀ = getDataAreaFirstSector vbr := by
    unfold getDataAreaFirstSector
    rw [SameSector.get16 hsize hb₀ (by decide), SameSector.get8 hsize hb₀ (by decide),
      SameSector.get32 hsize hb₀ (by decide)]
  have hcluster : getFirstSectorOfCluster b₀ 2 = getDataAreaFirstSector vbr := by
    unfold getFirstSectorOfCluster
    rw [show (2 + (2 ^ 32 - 2)) % 2 ^ 32 = 0 from rfl, Nat.zero_mul, Nat.add_zero, hdata,
      Nat.mod_eq_of_lt (by omega)]
  have hroot : b₀.get32 vbrOffsetRootClus = 2 :=
    (SameSector.get32 hsize hb₀ (by decide)).trans hvbr.rootCluster
  have hcount : getClusterSizeInSectors b₀ ≤ 255 := Nat.le_of_lt_succ Bytes.get8_lt
  rw [hcluster, hroot] at h
  generalize getDataAreaFirstSector vbr = first at *
  obtain ⟨_, g, hclear, h⟩ := run_bind_ok.1 h
  obtain ⟨hkeep, hreadyg | ⟨hfailed, hshort⟩⟩ :=
    clearDirectory_ok (by omega) (by omega) hready hclear
  · rcases writeFatEntry_ok hsize hvbr hreadyg (by decide) h with ⟨b, -, rfl, -⟩ | ⟨-, hno⟩
    · refine ⟨?_, .inl ⟨hreadyg.write (by decide), ?_⟩⟩
      · exact trans_of (KeepsSectors image fun n => n < first ∧ n ≠ reservedSectorsCount)
          (hkeep.mono fun n hn => hn.1) (keepsSectors_write fun hn => hn.2 rfl)
      · have hsec : Bytes.get32 ((g.write image reservedSectorsCount
            (b.put32 (2 * 4) fatEntryEndOfChain)).sec image reservedSectorsCount) 8 =
              (b.put32 8 fatEntryEndOfChain).get32 8 :=
          Bytes.get32_congr fun i hi => by rw [sec_write (by omega), if_pos rfl]
        rw [hsec, Bytes.get32_put32_self]
        rfl
    · exact absurd (hkeep.has hhas) hno
  · obtain rfl := stuck_of_failed hfailed h
    exact ⟨hkeep.mono fun n hn => hn.1, .inr ⟨hfailed, hkeep, fun hh => hshort (hh.mono (by omega))⟩⟩

end

end GarbageOS.Fat32Maker
