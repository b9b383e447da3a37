import GarbageOS.Tools.BootCode

/-!
# The second stage of the boot loader

`second_stage_boot.asm` is linked to `0x7c00 + 90`, where its first 420 bytes are when the
boot sector is in memory. It reads the rest of itself with one BIOS call: a fixed number of
sectors from the third sector behind the backup boot sector on. The formatter has put the
code there, up to the tables.
-/

namespace GarbageOS.SecondStage

open Lib Fat32Maker

def vbrAddress : Nat := 0x7c00
def bkBootSecAddress : Nat := 0x7c00 + 50
def org : Nat := 0x7c00 + 90
def thirdStageEntry : Nat := org + 420
def dapToRead : Nat := 20

def diskSector : Nat := 512

/-- `int 0x13` with `ah = 0x42`: read `count` sectors from `lba` on into memory. -/
def extendedRead (disk : Bytes) (lba count buffer : Nat) (mem : Bytes) : Bytes :=
  mem.copy buffer (fun i => disk (diskSector * lba + i)) (diskSector * count)

def secondStage (disk : Bytes) (partitionOffset : Nat) (mem : Bytes) : Bytes :=
  let lba := (mem.get16 bkBootSecAddress + 3 + partitionOffset) % 2 ^ 32
  extendedRead disk lba dapToRead thirdStageEntry mem

variable {image : FileImage} {file : File} {f f' : ImageFile} {garbage mem : Bytes}
  {partitionOffset : Nat}

def HoldsVbr (disk : Bytes) (partitionOffset : Nat) (mem : Bytes) : Prop :=
  ∀ i < diskSector, mem (vbrAddress + i) = disk (diskSector * partitionOffset + i)

/-- The image and the boot loader agree on the boot code. -/
structure CodeLoaded (image : FileImage) (file : File) (partitionOffset : Nat) (f : ImageFile) :
    Prop where
  /-- The place in the boot sector holds the first bytes of the file. -/
  first : ∀ i < vbrSizeBootCode32, i < file.length ∧
    f.sec image 0 (vbrOffsetBootCode32 + i) = file.bytes i
  /-- The others are loaded to where they are linked. -/
  rest : ∀ mem, HoldsVbr f.bytes partitionOffset mem → ∀ k, vbrSizeBootCode32 ≤ k →
    k < file.length → secondStage f.bytes partitionOffset mem (org + k) = file.bytes k

/-- A partition with the tool's layout, and its reserved sectors are in the file. -/
structure IsPartition (image : FileImage) (f : ImageFile) : Prop where
  ready : Ready image (f.sec image 0) f
  fields : BootFields (f.sec image 0)
  has : ∀ n < reservedSectorsCount, f.Has image n

theorem writeBootCode_returns_iff (hsize : 512 ≤ image.sectorSize) (hf : IsPartition image f) :
    (∃ f', (writeBootCode image (some file) garbage).run f = .ok () f') ↔
      file.length % 2 ^ 32 ≠ 0 ∧ image.position 0 < 2 ^ 31 ∧
        CodeFits image reservedSectorsCount (file.length % 2 ^ 32) 420 9 := by
  have hloop : (∃ f', (writeCodeFrom image (withCode (f.read image 0 newBuffer)
      (codeBuffer file garbage)) (codeBuffer file garbage) (file.length % 2 ^ 32) (2 ^ 16) 420 9
        newBuffer).run (f.write image 0 (withCode (f.read image 0 newBuffer)
          (codeBuffer file garbage))) = .ok () f') ↔ _ :=
    writeCodeFrom_returns_iff (fatAreaStart_withCode hsize hf.fields hf.ready) hf.ready.good
      (fun n hn => (hf.has n hn).write) (by decide) (by decide)
  rw [← hloop]
  constructor
  · rintro ⟨f', h⟩
    obtain ⟨h₁, h₂, h₃⟩ := (run_writeBootCode_ok hsize hf.fields hf.ready).1 h
    exact ⟨h₁, h₂, f', h₃⟩
  · rintro ⟨h₁, h₂, f', h₃⟩
    exact ⟨f', (run_writeBootCode_ok hsize hf.fields hf.ready).2 ⟨h₁, h₂, h₃⟩⟩

section

variable (hsize : 512 ≤ image.sectorSize)
  (hpart : diskSector * partitionOffset = image.fileOffset * image.sectorSize)
  (hf : IsPartition image f)
  (hrun : (writeBootCode image (some file) garbage).run f = .ok () f')

include hsize hpart hf hrun

theorem secondStage_eq (hmem : HoldsVbr f'.bytes partitionOffset mem) :
    secondStage f'.bytes partitionOffset mem =
      extendedRead f'.bytes (9 + partitionOffset) dapToRead thirdStageEntry mem := by
  have hpos := ((writeBootCode_returns_iff hsize hf).1 ⟨f', hrun⟩).2.1
  have hbase : image.position 0 = diskSector * partitionOffset := by
    unfold FileImage.position
    rw [hpart, Nat.zero_mul, Nat.zero_add]
  have hfield : mem.get16 bkBootSecAddress = 6 := by
    rw [← hf.fields.backup]
    apply Bytes.get16_congr
    intro i hi
    have hframe := (writeBootCode_frame hsize hf.fields hf.ready hrun).2 0 (50 + i) (by omega)
      (.inl (by decide)) fun _ => .inl (by omega)
    rw [show vbrOffsetBkBootSec + i = 50 + i from rfl, ← hframe]
    unfold ImageFile.sec
    rw [hbase]
    have := hmem (50 + i) (by unfold diskSector; omega)
    rw [← this]
    unfold bkBootSecAddress vbrAddress
    congr 1
    omega
  unfold secondStage
  rw [hfield, Nat.mod_eq_of_lt (by unfold diskSector at hbase; omega)]

theorem secondStage_in {k : Nat} (hmem : HoldsVbr f'.bytes partitionOffset mem) (hk : 420 ≤ k)
    (hk' : k < 10660) : secondStage f'.bytes partitionOffset mem (org + k) =
      f'.bytes (512 * (9 + partitionOffset) + (k - 420)) := by
  rw [secondStage_eq hsize hpart hf hrun hmem]
  unfold extendedRead thirdStageEntry
  rw [show org + k = org + 420 + (k - 420) by omega,
    Bytes.copy_in (by unfold diskSector dapToRead; omega)]
  rfl

theorem secondStage_out {k : Nat} (hmem : HoldsVbr f'.bytes partitionOffset mem)
    (hk : 10660 ≤ k) : secondStage f'.bytes partitionOffset mem (org + k) = mem (org + k) := by
  rw [secondStage_eq hsize hpart hf hrun hmem]
  unfold extendedRead
  exact Bytes.copy_out (.inr (by unfold thirdStageEntry diskSector dapToRead; omega))

theorem codeLoaded_of_size (hlow : 420 ≤ file.length)
    (hhigh : file.length = 420 ∨ image.sectorSize = 512 ∧ file.length ≤ 10660) :
    CodeLoaded image file partitionOffset f' := by
  have hlength : file.length % 2 ^ 32 = file.length := Nat.mod_eq_of_lt (by omega)
  obtain ⟨-, -, hloop⟩ := (run_writeBootCode_ok hsize hf.fields hf.ready).1 hrun
  rw [hlength] at hloop
  have hcode {k : Nat} (hk : k < file.length) : codeBuffer file garbage k = file.bytes k := by
    unfold codeBuffer
    rw [hlength]
    have hin : garbage.copy 0 file.bytes file.length (0 + k) = file.bytes k := Bytes.copy_in hk
    rwa [Nat.zero_add] at hin
  constructor
  · intro i hi
    unfold vbrSizeBootCode32 at hi
    refine ⟨by omega, ?_⟩
    have hkeep := keeps_writeCodeFrom (Nat.le_refl 9) hloop
    rw [hkeep.sec 0 (.inl (by decide)) _ (by unfold vbrOffsetBootCode32; omega),
      sec_write (by unfold vbrOffsetBootCode32; omega), if_pos rfl]
    exact (withCode_in hi).trans (hcode (by omega))
  · intro mem hmem k hk hk'
    unfold vbrSizeBootCode32 at hk
    obtain hlen | ⟨hsec, hlen⟩ := hhigh
    · omega
    · have hwritten := writeCodeFrom_ok (by omega) (f := f.write image 0 _) hf.ready.good
        (fun n hn => (hf.has n (by
          rwa [fatAreaStart_withCode hsize hf.fields hf.ready] at hn)).write) hloop k hk hk'
      have hplace : 512 * (9 + partitionOffset) = image.position 9 := by
        unfold FileImage.position
        unfold diskSector at hpart
        omega
      rw [secondStage_in hsize hpart hf hrun hmem hk (by omega), hplace, ← hcode hk', ← hwritten]

end

/-! ## Files that are not loaded -/

/-- A partition with nothing but the two fields of the boot sector. -/
def blankPartition (image : FileImage) (filler : UInt8) : ImageFile where
  bytes := (Bytes.put16 (fun _ => filler) (image.position 0 + vbrOffsetRsvdSecCnt)
    reservedSectorsCount).put16 (image.position 0 + vbrOffsetBkBootSec) 6
  length := image.position reservedSectorsCount
  failed := false

theorem isPartition_blankPartition {filler : UInt8} :
    IsPartition image (blankPartition image filler) where
  ready := ⟨rfl, fun _ _ => rfl, position_lt image (by decide)⟩
  fields := by
    have hsec {o : Nat} : Bytes.get16 ((blankPartition image filler).sec image 0) o =
        (blankPartition image filler).bytes.get16 (image.position 0 + o) :=
      Bytes.get16_congr fun i _ => by rw [Nat.add_assoc]; rfl
    constructor
    · unfold getFatAreaStart
      rw [hsec]
      unfold blankPartition
      rw [Bytes.get16_congr fun i hi => Bytes.put16_out
          (by unfold vbrOffsetRsvdSecCnt vbrOffsetBkBootSec; omega), Bytes.get16_put16_self]
      rfl
    · rw [hsec]
      exact Bytes.get16_put16_self
  has n hn := position_lt image hn

theorem blankPartition_sec {filler : UInt8} {n i : Nat} (h : 512 ≤ n * image.sectorSize + i) :
    (blankPartition image filler).sec image n i = filler := by
  have hpos : image.position n + i = n * image.sectorSize + i + image.position 0 := by
    unfold FileImage.position
    omega
  unfold ImageFile.sec
  rw [hpos]
  exact (Bytes.put16_out (by unfold vbrOffsetBkBootSec; omega)).trans
    (Bytes.put16_out (by unfold vbrOffsetRsvdSecCnt; omega))

/-- Memory with the boot sector, and with `filler` behind it. -/
def memoryWithVbr (disk : Bytes) (partitionOffset : Nat) (filler : UInt8) : Bytes := fun a =>
  if a < vbrAddress + diskSector then disk (diskSector * partitionOffset + (a - vbrAddress))
  else filler

theorem holdsVbr_memoryWithVbr {disk : Bytes} {filler : UInt8} :
    HoldsVbr disk partitionOffset (memoryWithVbr disk partitionOffset filler) := by
  intro i hi
  unfold memoryWithVbr
  rw [if_pos (by omega), Nat.add_sub_cancel_left]

theorem exists_ne (b : UInt8) : ∃ c, c ≠ b := by
  by_cases h : b = 0
  · exact ⟨1, by rw [h]; decide⟩
  · exact ⟨0, fun e => h e.symm⟩

section

variable (hsize : 512 ≤ image.sectorSize)
  (hpart : diskSector * partitionOffset = image.fileOffset * image.sectorSize)

include hsize hpart

/-- With larger sectors, the formatter leaves alone what the loader reads first. -/
theorem not_codeLoaded_of_sectorSize (hlength : 420 < file.length)
    (hsector : image.sectorSize ≠ 512) {filler : UInt8} (hfiller : filler ≠ file.bytes 420)
    (hrun : (writeBootCode image (some file) garbage).run (blankPartition image filler) =
      .ok () f') : ¬ CodeLoaded image file partitionOffset f' := by
  intro hloaded
  have hf : IsPartition image (blankPartition image filler) := isPartition_blankPartition
  have hbyte := hloaded.rest (memoryWithVbr f'.bytes partitionOffset 0) holdsVbr_memoryWithVbr 420
    (Nat.le_refl _) hlength
  rw [secondStage_in hsize hpart hf hrun holdsVbr_memoryWithVbr (Nat.le_refl _) (by decide)]
    at hbyte
  have hdiv := Nat.div_add_mod' 4608 image.sectorSize
  have hmod : 4608 % image.sectorSize < image.sectorSize := Nat.mod_lt _ (by omega)
  have hlow : 4608 / image.sectorSize < 9 := (Nat.div_lt_iff_lt_mul (by omega)).2 (by omega)
  have hframe := (writeBootCode_frame hsize hf.fields hf.ready hrun).2
    (4608 / image.sectorSize) (4608 % image.sectorSize) hmod (.inl hlow) fun h0 => by
      rw [h0] at hdiv
      omega
  rw [blankPartition_sec (by omega)] at hframe
  have hplace : 512 * (9 + partitionOffset) + (420 - 420) =
      image.position (4608 / image.sectorSize) + 4608 % image.sectorSize := by
    unfold FileImage.position
    unfold diskSector at hpart
    omega
  rw [hplace] at hbyte
  exact hfiller (hframe.symm.trans hbyte)

/-- The loader reads twenty sectors, the formatter writes up to twenty-three. -/
theorem not_codeLoaded_of_length (hlength : 10660 < file.length) (hf : IsPartition image f)
    (hrun : (writeBootCode image (some file) garbage).run f = .ok () f') :
    ¬ CodeLoaded image file partitionOffset f' := by
  intro hloaded
  obtain ⟨filler, hfiller⟩ := exists_ne (file.bytes 10660)
  have hbyte := hloaded.rest (memoryWithVbr f'.bytes partitionOffset filler)
    holdsVbr_memoryWithVbr 10660 (by decide) hlength
  rw [secondStage_out hsize hpart hf hrun holdsVbr_memoryWithVbr (Nat.le_refl _)] at hbyte
  unfold memoryWithVbr at hbyte
  rw [if_neg (by decide)] at hbyte
  exact hfiller hbyte

end

/-- The formatter and the loader agree on exactly the files that fill the place in the boot
sector and, with sectors of 512 bytes, the twenty sectors the loader reads at most. -/
theorem codeLoaded_iff (hsize : 512 ≤ image.sectorSize)
    (hpart : diskSector * partitionOffset = image.fileOffset * image.sectorSize)
    (haccepted : ∃ f garbage f', IsPartition image f ∧
      (writeBootCode image (some file) garbage).run f = .ok () f') :
    (∀ f garbage f', IsPartition image f →
      (writeBootCode image (some file) garbage).run f = .ok () f' →
        CodeLoaded image file partitionOffset f') ↔
      vbrSizeBootCode32 ≤ file.length ∧ (file.length = vbrSizeBootCode32 ∨
        image.sectorSize = diskSector ∧
          file.length ≤ vbrSizeBootCode32 + diskSector * dapToRead) := by
  obtain ⟨f, garbage, f', hf, hrun⟩ := haccepted
  constructor
  · intro hall
    refine ⟨Nat.le_of_not_lt fun hlt => ?_, ?_⟩
    · exact Nat.lt_irrefl _ ((hall f garbage f' hf hrun).first file.length hlt).1
    · refine Classical.byContradiction fun hno => ?_
      have hlow : 420 ≤ file.length := Nat.le_of_not_lt fun hlt =>
        Nat.lt_irrefl _ ((hall f garbage f' hf hrun).first file.length hlt).1
      obtain ⟨hne, hhigh⟩ := not_or.1 hno
      have hlength : 420 < file.length := Nat.lt_of_le_of_ne hlow (Ne.symm hne)
      by_cases hsector : image.sectorSize = 512
      · refine not_codeLoaded_of_length hsize hpart ?_ hf hrun (hall f garbage f' hf hrun)
        exact Nat.lt_of_not_le fun hle => hhigh ⟨hsector, hle⟩
      · obtain ⟨filler, hfiller⟩ := exists_ne (file.bytes 420)
        have hblank : IsPartition image (blankPartition image filler) := isPartition_blankPartition
        obtain ⟨g, hg⟩ : ∃ g, (writeBootCode image (some file) garbage).run
            (blankPartition image filler) = .ok () g :=
          (writeBootCode_returns_iff hsize hblank).2
            ((writeBootCode_returns_iff hsize hf).1 ⟨f', hrun⟩)
        exact not_codeLoaded_of_sectorSize hsize hpart hlength hsector hfiller hg
          (hall _ garbage g hblank hg)
  · rintro ⟨hlow, hhigh⟩ g garbage' g' hg hgrun
    exact codeLoaded_of_size hsize hpart hg hgrun hlow hhigh

def diskImage : FileImage := ⟨512, 2048⟩

def codeFile (length : Nat) : File := ⟨fun _ => 0, length, fun _ _ => rfl⟩

theorem diskImage_accepts {length : Nat} (h0 : length ≠ 0) (h : length ≤ 420 + 23 * 512) :
    ∃ f', (writeBootCode diskImage (some (codeFile length)) newBuffer).run
      (blankPartition diskImage 0) = .ok () f' := by
  have hmod : length % 2 ^ 32 = length := Nat.mod_eq_of_lt (by omega)
  refine (writeBootCode_returns_iff (Nat.le_refl 512) isPartition_blankPartition).2
    ⟨?_, by decide, ?_⟩
  · show length % 2 ^ 32 ≠ 0
    rwa [hmod]
  · show CodeFits diskImage reservedSectorsCount (length % 2 ^ 32) 420 9
    rw [hmod]
    intro _
    refine ⟨by omega, fun j hj => ?_⟩
    unfold FileImage.position diskImage reservedSectorsCount at *
    dsimp only at *
    omega

theorem codeLoaded_iff_kilobyte :
    (∃ f garbage f', IsPartition diskImage f ∧
      (writeBootCode diskImage (some (codeFile 1024)) garbage).run f = .ok () f') ∧
    ∀ f garbage f', IsPartition diskImage f →
      (writeBootCode diskImage (some (codeFile 1024)) garbage).run f = .ok () f' →
        CodeLoaded diskImage (codeFile 1024) 2048 f' := by
  obtain ⟨f', hrun⟩ := diskImage_accepts (show 1024 ≠ 0 by decide) (by decide)
  have haccepted : ∃ f garbage f', IsPartition diskImage f ∧
      (writeBootCode diskImage (some (codeFile 1024)) garbage).run f = .ok () f' :=
    ⟨_, _, f', isPartition_blankPartition, hrun⟩
  exact ⟨haccepted, (codeLoaded_iff (Nat.le_refl 512) rfl haccepted).2 (by decide)⟩

/-- A file of 12000 bytes is accepted, and its last 1340 bytes are not loaded. -/
theorem exists_code_not_loaded : ∃ f', IsPartition diskImage (blankPartition diskImage 0) ∧
    (writeBootCode diskImage (some (codeFile 12000)) newBuffer).run
      (blankPartition diskImage 0) = .ok () f' ∧
    ¬ CodeLoaded diskImage (codeFile 12000) 2048 f' := by
  obtain ⟨f', hrun⟩ := diskImage_accepts (show 12000 ≠ 0 by decide) (by decide)
  have hpartition : IsPartition diskImage (blankPartition diskImage 0) := isPartition_blankPartition
  refine ⟨f', hpartition, hrun, ?_⟩
  exact not_codeLoaded_of_length (Nat.le_refl 512) rfl (by decide) hpartition hrun

end GarbageOS.SecondStage
