import GarbageOS.Lib.Runs
import GarbageOS.Tools.Geometry

/-!
# The entries of a table

Each access reads the boot sector, computes the sector and the offset of the entry, and reads or
rewrites that sector. Together the sectors make one array of entries.
-/

namespace GarbageOS.Fat32Maker

open Lib

def readFatEntry (image : FileImage) (entry : Nat) : ToolM Nat := do
  let buffer ← readSector image 0 newBuffer
  let buffer ← readSector image (fatEntrySector image buffer entry) buffer
  return buffer.get32 (entry * 4 % 2 ^ 32 % image.sectorSize)

def FileImage.entrySector (image : FileImage) (e : Nat) : Nat :=
  reservedSectorsCount + e * 4 / image.sectorSize

/-- The place of an entry in the file. -/
def FileImage.entryAt (image : FileImage) (e : Nat) : Nat :=
  image.position reservedSectorsCount + e * 4

/-- The file has the sector of an entry, and the seek to it is exact. -/
structure HasEntry (image : FileImage) (f : ImageFile) (e : Nat) : Prop where
  seek : image.position (image.entrySector e) < 2 ^ 31
  has : f.Has image (image.entrySector e)

section

variable {image : FileImage} {f : ImageFile} {vbr b : Bytes} {e : Nat}

theorem entryAt_eq (image : FileImage) (e : Nat) :
    image.entryAt e = image.position (image.entrySector e) + e * 4 % image.sectorSize := by
  have := Nat.div_add_mod' (e * 4) image.sectorSize
  unfold FileImage.entryAt FileImage.entrySector FileImage.position
  rw [Nat.add_mul]
  omega

variable (hsize : 512 ≤ image.sectorSize) (hmod : image.sectorSize % 4 = 0)
  (hvbr : BootFields vbr) (hready : Ready image vbr f) (he : HasEntry image f e)

include hsize

theorem entry_inside (hmod : image.sectorSize % 4 = 0) (e : Nat) :
    e * 4 % image.sectorSize + 4 ≤ image.sectorSize := by
  have hlt := Nat.mod_lt (e * 4) (show 0 < image.sectorSize by omega)
  have hfour : e * 4 % image.sectorSize % 4 = 0 := by
    rw [Nat.mod_mod_of_dvd _ (Nat.dvd_of_mod_eq_zero hmod), Nat.mul_mod_left]
  omega

include hvbr hready he

theorem run_readEntrySector : ∃ b, SameSector image b (f.sec image (image.entrySector e)) ∧
    ∀ {α : Type} (next : Nat → Nat → Bytes → ToolM α), (do
        let buffer ← readSector image 0 newBuffer
        let sector := fatEntrySector image buffer e
        let buffer ← readSector image sector buffer
        next sector (e * 4 % 2 ^ 32 % image.sectorSize) buffer).run f =
      (next (image.entrySector e) (e * 4 % image.sectorSize) b).run f := by
  have hseek := he.seek
  have hlow : image.position 0 < 2 ^ 31 := Nat.lt_of_le_of_lt
    (Nat.le_trans (Nat.le_add_right _ _) (position_lt image (Nat.add_pos_left (by decide) _))) hseek
  have hstart : getFatAreaStart (f.read image 0 newBuffer) = reservedSectorsCount :=
    (SameSector.get16 hsize hready.sameSector_read (by decide)).trans hvbr.start
  have hlt : e * 4 < 2 ^ 31 := by
    have hrest := Nat.mod_lt (e * 4) (show 0 < image.sectorSize by omega)
    have hdiv := Nat.div_add_mod' (e * 4) image.sectorSize
    unfold FileImage.position FileImage.entrySector reservedSectorsCount at hseek
    rw [Nat.add_mul] at hseek
    omega
  have hwrap : e * 4 % 2 ^ 32 = e * 4 := Nat.mod_eq_of_lt (by omega)
  have hsector : fatEntrySector image (f.read image 0 newBuffer) e = image.entrySector e := by
    have := Nat.div_le_self (e * 4) image.sectorSize
    unfold fatEntrySector
    rw [hstart, hwrap]
    exact Nat.mod_eq_of_lt (by unfold reservedSectorsCount; omega)
  have hread := run_readSector_of_has (b := f.read image 0 newBuffer) he.seek hready.good he.has
  refine ⟨_, (readSector_has hready.good he.has hread).2, fun next => ?_⟩
  rw [run_ok_bind (run_readSector_of_has hlow hready.good hready.has)]
  dsimp only
  rw [hsector, run_ok_bind hread, hwrap]

include hmod

theorem run_readFatEntry :
    (readFatEntry image e).run f = .ok (f.bytes.get32 (image.entryAt e)) f := by
  have hin := entry_inside hsize hmod e
  obtain ⟨b, hb, hrun⟩ := run_readEntrySector hsize hvbr hready he
  have hsame : b.get32 (e * 4 % image.sectorSize) = f.bytes.get32 (image.entryAt e) := by
    refine Bytes.get32_congr fun i hi => ?_
    rw [hb _ (by omega), entryAt_eq, Nat.add_assoc]
    rfl
  rw [← hsame]
  exact hrun fun _ offset buffer => pure (buffer.get32 offset)

end

section

variable {image : FileImage} {f : ImageFile} {b : Bytes} {n o v a : Nat}

theorem get32_write_put32 (ho : o + 4 ≤ image.sectorSize) :
    (f.write image n (b.put32 o v)).bytes.get32 (image.position n + o) = v % 2 ^ 32 := by
  rw [← Bytes.get32_put32_self (b := b) (o := o)]
  refine Bytes.get32_congr fun i hi => ?_
  rw [Nat.add_assoc]
  exact Bytes.copy_in (by omega)

theorem bytes_write_put32 (hb : SameSector image b (f.sec image n))
    (ha : a < image.position n + o ∨ image.position n + o + 4 ≤ a) :
    (f.write image n (b.put32 o v)).bytes a = f.bytes a := by
  by_cases hout : a < image.position n ∨ image.position n + image.sectorSize ≤ a
  · exact Bytes.copy_out hout
  · obtain ⟨i, rfl⟩ := Nat.exists_eq_add_of_le (Nat.le_of_not_lt fun h => hout (.inl h))
    refine (Bytes.copy_in (by omega)).trans ?_
    rw [Bytes.put32_out (by omega), hb i (by omega)]
    rfl

end

/-- Entries that are in the file make an array: what is written to one is read from it, the others
stay, and so does every other byte. -/
theorem fatEntries_array {vbrIn vbr : Bytes} {volumeName : List UInt8} {fatSize volumeSize
    clusterSize sectorSize time e v : Nat} {f g g' : ImageFile} {image : FileImage}
    (hfat : fatSize < 2 ^ 32) (hvolume : volumeSize < 2 ^ 32) (hcluster : clusterSize < 2 ^ 8)
    (hsector : sectorSize < 2 ^ 16)
    (h : (makeFat32VBR vbrIn volumeName fatSize volumeSize clusterSize sectorSize time).run g =
      .ok vbr g') (himage : image.sectorSize = sectorSize) (hsize : 512 ≤ sectorSize)
    (hmod : sectorSize % 4 = 0) (hready : Ready image vbr f) (he : HasEntry image f e)
    (hv : v < 2 ^ 32) : ∃ f', (writeFatEntry image e v).run f = .ok () f' ∧
      (readFatEntry image e).run f' = .ok v f' ∧
      (∀ e' ≠ e, HasEntry image f e' → ∃ w, (readFatEntry image e').run f = .ok w f ∧
        (readFatEntry image e').run f' = .ok w f') ∧
      f'.length = f.length ∧
      ∀ a, a < image.entryAt e ∨ image.entryAt e + 4 ≤ a → f'.bytes a = f.bytes a := by
  obtain ⟨⟨hvbr, -⟩, -⟩ := fields_of_makeFat32VBR hfat hvolume hcluster hsector h
  subst himage
  have hin := entry_inside hsize hmod e
  obtain ⟨b, hb, hrun⟩ := run_readEntrySector hsize hvbr hready he
  have hready' : Ready image vbr (f.write image (image.entrySector e)
      (b.put32 (e * 4 % image.sectorSize) v)) :=
    hready.write (Nat.ne_of_gt (Nat.add_pos_left (by decide) _))
  have hframe (a : Nat) (ha : a < image.entryAt e ∨ image.entryAt e + 4 ≤ a) :=
    bytes_write_put32 (v := v) hb (by rwa [entryAt_eq] at ha)
  refine ⟨_, (hrun fun sector offset buffer =>
    writeSector image sector (buffer.put32 offset v)).trans
      (run_writeSector_of_good he.seek hready.good), ?_, fun e' hne he' => ?_,
    Nat.max_eq_left he.has, hframe⟩
  · rw [run_readFatEntry hsize hmod hvbr hready' ⟨he.seek, he.has.write⟩, entryAt_eq,
      get32_write_put32 hin, Nat.mod_eq_of_lt hv]
  · refine ⟨_, run_readFatEntry hsize hmod hvbr hready he', ?_⟩
    rw [run_readFatEntry hsize hmod hvbr hready' ⟨he'.seek, he'.has.write⟩,
      Bytes.get32_congr fun i hi => hframe _ (by unfold FileImage.entryAt; omega)]

/-- The small volume in a file of the given length. -/
def smallImage (length : Nat) : ImageFile := ⟨plainVbr 512 66582, length, false⟩

theorem ready_smallImage {length : Nat} (h : 512 ≤ length) :
    Ready ⟨512, 0⟩ (plainVbr 512 66582) (smallImage length) :=
  ⟨rfl, fun _ _ => congrArg _ (Nat.zero_add _), h⟩

theorem fatEntries_array_small : ∃ f',
    (writeFatEntry ⟨512, 0⟩ 200 7).run (smallImage (66582 * 512)) = .ok () f' ∧
      (readFatEntry ⟨512, 0⟩ 200).run f' = .ok 7 f' := by
  obtain ⟨f', hwrite, hread, -⟩ := fatEntries_array (e := 200) (v := 7) (by decide) (by decide)
    (by decide) (by decide) run_smallVbr rfl (by decide) (by decide)
    (ready_smallImage (by decide : 512 ≤ 66582 * 512))
    ⟨by decide, by unfold ImageFile.Has; decide⟩ (by decide)
  exact ⟨f', hwrite, hread⟩

/-- If the file ends before the table, the read in `writeFatEntry` fails and nothing is written. -/
theorem exists_entry_lost : Ready ⟨512, 0⟩ (plainVbr 512 66582) (smallImage 512) ∧
    (makeFat32VBR newBuffer [] 512 66582 1 512 0).run noFile = .ok (plainVbr 512 66582) noFile ∧
    ∃ f', (do writeFatEntry ⟨512, 0⟩ 3 7; readFatEntry ⟨512, 0⟩ 3).run (smallImage 512) =
      .ok 0 f' :=
  ⟨ready_smallImage (Nat.le_refl _), run_smallVbr, _, eq_of_returned (by decide +kernel)⟩

end GarbageOS.Fat32Maker
