import Mathlib.Algebra.Group.Nat.Defs

/-!
# `mbr_maker.cpp`

The tool puts one partition behind the boot loader. The entry of the partition gives its sectors
twice, by their number and as cylinder, head and sector of the first and the last one.
-/

namespace GarbageOS.MbrMaker

def fat32LbaType : Nat := 0x0C

structure CHS where
  c : Nat
  h : Nat
  s : Nat

structure PartitionTableEntry where
  driveAttributes : Nat
  chsStart : CHS
  partitionType : Nat
  chsLast : CHS
  lbaStart : Nat
  numberOfSectors : Nat

def lbaToChs (lba : Nat) : CHS :=
  let hpc := 16
  let spt := 63
  let temp := lba % (hpc * spt)
  ⟨lba / (hpc * spt) % 2 ^ 8, temp / spt % 2 ^ 8, (temp % spt + 1) % 2 ^ 8⟩

def createPartitionTableEntry (bootable : Bool) (firstLbaSector sizeInSectors type : Nat) :
    PartitionTableEntry where
  driveAttributes := if bootable then 0x80 else 0x00
  lbaStart := firstLbaSector
  numberOfSectors := sizeInSectors
  chsStart := lbaToChs firstLbaSector
  chsLast := lbaToChs ((firstLbaSector + sizeInSectors) % 2 ^ 32)
  partitionType := type

/-- The sectors before the partition: the boot loader's code without its first 440 bytes, rounded
up, and the MBR. -/
def partialImageSizeInSectors (bootloaderCodeSize : Nat) : Nat :=
  let size := (bootloaderCodeSize + (2 ^ 32 - 440)) % 2 ^ 32
  (size / 512 + (if size % 512 ≠ 0 then 1 else 0) + 1) % 2 ^ 32

/-- The first entry that `main` writes. -/
def mainEntry (bootloaderCodeSize fat32SizeInSectors : Nat) : PartitionTableEntry :=
  createPartitionTableEntry true (partialImageSizeInSectors bootloaderCodeSize) fat32SizeInSectors
    fat32LbaType

/-- The sector under the geometry of the tool. -/
def CHS.lba (chs : CHS) : Nat := (chs.c * 16 + chs.h) * 63 + chs.s - 1

theorem lbaToChs_lba (lba : Nat) : (lbaToChs lba).lba = lba % (256 * 16 * 63) := by
  unfold lbaToChs CHS.lba
  dsimp only
  omega

/-- The start is denoted exactly below cylinder 256, whose number does not fit. The last sector
never is: the one behind it is encoded. -/
theorem createPartitionTableEntry_denotes_iff {bootable : Bool} {start size type : Nat} :
    ((createPartitionTableEntry bootable start size type).chsStart.lba = start ↔
      start < 256 * 16 * 63) ∧
    (createPartitionTableEntry bootable start size type).chsLast.lba + 1 ≠ start + size := by
  unfold createPartitionTableEntry
  dsimp only
  rw [lbaToChs_lba, lbaToChs_lba]
  omega

/-- A boot loader of one sector, and a partition of one sector behind it. -/
theorem mainEntry_last_wrong : (mainEntry 512 1).lbaStart = 2 ∧ (mainEntry 512 1).chsStart.lba = 2 ∧
    (mainEntry 512 1).chsLast.lba = 3 := by
  decide

end GarbageOS.MbrMaker
