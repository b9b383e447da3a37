import GarbageOS.Boot.ClusterChain
import GarbageOS.Tools.Redundancy

/-!
# The layout of a volume

What `makeFat32VBR` accepts, held against the volume it describes: whether it fits, whether the
table has an entry for every cluster, and whether the boot loader finds a cluster where the
formatter puts it.
-/

namespace GarbageOS.Fat32Maker

open Lib Fat32Driver

def usedSectors (vbr : Bytes) : Nat :=
  vbr.get16 vbrOffsetRsvdSecCnt + vbr.get8 vbrOffsetNumFats * vbr.get32 vbrOffsetFatSz32 +
    getClusterCount vbr * vbr.get8 vbrOffsetSecPerClus

/-- The first table has an entry for every cluster, and they are written there. -/
structure CoversClusters (image : FileImage) (vbr : Bytes) : Prop where
  entries : getClusterCount vbr + 2 ≤ vbr.get32 vbrOffsetFatSz32 * image.sectorSize / 4
  writes : ∀ c, 2 ≤ c → c < getClusterCount vbr + 2 →
    getFatAreaStart vbr ≤ fatEntrySector image vbr c ∧
      fatEntrySector image vbr c < getFatAreaStart vbr + vbr.get32 vbrOffsetFatSz32

def clusters (fatSize volumeSize clusterSize : Nat) : Nat :=
  (volumeSize + (2 ^ 32 - (reservedSectorsCount + 2 * fatSize) % 2 ^ 32)) % 2 ^ 32 / clusterSize

section

variable {vbrIn vbr : Bytes} {volumeName : List UInt8} {fatSize volumeSize clusterSize sectorSize
  time : Nat} {f f' : ImageFile} {image : FileImage} {disk : Disk} {m : Machine} {c : Nat}
  (hfat : fatSize < 2 ^ 32) (hvolume : volumeSize < 2 ^ 32) (hcluster : clusterSize < 2 ^ 8)
  (hsector : sectorSize < 2 ^ 16)
  (h : (makeFat32VBR vbrIn volumeName fatSize volumeSize clusterSize sectorSize time).run f =
    .ok vbr f')

include hfat hvolume hcluster hsector h

theorem fields_of_makeFat32VBR :
    VbrFields vbr fatSize ∧ SizeFields vbr volumeSize clusterSize sectorSize := by
  obtain ⟨-, rfl, -⟩ := (run_makeFat32VBR_ok hfat hvolume hcluster hsector).1 h
  exact ⟨vbrFields_ok hfat, vbrFields_sizes hvolume hcluster hsector⟩

theorem getClusterCount_eq : getClusterCount vbr = clusters fatSize volumeSize clusterSize := by
  obtain ⟨hvbr, hsizes⟩ := fields_of_makeFat32VBR hfat hvolume hcluster hsector h
  unfold getClusterCount getDataAreaSize clusters
  rw [hvbr.getDataAreaFirstSector_eq, hsizes.volume, hsizes.cluster]

/-- An accepted volume fits exactly if its reserved sectors and tables do. -/
theorem usedSectors_le_iff :
    usedSectors vbr ≤ volumeSize ↔ reservedSectorsCount + 2 * fatSize ≤ volumeSize := by
  obtain ⟨hvbr, hsizes⟩ := fields_of_makeFat32VBR hfat hvolume hcluster hsector h
  have hstart : vbr.get16 vbrOffsetRsvdSecCnt = reservedSectorsCount := hvbr.start
  unfold usedSectors
  rw [hstart, hvbr.numFats, hvbr.fatSize, hsizes.cluster,
    getClusterCount_eq hfat hvolume hcluster hsector h, clusters]
  unfold numberOfFats
  constructor
  · exact Nat.le_trans (Nat.le_add_right _ _)
  · intro hfits
    have hdata := Nat.div_mul_le_self
      ((volumeSize + (2 ^ 32 - (reservedSectorsCount + 2 * fatSize) % 2 ^ 32)) % 2 ^ 32) clusterSize
    have hrest : (volumeSize + (2 ^ 32 - (reservedSectorsCount + 2 * fatSize) % 2 ^ 32)) % 2 ^ 32 =
        volumeSize - (reservedSectorsCount + 2 * fatSize) := by
      omega
    omega

/-- The first table covers the clusters exactly if the sizes that were asked for leave it enough
room; nothing that `makeFat32VBR` checks does. -/
theorem coversClusters_iff (himage : image.sectorSize = sectorSize) (hsize : 512 ≤ sectorSize) :
    CoversClusters image vbr ↔
      4 * (clusters fatSize volumeSize clusterSize + 2) ≤ fatSize * sectorSize := by
  obtain ⟨hvbr, hsizes⟩ := fields_of_makeFat32VBR hfat hvolume hcluster hsector h
  have hcount := getClusterCount_eq hfat hvolume hcluster hsector h
  have hentries : getClusterCount vbr + 2 ≤ vbr.get32 vbrOffsetFatSz32 * image.sectorSize / 4 ↔
      4 * (clusters fatSize volumeSize clusterSize + 2) ≤ fatSize * sectorSize := by
    rw [hcount, hvbr.fatSize, himage, Nat.le_div_iff_mul_le (by decide), Nat.mul_comm]
  refine ⟨fun hcovers => hentries.1 hcovers.entries, fun hroom => ⟨hentries.2 hroom, ?_⟩⟩
  intro c _ hc
  have hinside : c * 4 % 2 ^ 32 / sectorSize < fatSize := by
    refine Nat.div_lt_of_lt_mul (Nat.lt_of_le_of_lt (Nat.mod_le _ _) ?_)
    rw [Nat.mul_comm sectorSize]
    omega
  have hsmall : c * 4 % 2 ^ 32 / sectorSize < 2 ^ 31 :=
    Nat.div_lt_of_lt_mul (Nat.lt_of_lt_of_le (Nat.mod_lt _ (by decide))
      (Nat.mul_le_mul_right (2 ^ 31) (show 2 ≤ sectorSize by omega)))
  unfold fatEntrySector
  rw [hvbr.start, hvbr.fatSize, himage]
  generalize c * 4 % 2 ^ 32 / sectorSize = sector at hinside hsmall
  unfold reservedSectorsCount
  omega

section

variable (hc : 2 ≤ c) (hlt : c < 2 ^ 32)

include hc hlt

theorem getFirstSectorOfCluster_eq : getFirstSectorOfCluster vbr c =
    ((reservedSectorsCount + 2 * fatSize) % 2 ^ 32 + (c - 2) * sectorSize) % 2 ^ 32 := by
  obtain ⟨hvbr, hsizes⟩ := fields_of_makeFat32VBR hfat hvolume hcluster hsector h
  unfold getFirstSectorOfCluster getSectorSizeInBytes
  rw [hvbr.getDataAreaFirstSector_eq, hsizes.sector,
    show (c + (2 ^ 32 - 2)) % 2 ^ 32 = c - 2 by omega]

variable (hge : 512 ≤ disk.sectorSize)
  (hboot : ∀ i < 512, disk.sector m.vars.partitionOffset i = vbr i)
  (hbuffer : m.eax % 2 ^ 16 + disk.sectorSize ≤ 2 ^ 16) (hstart : m.vars.fatStart < 2 ^ 16)
  (hin : c < getClusterCount vbr + 2)

include hge hboot hbuffer hstart hin

theorem firstSectorOfCluster_lba : (c - 2) * clusterSize < 2 ^ 32 ∧
    ∃ m', (initFat32Driver disk).run m = .ok () m' ∧
      ({ m' with eax := c }.firstSectorOfCluster).lba = (c - 2) * clusterSize +
        (m.vars.partitionOffset + (reservedSectorsCount + 2 * fatSize) % 2 ^ 32) % 2 ^ 32 := by
  obtain ⟨hvbr, hsizes⟩ := fields_of_makeFat32VBR hfat hvolume hcluster hsector h
  have hproduct : (c - 2) * clusterSize < 2 ^ 32 := by
    rw [getClusterCount_eq hfat hvolume hcluster hsector h] at hin
    have hle : c - 2 ≤ clusters fatSize volumeSize clusterSize := by omega
    refine Nat.lt_of_le_of_lt (Nat.mul_le_mul_right _ hle) ?_
    exact Nat.lt_of_le_of_lt (Nat.div_mul_le_self _ _) (Nat.mod_lt _ (by decide))
  refine ⟨hproduct, ?_⟩
  obtain ⟨m', hrun, hvars⟩ := run_initFat32Driver hge hbuffer
  refine ⟨m', hrun, ?_⟩
  have hcluster' : m'.vars.sectorsPerCluster = clusterSize := by
    rw [hvars, ← hsizes.cluster]
    exact Bytes.get8_congr (hboot _ (by decide))
  have hdata : m'.vars.dataAreaStart = (reservedSectorsCount + 2 * fatSize) % 2 ^ 32 := by
    rw [hvars, ← hvbr.getDataAreaFirstSector_eq]
    unfold Vars.ofBootSector getDataAreaFirstSector
    rw [setLow16_eq hstart Bytes.get16_lt]
    simp only [Nat.zero_add]
    rw [Bytes.get16_congr fun i _ => hboot (14 + i) (by omega),
      Bytes.get8_congr (hboot 16 (by decide)),
      Bytes.get32_congr fun i _ => hboot (36 + i) (by omega), Nat.mod_add_mod, Nat.add_comm]
    rfl
  have hoffset : m'.vars.partitionOffset = m.vars.partitionOffset := by rw [hvars]; rfl
  have hsub : (c + (2 ^ 32 - 2)) % 2 ^ 32 = c - 2 := by omega
  unfold Machine.lba Machine.firstSectorOfCluster
  simp only [hcluster', hdata, hoffset, hsub, Nat.div_eq_of_lt hproduct, Nat.mod_eq_of_lt hproduct]
  split <;> omega

/-- Both find the cluster at the same place exactly if the strides agree, modulo the width of a
sector number, and the sums wrap around together. -/
theorem cluster_places_agree_iff (hoffset : m.vars.partitionOffset < 2 ^ 32) :
    ∃ m', (initFat32Driver disk).run m = .ok () m' ∧
      (getFirstSectorOfCluster vbr c + m.vars.partitionOffset =
          ({ m' with eax := c }.firstSectorOfCluster).lba ↔
        (c - 2) * sectorSize % 2 ^ 32 = (c - 2) * clusterSize ∧
        (m.vars.partitionOffset + (reservedSectorsCount + 2 * fatSize) % 2 ^ 32 < 2 ^ 32 ↔
          (c - 2) * clusterSize + (reservedSectorsCount + 2 * fatSize) % 2 ^ 32 < 2 ^ 32)) := by
  obtain ⟨hproduct, m', hrun, hlba⟩ := firstSectorOfCluster_lba hfat hvolume hcluster hsector h hc
    hlt hge hboot hbuffer hstart hin
  refine ⟨m', hrun, ?_⟩
  rw [hlba, getFirstSectorOfCluster_eq hfat hvolume hcluster hsector h hc hlt]
  generalize (c - 2) * clusterSize = stride at *
  generalize (c - 2) * sectorSize = stride'
  omega

end

end

/-! ## Volumes with 512-byte sectors -/

def noFile : ImageFile := ⟨newBuffer, 0, false⟩

def plainVbr (fatSize volumeSize : Nat) : Bytes := vbrFields newBuffer [] fatSize volumeSize 1 512 0

theorem run_plainVbr {fatSize volumeSize : Nat} (hfat : fatSize < 2 ^ 32)
    (hvolume : volumeSize < 2 ^ 32)
    (htotal : (reservedSectorsCount + 2 * fatSize + (2 ^ 32 - 1)) % 2 ^ 32 ≤ volumeSize)
    (hclusters : minFat32Clusters ≤ getClusterCount (plainVbr fatSize volumeSize)) :
    (makeFat32VBR newBuffer [] fatSize volumeSize 1 512 0).run noFile =
      .ok (plainVbr fatSize volumeSize) noFile :=
  (run_makeFat32VBR_ok hfat hvolume (by decide) (by decide)).2
    ⟨⟨by decide, htotal, by decide, hclusters⟩, rfl, rfl⟩

theorem run_smallVbr : (makeFat32VBR newBuffer [] 512 66582 1 512 0).run noFile =
    .ok (plainVbr 512 66582) noFile :=
  run_plainVbr (by decide) (by decide) (by decide) (by decide +kernel)

theorem usedSectors_smallVbr : usedSectors (plainVbr 512 66582) ≤ 66582 :=
  (usedSectors_le_iff (by decide) (by decide) (by decide) (by decide) run_smallVbr).2 (by decide)

/-- A volume that ends one sector before its data area has almost `2 ^ 32` clusters. -/
theorem exists_volume_too_small :
    (makeFat32VBR newBuffer [] 512 1055 1 512 0).run noFile = .ok (plainVbr 512 1055) noFile ∧
      ¬ usedSectors (plainVbr 512 1055) ≤ 1055 :=
  ⟨run_plainVbr (by decide) (by decide) (by decide) (by decide +kernel), by decide +kernel⟩

theorem coversClusters_smallVbr : CoversClusters ⟨512, 0⟩ (plainVbr 512 66582) :=
  (coversClusters_iff (by decide) (by decide) (by decide) (by decide) run_smallVbr rfl
    (by decide)).2 (by decide)

/-- With the sizes that `main` takes by default, the table has 16384 entries. -/
theorem default_fat_too_small : let o : Options := {}
    o.fatSize = 128 ∧ o.clusterSize = 1 ∧ o.sectorSize = 512 ∧
    (makeFat32VBR newBuffer [] 128 65814 1 512 0).run noFile = .ok (plainVbr 128 65814) noFile ∧
      ¬ CoversClusters ⟨512, 0⟩ (plainVbr 128 65814) :=
  ⟨rfl, rfl, rfl, run_plainVbr (by decide) (by decide) (by decide) (by decide +kernel),
    fun h => absurd h.entries (by decide +kernel)⟩

/-- The small volume at sector 2048. -/
def smallDisk : Disk := ⟨512, fun _ => plainVbr 512 66582⟩

theorem cluster_places_agree_first :
    ∃ m', (initFat32Driver smallDisk).run initialMachine = .ok () m' ∧
      getFirstSectorOfCluster (plainVbr 512 66582) 2 + 2048 =
        ({ m' with eax := 2 }.firstSectorOfCluster).lba := by
  obtain ⟨m', hrun, hiff⟩ := @cluster_places_agree_iff _ _ _ _ _ _ _ _ _ _ smallDisk initialMachine 2
    (by decide) (by decide) (by decide) (by decide) run_smallVbr (by decide) (by decide)
    (by decide) (fun _ _ => rfl) (by decide) (by decide) (by decide +kernel) (by decide)
  exact ⟨m', hrun, hiff.2 ⟨by decide, by decide⟩⟩

/-- The formatter puts cluster 3 a sector size behind cluster 2, the boot loader looks for it in the
next sector. -/
theorem exists_cluster_misplaced :
    (makeFat32VBR newBuffer [] 512 66582 1 512 0).run noFile = .ok (plainVbr 512 66582) noFile ∧
    ∃ m', (initFat32Driver smallDisk).run initialMachine = .ok () m' ∧
      getFirstSectorOfCluster (plainVbr 512 66582) 3 + 2048 = 3616 ∧
      ({ m' with eax := 3 }.firstSectorOfCluster).lba = 3105 :=
  ⟨run_smallVbr, _, rfl, by decide +kernel, by decide +kernel⟩

end GarbageOS.Fat32Maker
