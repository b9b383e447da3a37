import GarbageOS.Tools.BootCode

/-!
# The redundant structures of an image

FAT32 keeps several things twice: the allocation table in `NUM_FATS` copies, the first
sectors of the partition in a backup, and the number of free clusters in the FSInfo sector.
The passes of `fat32_maker` update one of the two only: an entry is written to the first
table, and the cluster of the root directory is counted as free.
-/

namespace GarbageOS.Fat32Maker

open Lib

variable {image : FileImage} {f f' : ImageFile} {vbr vbr' b : Bytes} {u : Unit}

/-! ## What agreement means -/

def ImageFile.byteAt (f : ImageFile) (a : Nat) : Option UInt8 :=
  if a < f.length then some (f.bytes a) else none

section

variable (image : FileImage) (f : ImageFile)

def ImageFile.bootSector : Bytes := f.sec image 0

def ImageFile.fatBytes : Nat := (f.bootSector image).get32 vbrOffsetFatSz32 * image.sectorSize

def ImageFile.fatPosition : Nat := image.position (getFatAreaStart (f.bootSector image))

/-- The first table has an entry for the cluster, and it is zero. -/
def ImageFile.entryIsZero (cluster : Nat) : Bool :=
  4 * cluster + 4 ≤ f.fatBytes image && f.fatPosition image + 4 * cluster + 4 ≤ f.length &&
    f.bytes.get32 (f.fatPosition image + 4 * cluster) == 0

/-- The number of zero entries among those of the clusters `2 .. clusterCount + 1`. -/
def ImageFile.zeroEntries : Nat :=
  (List.range (getClusterCount (f.bootSector image))).countP fun k => f.entryIsZero image (k + 2)

structure Agree : Prop where
  copies : ∀ c < (f.bootSector image).get8 vbrOffsetNumFats, ∀ i < f.fatBytes image,
    f.byteAt (f.fatPosition image + c * f.fatBytes image + i) =
      f.byteAt (f.fatPosition image + i)
  backup : ∀ n < 3, ∀ i < image.sectorSize,
    f.byteAt (image.position ((f.bootSector image).get16 vbrOffsetBkBootSec + n) + i) =
      f.byteAt (image.position n + i)
  freeCount : Bytes.get32 (f.sec image (getFSInfoSectorOffset (f.bootSector image)))
    fsinfoOffsetFreeCount = f.zeroEntries image

end

/-! ## The boot sector -/

def SameFields (vbr vbr' : Bytes) : Prop := ∀ i < 90, vbr i = vbr' i

section

variable (h : SameFields vbr vbr')

include h

theorem SameFields.get8 {o : Nat} (ho : o < 90) : vbr.get8 o = vbr'.get8 o :=
  Bytes.get8_congr (h o ho)

theorem SameFields.get16 {o : Nat} (ho : o + 1 < 90) : vbr.get16 o = vbr'.get16 o :=
  Bytes.get16_congr fun i _ => h (o + i) (by omega)

theorem SameFields.get32 {o : Nat} (ho : o + 3 < 90) : vbr.get32 o = vbr'.get32 o :=
  Bytes.get32_congr fun i _ => h (o + i) (by omega)

theorem SameFields.getClusterCount_eq : getClusterCount vbr = getClusterCount vbr' := by
  unfold getClusterCount getDataAreaSize getDataAreaFirstSector
  rw [h.get32 (by decide), h.get16 (by decide), h.get8 (by decide), h.get32 (by decide),
    h.get8 (by decide)]

end

section

variable {vbrIn : Bytes} {volumeName : List UInt8} {fatSize volumeSize clusterSize sectorSize
  time : Nat}

theorem vbrFields_ok (hfat : fatSize < 2 ^ 32) : VbrFields
    (vbrFields vbrIn volumeName fatSize volumeSize clusterSize sectorSize time) fatSize where
  start := rfl
  backup := rfl
  numFats := rfl
  fatSize := by
    have hbytes : ∀ i < 4, vbrFields vbrIn volumeName fatSize volumeSize clusterSize sectorSize time
        (vbrOffsetFatSz32 + i) = newBuffer.put32 vbrOffsetFatSz32 fatSize (vbrOffsetFatSz32 + i)
      | 0, _ | 1, _ | 2, _ | 3, _ => rfl
    rw [Bytes.get32_congr hbytes, Bytes.get32_put32_self, Nat.mod_eq_of_lt hfat]
  fsInfo := rfl
  rootCluster := rfl
  media := rfl

structure SizeFields (vbr : Bytes) (volumeSize clusterSize sectorSize : Nat) : Prop where
  volume : vbr.get32 vbrOffsetTotSec32 = volumeSize
  cluster : vbr.get8 vbrOffsetSecPerClus = clusterSize
  sector : vbr.get16 vbrOffsetBytsPerSec = sectorSize

theorem vbrFields_sizes (hvolume : volumeSize < 2 ^ 32) (hcluster : clusterSize < 2 ^ 8)
    (hsector : sectorSize < 2 ^ 16) : SizeFields
    (vbrFields vbrIn volumeName fatSize volumeSize clusterSize sectorSize time)
    volumeSize clusterSize sectorSize where
  volume := by
    have hbytes : ∀ i < 4, vbrFields vbrIn volumeName fatSize volumeSize clusterSize sectorSize time
        (vbrOffsetTotSec32 + i) = newBuffer.put32 vbrOffsetTotSec32 volumeSize (vbrOffsetTotSec32 + i)
      | 0, _ | 1, _ | 2, _ | 3, _ => rfl
    rw [Bytes.get32_congr hbytes, Bytes.get32_put32_self, Nat.mod_eq_of_lt hvolume]
  cluster := by
    have hbyte : vbrFields vbrIn volumeName fatSize volumeSize clusterSize sectorSize time
        vbrOffsetSecPerClus = newBuffer.put8 vbrOffsetSecPerClus clusterSize vbrOffsetSecPerClus := rfl
    rw [Bytes.get8_congr hbyte, Bytes.get8_put8_self, Nat.mod_eq_of_lt hcluster]
  sector := by
    have hbytes : ∀ i < 2, vbrFields vbrIn volumeName fatSize volumeSize clusterSize sectorSize time
        (vbrOffsetBytsPerSec + i) =
          newBuffer.put16 vbrOffsetBytsPerSec sectorSize (vbrOffsetBytsPerSec + i)
      | 0, _ | 1, _ => rfl
    rw [Bytes.get16_congr hbytes, Bytes.get16_put16_self, Nat.mod_eq_of_lt hsector]

end

theorem VbrFields.getDataAreaFirstSector_eq {fatSize : Nat} (hvbr : VbrFields vbr fatSize) :
    getDataAreaFirstSector vbr = (reservedSectorsCount + 2 * fatSize) % 2 ^ 32 := by
  unfold getDataAreaFirstSector
  rw [hvbr.numFats, hvbr.fatSize, show vbr.get16 vbrOffsetRsvdSecCnt = _ from hvbr.start]
  rfl

/-- `makeFat32VBR` refuses a volume that is too small by more than a sector or has too few
clusters. The assertion on the sizes holds modulo `2 ^ 32` whatever they are. -/
theorem run_makeFat32VBR_ok {vbrIn : Bytes} {volumeName : List UInt8} {fatSize volumeSize clusterSize
    sectorSize time : Nat} (hfat : fatSize < 2 ^ 32) (hvolume : volumeSize < 2 ^ 32)
    (hcluster : clusterSize < 2 ^ 8) (hsector : sectorSize < 2 ^ 16) :
    (makeFat32VBR vbrIn volumeName fatSize volumeSize clusterSize sectorSize time).run f =
        .ok vbr f' ↔
      (volumeName.length ≤ vbrSizeVolLab ∧
        (reservedSectorsCount + 2 * fatSize + (2 ^ 32 - 1)) % 2 ^ 32 ≤ volumeSize ∧
        clusterSize ≠ 0 ∧ minFat32Clusters ≤ getClusterCount vbr) ∧
      vbr = vbrFields vbrIn volumeName fatSize volumeSize clusterSize sectorSize time ∧ f = f' := by
  have hvbr := @vbrFields_ok vbrIn volumeName fatSize volumeSize clusterSize sectorSize time hfat
  have hsizes := @vbrFields_sizes vbrIn volumeName fatSize volumeSize clusterSize sectorSize time
    hvolume hcluster hsector
  unfold makeFat32VBR
  generalize vbrFields vbrIn volumeName fatSize volumeSize clusterSize sectorSize time = w at *
  have hstart : w.get16 vbrOffsetRsvdSecCnt = reservedSectorsCount := hvbr.start
  have hsum : (getDataAreaSize w + getFatAreaSize w + reservedSectorsCount) % 2 ^ 32 =
      volumeSize := by
    unfold getDataAreaSize getFatAreaSize
    rw [hvbr.getDataAreaFirstSector_eq, hsizes.volume, hvbr.numFats, hvbr.fatSize]
    unfold reservedSectorsCount numberOfFats
    omega
  simp only [run_check_bind, decide_eq_true_eq, hstart, hvbr.fatSize, hsizes.cluster, hsum,
    beq_self_eq_true, bne_iff_ne, true_and, EStateM.run_pure, EStateM.Result.ok.injEq]
  constructor
  · rintro ⟨hname, htotal, hne, hclusters, rfl, rfl⟩
    exact ⟨⟨hname, htotal, hne, hclusters⟩, rfl, rfl⟩
  · rintro ⟨⟨hname, htotal, hne, hclusters⟩, rfl, rfl⟩
    exact ⟨hname, htotal, hne, hclusters, rfl, rfl⟩

theorem getClusterCount_lt : getClusterCount vbr < 2 ^ 32 := by
  unfold getClusterCount getDataAreaSize
  exact Nat.lt_of_le_of_lt (Nat.div_le_self ..) (Nat.mod_lt _ (by decide))

theorem makeFSInfoSector_freeCount (fsInfoIn : Bytes) :
    (makeFSInfoSector fsInfoIn vbr).get32 fsinfoOffsetFreeCount = getClusterCount vbr := by
  have hlt : getClusterCount vbr < 2 ^ 32 := getClusterCount_lt
  unfold makeFSInfoSector
  -- the count is opaque from here on
  generalize getClusterCount vbr = n at hlt
  dsimp only
  unfold fsinfoOffsetFreeCount fsinfoOffsetTrailSig fsinfoOffsetNxtFree
  rw [Bytes.get32_congr fun i _ => Bytes.put32_out (by omega),
    Bytes.get32_congr fun i _ => Bytes.put32_out (by omega), Bytes.get32_put32_self,
    Nat.mod_eq_of_lt hlt]

/-! ## The tables -/

/-- What is wrong with the tables if the file is too short for the root directory. -/
def Truncated (image : FileImage) (fatSize : Nat) (f : ImageFile) : Prop :=
  fatSize = 0 ∨ f.length ≤ image.position (reservedSectorsCount + fatSize) ∨
    f.sec image reservedSectorsCount 0 = 0xF0 ∧
      f.sec image (reservedSectorsCount + fatSize) 0 = 0 ∧
      f.Has image (reservedSectorsCount + fatSize)

theorem length_le_of_not_has {fatSize n : Nat} (h : ¬ f.Has image n)
    (hn : n < reservedSectorsCount + fatSize) :
    f.length ≤ image.position (reservedSectorsCount + fatSize) := by
  have := position_lt image hn
  unfold ImageFile.Has at h
  omega

section

variable {fatSize : Nat} {g : ImageFile} (hsize : 512 ≤ image.sectorSize)
  (hvbr : VbrFields vbr fatSize) (hready : Ready image vbr f) (hfat : fatSize < 2 ^ 31)
  (htotal : (reservedSectorsCount + 2 * fatSize + (2 ^ 32 - 1)) % 2 ^ 32 < 2 ^ 31)

include hsize hvbr hready hfat htotal

/-- The tables and the root directory: the entry of cluster 2 is set, or the stream has
failed on the way. -/
theorem tables_ok (hinit : (initializeFileAllocationTable image).run f = .ok u g)
    (hroot : (makeRootDirectory image).run g = .ok u f') :
    KeepsSectors image (· < 2) f f' ∧
    (Ready image vbr f' ∧
        Bytes.get32 (f'.sec image reservedSectorsCount) 8 = fatEntryEndOfChain ∨
      f'.failed = true ∧ Truncated image fatSize f') := by
  have hfirst := hvbr.getDataAreaFirstSector_eq
  obtain ⟨hkeep, hcases, htables⟩ := initializeFileAllocationTable_ok hsize hvbr hready hinit
  have hlow : KeepsSectors image (· < 2) f g :=
    hkeep.mono fun n hn => Nat.lt_trans hn (by decide)
  unfold reservedSectorsCount at htotal hfirst
  obtain ⟨hreadyg, hhas⟩ | ⟨hfailed, hno⟩ := hcases
  · have hd : 2 ≤ getDataAreaFirstSector vbr := by omega
    obtain ⟨hkeep', hend⟩ :=
      makeRootDirectory_ok hsize hvbr hreadyg hd (by omega) hhas hroot
    refine ⟨trans_of (KeepsSectors image (· < 2)) hlow (hkeep'.mono fun n hn => ?_), ?_⟩
    · exact ⟨Nat.lt_of_lt_of_le hn hd, Nat.ne_of_lt (Nat.lt_trans hn (by decide))⟩
    · refine hend.imp_right fun ⟨hfailed, hkeep', hshort⟩ => ⟨hfailed, ?_⟩
      by_cases h0 : fatSize = 0
      · exact .inl h0
      by_cases hwrap : 2 * fatSize < 2 ^ 31
      · -- both tables lie below the root directory
        obtain ⟨-, hone, htwo, hhas'⟩ := htables h0 hwrap
        have hbelow : 32 + fatSize < getDataAreaFirstSector vbr := by omega
        refine .inr (.inr ⟨?_, ?_, hkeep'.has hhas'⟩)
        · exact (hkeep'.sec 32 (by omega) 0 (by omega)).trans hone
        · exact (hkeep'.sec (32 + fatSize) hbelow 0 (by omega)).trans htwo
      · -- the size of both tables wraps around, so the root directory lies below the first
        refine .inr (.inl (length_le_of_not_has hshort ?_))
        unfold reservedSectorsCount
        omega
  · obtain rfl := stuck_of_failed hfailed hroot
    refine ⟨hlow, .inr ⟨hfailed, ?_⟩⟩
    by_cases h0 : fatSize = 0
    · exact .inl h0
    · exact .inr (.inl (length_le_of_not_has hno (by omega)))

end

/-! ## The image that `main` leaves -/

/-- What the passes leave, as far as the redundant structures are concerned. -/
structure Formatted (image : FileImage) (vbr : Bytes) (fatSize : Nat) (f : ImageFile) : Prop where
  fields : SameFields (f.bootSector image) vbr
  freeCount : Bytes.get32 (f.sec image 1) fsinfoOffsetFreeCount = getClusterCount vbr
  tables : Bytes.get32 (f.sec image reservedSectorsCount) 8 = fatEntryEndOfChain ∨
    Truncated image fatSize f

theorem format_ok {env : Environment} {o : Options} (himage : image.sectorSize = o.sectorSize)
    (hgood : f.failed = false) (hfat : o.fatSize < 2 ^ 31) (hvolume : o.volumeSize < 2 ^ 31)
    (h : (format env o image).run f = .ok u f') : 512 ≤ image.sectorSize ∧
      ∃ vbr, VbrFields vbr o.fatSize ∧ minFat32Clusters ≤ getClusterCount vbr ∧
        Formatted image vbr o.fatSize f' := by
  unfold format at h
  obtain ⟨hsize, h⟩ := run_check_bind.1 h
  have hsize : 512 ≤ image.sectorSize := himage ▸ of_decide_eq_true hsize
  obtain ⟨vbr, t, hmake, h⟩ := run_bind_ok.1 h
  obtain ⟨⟨-, htotal, -, hclusters⟩, hfields, rfl⟩ := (run_makeFat32VBR_ok (by omega) (by omega)
    (Nat.mod_lt _ (by decide)) (Nat.mod_lt _ (by decide))).1 hmake
  have hvbr : VbrFields vbr o.fatSize := hfields ▸ vbrFields_ok (by omega)
  obtain ⟨_, t, h₀, h⟩ := run_bind_ok.1 h
  obtain rfl := writeSector_ready hgood h₀
  have hready₀ : Ready image vbr (f.write image 0 vbr) :=
    ⟨hgood, fun i hi => by rw [sec_write hi, if_pos rfl], has_write_of_le (Nat.le_refl 0)⟩
  rw [show getFSInfoSectorOffset vbr = 1 from hvbr.fsInfo] at h
  obtain ⟨_, t, h₁, h⟩ := run_bind_ok.1 h
  obtain rfl := writeSector_ready hready₀.good h₁
  have hready₁ : Ready image vbr ((f.write image 0 vbr).write image 1
      (makeFSInfoSector env.fsInfoMemory vbr)) := hready₀.write Nat.one_ne_zero
  obtain ⟨_, t₂, h₂, h⟩ := run_bind_ok.1 h
  obtain ⟨hready₂, hkeep₂, -⟩ :=
    updateFat32Backup_ok hsize hvbr hready₁ (has_write_of_le (Nat.le_refl 1)) h₂
  obtain ⟨_, t₃, h₃, h⟩ := run_bind_ok.1 h
  obtain ⟨_, t₄, h₄, h⟩ := run_bind_ok.1 h
  obtain ⟨hkeep₄, hend⟩ := tables_ok hsize hvbr hready₂ hfat (by omega) h₃ h₄
  -- up to the boot code, sector 1 is the FSInfo sector and sector 0 the boot sector
  have hlow : KeepsSectors image (· < 2) ((f.write image 0 vbr).write image 1
      (makeFSInfoSector env.fsInfoMemory vbr)) t₄ :=
    trans_of (KeepsSectors image (· < 2)) (hkeep₂.mono fun n hn => by omega) hkeep₄
  have hfields₄ : SameFields (t₄.bootSector image) vbr := fun i hi => by
    unfold ImageFile.bootSector
    rw [hlow.sec 0 (by decide) i (by omega)]
    exact hready₁.vbr i (by omega)
  have hfree₄ : Bytes.get32 (t₄.sec image 1) fsinfoOffsetFreeCount = getClusterCount vbr := by
    rw [← makeFSInfoSector_freeCount env.fsInfoMemory]
    refine Bytes.get32_congr fun i hi => ?_
    have hi' : fsinfoOffsetFreeCount + i < image.sectorSize := by
      unfold fsinfoOffsetFreeCount
      omega
    rw [hlow.sec 1 (by decide) _ hi', sec_write hi', if_pos rfl]
  refine ⟨hsize, vbr, hvbr, hclusters, ?_⟩
  obtain ⟨hready₄, hentry⟩ | ⟨hfailed, htruncated⟩ := hend
  · obtain ⟨-, hframe⟩ := writeBootCode_frame hsize hvbr.toBootFields hready₄ h
    refine ⟨fun i hi => ?_, ?_, .inl ?_⟩
    · exact (hframe 0 i (by omega) (by decide) fun _ => .inl hi).trans (hfields₄ i hi)
    · rw [← hfree₄]
      refine Bytes.get32_congr fun i hi => ?_
      exact hframe 1 _ (by unfold fsinfoOffsetFreeCount; omega) (by decide) fun h => by cases h
    · rw [← hentry]
      refine Bytes.get32_congr fun i hi => ?_
      exact hframe _ _ (by omega) (by decide) fun h => by cases h
  · obtain rfl := stuck_of_failed hfailed h
    exact ⟨hfields₄, hfree₄, .inr htruncated⟩

section

variable {fatSize : Nat} (hsize : 512 ≤ image.sectorSize) (hvbr : VbrFields vbr fatSize)
  (hf : Formatted image vbr fatSize f)

include hvbr hf

theorem Formatted.fatBytes_eq : f.fatBytes image = fatSize * image.sectorSize := by
  unfold ImageFile.fatBytes
  rw [hf.fields.get32 (by decide), hvbr.fatSize]

theorem Formatted.fatPosition_eq : f.fatPosition image = image.position reservedSectorsCount := by
  unfold ImageFile.fatPosition getFatAreaStart
  rw [hf.fields.get16 (by decide), show vbr.get16 vbrOffsetRsvdSecCnt = _ from hvbr.start]

/-- If the count in the FSInfo sector is right, the first table has an entry for each cluster
and all of them are zero. -/
theorem Formatted.all_zero (hagree : Agree image f) {k : Nat} (hk : k < getClusterCount vbr) :
    f.entryIsZero image (k + 2) = true := by
  have hcount := hagree.freeCount
  unfold ImageFile.zeroEntries getFSInfoSectorOffset at hcount
  rw [hf.fields.get16 (by decide), hvbr.fsInfo, hf.freeCount, hf.fields.getClusterCount_eq] at hcount
  have hall := List.countP_eq_length.1 (hcount.symm.trans List.length_range.symm)
  exact hall k (List.mem_range.2 hk)

include hsize

theorem Formatted.second_table (hagree : Agree image f) (h0 : fatSize ≠ 0) :
    f.byteAt (image.position (reservedSectorsCount + fatSize)) =
      f.byteAt (image.position reservedSectorsCount) := by
  have hcopy := hagree.copies 1 (by rw [hf.fields.get8 (by decide), hvbr.numFats]; decide) 0 (by
    rw [hf.fatBytes_eq hvbr]
    exact Nat.mul_pos (Nat.pos_of_ne_zero h0) (by omega))
  rw [hf.fatBytes_eq hvbr, hf.fatPosition_eq hvbr] at hcopy
  rw [← Nat.add_zero (image.position reservedSectorsCount), ← hcopy]
  congr 1
  unfold FileImage.position
  rw [Nat.add_mul]
  omega

theorem Formatted.not_agree (hclusters : 0 < getClusterCount vbr) : ¬ Agree image f := by
  intro hagree
  have hzero := hf.all_zero hvbr hagree hclusters
  unfold ImageFile.entryIsZero at hzero
  rw [Bool.and_eq_true, Bool.and_eq_true, decide_eq_true_eq, decide_eq_true_eq, beq_iff_eq,
    hf.fatBytes_eq hvbr, hf.fatPosition_eq hvbr] at hzero
  obtain ⟨⟨hin, hlength⟩, hentry⟩ := hzero
  have hsecond (h0 : fatSize ≠ 0) := hf.second_table hsize hvbr hagree h0
  have hfirst : f.byteAt (image.position reservedSectorsCount) =
      some (f.sec image reservedSectorsCount 0) := if_pos (by omega)
  rcases hf.tables with hchain | rfl | hshort | ⟨hone, htwo, hhas⟩
  · -- the cluster of the root directory is not free
    have hsame : Bytes.get32 (f.sec image reservedSectorsCount) 8 =
        f.bytes.get32 (image.position reservedSectorsCount + 4 * (0 + 2)) :=
      Bytes.get32_congr fun i _ => by rw [Nat.add_assoc]; rfl
    rw [hsame, hentry] at hchain
    cases hchain
  · rw [Nat.zero_mul] at hin
    omega
  · -- the file ends before the second table
    have h0 : fatSize ≠ 0 := fun h0 => by rw [h0, Nat.zero_mul] at hin; omega
    have hnone : f.byteAt (image.position (reservedSectorsCount + fatSize)) = none :=
      if_neg (Nat.not_lt.2 hshort)
    rw [hsecond h0, hfirst] at hnone
    cases hnone
  · -- the first byte of the second table was never written
    have h0 : fatSize ≠ 0 := fun h0 => by rw [h0, Nat.zero_mul] at hin; omega
    have hsome : f.byteAt (image.position (reservedSectorsCount + fatSize)) =
        some (f.sec image (reservedSectorsCount + fatSize) 0) :=
      if_pos (by unfold ImageFile.Has at hhas; omega)
    rw [hsecond h0, hfirst, hone, htwo] at hsome
    cases hsome

end

/-! ## The command line -/

theorem tryParseIntOption_lt {opt : List Char} : tryParseIntOption opt < 2 ^ 31 := by
  unfold tryParseIntOption
  split
  · omega
  · decide

theorem readIntParamIfPresent_lt {param : Nat} {arg : List Char} {name : String}
    (h : param < 2 ^ 31) : readIntParamIfPresent param arg name < 2 ^ 31 := by
  unfold readIntParamIfPresent
  split
  · exact tryParseIntOption_lt
  · exact h

theorem readArg_bounds {o : Options} {arg : List Char}
    (h : o.fatSize < 2 ^ 31 ∧ o.volumeSize < 2 ^ 31) :
    (readArg o arg).fatSize < 2 ^ 31 ∧ (readArg o arg).volumeSize < 2 ^ 31 := by
  refine ⟨readIntParamIfPresent_lt h.1, ?_⟩
  unfold readArg
  cases paramIfPresent arg "volume_size=" with
  | none => exact h.2
  | some opt => exact Int.ofNat_lt.2 tryParseIntOption_lt

theorem foldl_readArg_bounds : ∀ (args : List (List Char)) {o : Options},
    o.fatSize < 2 ^ 31 ∧ o.volumeSize < 2 ^ 31 →
      (args.foldl readArg o).fatSize < 2 ^ 31 ∧ (args.foldl readArg o).volumeSize < 2 ^ 31
  | [], _, h => h
  | _ :: args, _, h => foldl_readArg_bounds args (readArg_bounds h)

/-- The image that `main` leaves: its boot sector has the options, and one of the redundant
structures is off. -/
theorem main_ok {env : Environment} {args : List (List Char)}
    (h : main env args = .ok (image, f)) : 512 ≤ image.sectorSize ∧
      ∃ vbr fatSize, VbrFields vbr fatSize ∧ minFat32Clusters ≤ getClusterCount vbr ∧
        Formatted image vbr fatSize f := by
  obtain ⟨hfat, hvolume⟩ := foldl_readArg_bounds args (o := {}) ⟨by decide, by decide⟩
  unfold main at h
  generalize args.foldl readArg {} = o at *
  dsimp only at h
  split at h
  · cases h
  split at h
  · cases h
  split at h
  · cases h
  split at h
  · next hrun =>
    cases h
    obtain ⟨hsize, vbr, hformat⟩ := format_ok rfl rfl hfat hvolume hrun
    exact ⟨hsize, vbr, o.fatSize, hformat⟩
  · cases h

/-- Whatever the command line is, the redundant structures of the image do not agree. -/
theorem main_not_agree {env : Environment} {args : List (List Char)}
    (h : main env args = .ok (image, f)) : ¬ Agree image f := by
  obtain ⟨hsize, vbr, fatSize, hvbr, hclusters, hformat⟩ := main_ok h
  exact hformat.not_agree hsize hvbr (Nat.lt_of_lt_of_le (by decide) hclusters)

/-- An empty disk of 66582 sectors and a boot code of a kilobyte. -/
def emptyDisk : Environment where
  openFile path :=
    if path = "disk".toList then some ⟨newBuffer, 66582 * 512, fun _ _ => rfl⟩
    else if path = "code".toList then some ⟨newBuffer, 1024, fun _ _ => rfl⟩
    else none
  time := 0
  vbrMemory := newBuffer
  fsInfoMemory := newBuffer
  behindCode := newBuffer

def emptyDiskArgs : List (List Char) :=
  ["file=disk", "volume_size=66582", "fat_size=512", "boot_code=code"].map String.toList

def copiesDiffer : Except ToolStop (FileImage × ImageFile) → Bool
  | .ok (image, f) => 1 < (f.bootSector image).get8 vbrOffsetNumFats && 0 < f.fatBytes image &&
      f.byteAt (f.fatPosition image + 1 * f.fatBytes image + 0) != f.byteAt (f.fatPosition image + 0)
  | .error _ => false

theorem not_agree_of_copiesDiffer {r : Except ToolStop (FileImage × ImageFile)}
    (h : copiesDiffer r = true) : ∃ image f, r = .ok (image, f) ∧ ¬ Agree image f := by
  cases r with
  | error e => cases h
  | ok r =>
    unfold copiesDiffer at h
    rw [Bool.and_eq_true, Bool.and_eq_true, decide_eq_true_eq, decide_eq_true_eq, bne_iff_ne] at h
    exact ⟨r.1, r.2, rfl, fun hagree => h.2 (hagree.copies 1 h.1.1 0 h.1.2)⟩

theorem copiesDiffer_emptyDisk : copiesDiffer (main emptyDisk emptyDiskArgs) = true := by
  decide +kernel

theorem main_not_agree_emptyDisk : ∃ image f, main emptyDisk emptyDiskArgs = .ok (image, f) ∧
    ¬ Agree image f := by
  obtain ⟨image, f, h, -⟩ := not_agree_of_copiesDiffer copiesDiffer_emptyDisk
  exact ⟨image, f, h, main_not_agree h⟩

/-- On an empty disk, the first table starts with the media byte and the second with zero. -/
theorem exists_copies_differ : ∃ image f, main emptyDisk emptyDiskArgs = .ok (image, f) ∧
    ¬ Agree image f :=
  not_agree_of_copiesDiffer copiesDiffer_emptyDisk

end GarbageOS.Fat32Maker
