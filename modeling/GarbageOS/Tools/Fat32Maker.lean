import GarbageOS.Lib.Bytes
import GarbageOS.Lib.Exec
import Mathlib.Algebra.Group.Int.Defs

/-!
# `fat32_maker.cpp`

The tool that formats a partition of an image file as FAT32 and writes the boot code
into it, in passes that each read and write whole sectors. The image file is a stream:
a read past its end sets the failbit, and from then on nothing is read or written,
which the tool never checks. What the C++ code leaves undefined (a signed overflow in a
file position, a sector buffer that is too small for the boot sector, a division by
zero) stops the model.
-/

namespace GarbageOS.Fat32Maker

open Lib

/-- How the tool ends other than by returning from `main`: `exit(-1)`, an assertion that
fails, or undefined behaviour. -/
inductive ToolStop where
  | exit
  | abort
  | undefined
  deriving DecidableEq

def minFat32Clusters : Nat := 65526
def fatEntryEndOfChain : Nat := 0x0FFFFFFF
def directoryEntryFreeAndAfterFree : Nat := 0x00
/-- `ACTIVE_FAT_FLAG`. -/
def activeFatFlag (fatNumber : Nat) : Nat := 1 <<< (fatNumber - 1)

def vbrOffsetJmpBoot : Nat := 0
def vbrOffsetOemName : Nat := 3
def vbrOffsetBytsPerSec : Nat := 11
def vbrOffsetSecPerClus : Nat := 13
def vbrOffsetRsvdSecCnt : Nat := 14
def vbrOffsetNumFats : Nat := 16
def vbrOffsetRootEntCnt : Nat := 17
def vbrOffsetTotSec16 : Nat := 19
def vbrOffsetMedia : Nat := 21
def vbrOffsetFatSz16 : Nat := 22
def vbrOffsetHiddSec : Nat := 28
def vbrOffsetTotSec32 : Nat := 32
def vbrOffsetFatSz32 : Nat := 36
def vbrOffsetExtFlags : Nat := 40
def vbrOffsetFsVer : Nat := 42
def vbrOffsetRootClus : Nat := 44
def vbrOffsetFsInfo : Nat := 48
def vbrOffsetBkBootSec : Nat := 50
def vbrOffsetDrvNum : Nat := 64
def vbrOffsetBsReserved : Nat := 65
def vbrOffsetBootSig : Nat := 66
def vbrOffsetVolId : Nat := 67
def vbrOffsetVolLab : Nat := 71
def vbrSizeVolLab : Nat := 11
def vbrOffsetFilSysType : Nat := 82
def vbrOffsetBootCode32 : Nat := 90
def vbrSizeBootCode32 : Nat := 420
def vbrOffsetBootSign : Nat := 510
def fsinfoOffsetLeadSig : Nat := 0
def fsinfoOffsetStructSig : Nat := 484
def fsinfoOffsetFreeCount : Nat := 488
def fsinfoOffsetNxtFree : Nat := 492
def fsinfoOffsetTrailSig : Nat := 508

/-! ## The fields of a boot sector -/

def getFSInfoSectorOffset (vbr : Bytes) : Nat := vbr.get16 vbrOffsetFsInfo

def getFatAreaStart (vbr : Bytes) : Nat := vbr.get16 vbrOffsetRsvdSecCnt

/-- In sectors, for all copies of the table. -/
def getFatAreaSize (vbr : Bytes) : Nat :=
  vbr.get8 vbrOffsetNumFats * vbr.get32 vbrOffsetFatSz32 % 2 ^ 32

def getDataAreaFirstSector (vbr : Bytes) : Nat :=
  (vbr.get16 vbrOffsetRsvdSecCnt + vbr.get8 vbrOffsetNumFats * vbr.get32 vbrOffsetFatSz32) % 2 ^ 32

def getDataAreaSize (vbr : Bytes) : Nat :=
  (vbr.get32 vbrOffsetTotSec32 + (2 ^ 32 - getDataAreaFirstSector vbr)) % 2 ^ 32

def getClusterCount (vbr : Bytes) : Nat := getDataAreaSize vbr / vbr.get8 vbrOffsetSecPerClus

def getSectorSizeInBytes (vbr : Bytes) : Nat := vbr.get16 vbrOffsetBytsPerSec

def getFirstSectorOfCluster (vbr : Bytes) (cluster : Nat) : Nat :=
  (getDataAreaFirstSector vbr + (cluster + (2 ^ 32 - 2)) % 2 ^ 32 * getSectorSizeInBytes vbr) % 2 ^ 32

def getClusterSizeInSectors (vbr : Bytes) : Nat := vbr.get8 vbrOffsetSecPerClus

def ascii (s : String) : List UInt8 := s.toList.map fun c => UInt8.ofNat c.toNat

def copyText (b : Bytes) (o : Nat) (text : List UInt8) : Bytes :=
  b.copy o (.ofList text) text.length

def numberOfFats : Nat := 2
def reservedSectorsCount : Nat := 32

/-- The fields that `makeFat32VBR` writes, in its order. -/
def vbrFields (vbrIn : Bytes) (volumeName : List UInt8)
    (sizeOfFatInSectors sizeOfVolumeInSectors clusterSizeInSectors sectorSize time : Nat) : Bytes :=
  let vbr := vbrIn.fill 0 sectorSize 0
  let vbr := copyText vbr vbrOffsetOemName (ascii "MSWIN4.1")
  let vbr := vbr.put8 vbrOffsetJmpBoot 0xEB
  let vbr := vbr.put8 (vbrOffsetJmpBoot + 1) (vbrOffsetBootCode32 - 2)
  let vbr := vbr.put8 (vbrOffsetJmpBoot + 2) 0x90
  let vbr := vbr.put16 vbrOffsetBytsPerSec sectorSize
  let vbr := vbr.put8 vbrOffsetSecPerClus clusterSizeInSectors
  let vbr := vbr.put16 vbrOffsetRsvdSecCnt reservedSectorsCount
  let vbr := vbr.put8 vbrOffsetNumFats numberOfFats
  let vbr := vbr.put16 vbrOffsetRootEntCnt 0
  let vbr := vbr.put16 vbrOffsetTotSec16 0
  let vbr := vbr.put8 vbrOffsetMedia 0xF0
  let vbr := vbr.put16 vbrOffsetFatSz16 0
  let vbr := vbr.put32 vbrOffsetHiddSec 0
  let vbr := vbr.put32 vbrOffsetTotSec32 sizeOfVolumeInSectors
  let vbr := vbr.put32 vbrOffsetFatSz32 sizeOfFatInSectors
  let vbr := vbr.put16 vbrOffsetExtFlags (activeFatFlag 1)
  let vbr := vbr.put16 vbrOffsetFsVer 0
  let vbr := vbr.put32 vbrOffsetRootClus 2
  let vbr := vbr.put16 vbrOffsetFsInfo 1
  let vbr := vbr.put16 vbrOffsetBkBootSec 6
  let vbr := vbr.put8 vbrOffsetDrvNum 0x80
  let vbr := vbr.put8 vbrOffsetBsReserved 0
  let vbr := vbr.put8 vbrOffsetBootSig 0x29
  let vbr := vbr.put32 vbrOffsetVolId time
  let vbr := vbr.fill vbrOffsetVolLab vbrSizeVolLab 0x20
  let vbr := copyText vbr vbrOffsetVolLab volumeName
  let vbr := copyText vbr vbrOffsetFilSysType (ascii "FAT32   ")
  vbr.put16 vbrOffsetBootSign 0x55AA

/-! ## The image file -/

/-- The contents of a file. A write past the end leaves zeros between. -/
structure File where
  bytes : Bytes
  length : Nat
  zeros : ∀ i, length ≤ i → bytes i = 0

structure ImageFile where
  bytes : Bytes
  length : Nat
  failed : Bool

def ImageFile.ofFile (file : File) : ImageFile := ⟨file.bytes, file.length, false⟩

abbrev ToolM := EStateM ToolStop ImageFile

/-- `class FileImage`; offsets into the file are in sectors. -/
structure FileImage where
  sectorSize : Nat
  fileOffset : Nat

def FileImage.position (image : FileImage) (sectorNumber : Nat) : Nat :=
  sectorNumber * image.sectorSize + image.fileOffset * image.sectorSize

section

variable (image : FileImage)

def ImageFile.write (f : ImageFile) (sectorNumber : Nat) (data : Bytes) : ImageFile :=
  { f with
    bytes := f.bytes.copy (image.position sectorNumber) data image.sectorSize
    length := max f.length (image.position sectorNumber + image.sectorSize) }

/-- The buffer after a sector was read into it, as far as the file goes. -/
def ImageFile.read (f : ImageFile) (sectorNumber : Nat) (buffer : Bytes) : Bytes := fun i =>
  if i < image.sectorSize ∧ image.position sectorNumber + i < f.length then
    f.bytes (image.position sectorNumber + i)
  else buffer i

def writeSector (sectorNumber : Nat) (data : Bytes) : ToolM Unit := do
  check (image.position sectorNumber < 2 ^ 31) .undefined
  modify fun f => if f.failed then f else f.write image sectorNumber data

/-- Returns the contents of the buffer after the read. -/
def readSector (sectorNumber : Nat) (buffer : Bytes) : ToolM Bytes := do
  check (image.position sectorNumber < 2 ^ 31) .undefined
  let f ← get
  if f.failed then return buffer
  else
    modify fun f => { f with failed := image.position sectorNumber + image.sectorSize > f.length }
    return f.read image sectorNumber buffer

def newBuffer : Bytes := fun _ => 0

/-! ## The passes -/

def makeFat32VBR (vbrIn : Bytes) (volumeName : List UInt8)
    (sizeOfFatInSectors sizeOfVolumeInSectors clusterSizeInSectors sectorSize time : Nat) :
    ToolM Bytes := do
  check (volumeName.length ≤ vbrSizeVolLab) .exit
  let vbr := vbrFields vbrIn volumeName sizeOfFatInSectors sizeOfVolumeInSectors
    clusterSizeInSectors sectorSize time
  check (vbr.get32 vbrOffsetFatSz32 == sizeOfFatInSectors) .abort
  let totalSize := (vbr.get16 vbrOffsetRsvdSecCnt + numberOfFats * sizeOfFatInSectors +
    (2 ^ 32 - 1)) % 2 ^ 32
  check ((getDataAreaSize vbr + getFatAreaSize vbr + vbr.get16 vbrOffsetRsvdSecCnt) % 2 ^ 32 ==
    sizeOfVolumeInSectors) .abort
  check (totalSize ≤ sizeOfVolumeInSectors) .exit
  check (vbr.get8 vbrOffsetSecPerClus != 0) .undefined
  check (getClusterCount vbr ≥ minFat32Clusters) .exit
  return vbr

def makeFSInfoSector (fsInfoIn vbr : Bytes) : Bytes :=
  let sectorSize := getSectorSizeInBytes vbr
  let fsInfo := fsInfoIn.fill 0 sectorSize 0
  let rootCluster := vbr.get32 vbrOffsetRootClus
  let fsInfo := fsInfo.put32 fsinfoOffsetLeadSig 0x41615252
  let fsInfo := fsInfo.put32 fsinfoOffsetStructSig 0x61417272
  let fsInfo := fsInfo.put32 fsinfoOffsetFreeCount (getClusterCount vbr)
  let fsInfo := fsInfo.put32 fsinfoOffsetNxtFree (rootCluster + 1)
  fsInfo.put32 fsinfoOffsetTrailSig 0xAA550000

def updateFat32Backup : ToolM Unit := do
  let buffer ← readSector image 0 newBuffer
  let backupSectorStart := buffer.get16 vbrOffsetBkBootSec
  let buffer ← readSector image 0 buffer
  writeSector image (0 + backupSectorStart) buffer
  let buffer ← readSector image 1 buffer
  writeSector image (1 + backupSectorStart) buffer
  let buffer ← readSector image 2 buffer
  writeSector image (2 + backupSectorStart) buffer

/-- The sector of an entry in the first table. -/
def fatEntrySector (vbr : Bytes) (entry : Nat) : Nat :=
  (getFatAreaStart vbr + entry * 4 % 2 ^ 32 / image.sectorSize) % 2 ^ 32

def writeFatEntry (entry value : Nat) : ToolM Unit := do
  let buffer ← readSector image 0 newBuffer
  let sector := fatEntrySector image buffer entry
  let buffer ← readSector image sector buffer
  writeSector image sector (buffer.put32 (entry * 4 % 2 ^ 32 % image.sectorSize) value)

/-- The number of rounds of a loop up to an `int`. -/
def intBound (n : Nat) : Nat := if n < 2 ^ 31 then n else 0

def initializeFileAllocationTable : ToolM Unit := do
  let buffer ← readSector image 0 newBuffer
  let size := getFatAreaSize buffer
  let start := getFatAreaStart buffer
  let buffer := buffer.fill 0 image.sectorSize 0
  forRange (fun i => writeSector image (start + i) buffer) (intBound size) 0
  let buffer ← readSector image 0 buffer
  writeFatEntry image 0 (0xFFFFFF00 ||| buffer.get8 vbrOffsetMedia)
  writeFatEntry image 1 0xFFFFFFFF

/-- The first byte of every directory entry of a sector cleared. -/
def freeDirectoryEntries (buffer : Bytes) : Bytes := fun i =>
  if i % 32 = 0 ∧ i < image.sectorSize then UInt8.ofNat directoryEntryFreeAndAfterFree else buffer i

/-- One round of the loop of `makeRootDirectory` for each of the sectors that are left. -/
def clearDirectory (first : Nat) : (count : Nat) → (offset : Nat) → (buffer : Bytes) → ToolM Unit
  | 0, _, _ => pure ()
  | count + 1, offset, buffer => do
    let buffer ← readSector image ((first + offset) % 2 ^ 32) buffer
    let buffer := freeDirectoryEntries image buffer
    writeSector image ((first + offset) % 2 ^ 32) buffer
    clearDirectory first count (offset + 1) buffer

def makeRootDirectory : ToolM Unit := do
  let vbr ← readSector image 0 newBuffer
  clearDirectory image (getFirstSectorOfCluster vbr 2) (getClusterSizeInSectors vbr) 0 newBuffer
  writeFatEntry image (vbr.get32 vbrOffsetRootClus) fatEntryEndOfChain

/-- The loop of `writeBootCode` from `codeOffset` and `sectorToWrite` on; it ends at the
latest when the assertion fails. -/
def writeCodeFrom (vbr code : Bytes) (codeSize : Nat) :
    (steps : Nat) → (codeOffset sectorToWrite : Nat) → (buffer : Bytes) → ToolM Unit
  | 0, _, _, _ => throw .abort
  | steps + 1, codeOffset, sectorToWrite, buffer =>
    if codeOffset < codeSize then do
      check (sectorToWrite < getFatAreaStart vbr) .abort
      let buffer ← readSector image sectorToWrite buffer
      check (codeSize - codeOffset < 2 ^ 31) .abort
      let size := min (codeSize - codeOffset) image.sectorSize
      let buffer := buffer.copy 0 (fun i => code (codeOffset + i)) size
      writeSector image sectorToWrite buffer
      writeCodeFrom vbr code codeSize steps (codeOffset + size) (sectorToWrite + 1) buffer
    else pure ()

/-- `writeBootCode` with the boot code file, if it can be opened. Its first part is copied
whatever the size of the file; `garbage` is what lies in memory behind the code. -/
def writeBootCode (bootCode : Option File) (garbage : Bytes) : ToolM Unit := do
  match bootCode with
  | none => throw .exit
  | some file =>
    let codeSize := file.length % 2 ^ 32
    check (codeSize != 0) .exit
    let code := garbage.copy 0 file.bytes codeSize
    let vbr ← readSector image 0 newBuffer
    let vbr := vbr.copy vbrOffsetBootCode32 code vbrSizeBootCode32
    writeSector image 0 vbr
    writeCodeFrom image vbr code codeSize (2 ^ 16) vbrSizeBootCode32
      (vbr.get16 vbrOffsetBkBootSec + 3) newBuffer

end

/-! ## The command line -/

/-- The options; `volumeSize` is negative until it is given. -/
structure Options where
  fatSize : Nat := 128
  volumeSize : Int := -1
  clusterSize : Nat := 1
  sectorSize : Nat := 512
  fileOffset : Nat := 0
  filePath : List Char := []
  bootCodePath : List Char := []

/-- An `int` read from digits: the greatest one if the number does not fit, and 0 if there
are other characters among them. For no digits at all, 0 stands for what the source leaves
uninitialised. -/
def tryParseIntOption (opt : List Char) : Nat :=
  if opt.all Char.isDigit then
    min (opt.foldl (fun n c => 10 * n + (c.toNat - '0'.toNat)) 0) (2 ^ 31 - 1)
  else 0

/-- What stands behind `name` if the argument starts with it. -/
def paramIfPresent (arg : List Char) (name : String) : Option (List Char) :=
  if name.toList.isPrefixOf arg then some (arg.drop name.toList.length) else none

def readIntParamIfPresent (param : Nat) (arg : List Char) (name : String) : Nat :=
  match paramIfPresent arg name with
  | some opt => tryParseIntOption opt
  | none => param

def readArg (o : Options) (arg : List Char) : Options where
  fatSize := readIntParamIfPresent o.fatSize arg "fat_size="
  volumeSize := ((paramIfPresent arg "volume_size=").map fun opt => (tryParseIntOption opt : Int)).getD
    o.volumeSize
  clusterSize := readIntParamIfPresent o.clusterSize arg "cluster_size="
  sectorSize := readIntParamIfPresent o.sectorSize arg "sector_size="
  fileOffset := readIntParamIfPresent o.fileOffset arg "file_offset="
  filePath := (paramIfPresent arg "file=").getD o.filePath
  bootCodePath := (paramIfPresent arg "boot_code=").getD o.bootCodePath

/-- What the tool finds when it runs: the files, the time, and what the memory it gets from
`malloc` and the memory behind the boot code hold. -/
structure Environment where
  openFile : List Char → Option File
  time : Nat
  vbrMemory : Bytes
  fsInfoMemory : Bytes
  behindCode : Bytes

def format (env : Environment) (o : Options) (image : FileImage) : ToolM Unit := do
  -- the boot sector and the FSInfo sector are written into `sector_size` bytes of memory
  check (512 ≤ o.sectorSize) .undefined
  let vbr ← makeFat32VBR env.vbrMemory (ascii "test") o.fatSize o.volumeSize.toNat
    (o.clusterSize % 2 ^ 8) (o.sectorSize % 2 ^ 16) env.time
  writeSector image 0 vbr
  let fsInfo := makeFSInfoSector env.fsInfoMemory vbr
  writeSector image (getFSInfoSectorOffset vbr) fsInfo
  updateFat32Backup image
  initializeFileAllocationTable image
  makeRootDirectory image
  writeBootCode image (env.openFile o.bootCodePath) env.behindCode

/-- `main`: the image it leaves if it returns. -/
def main (env : Environment) (args : List (List Char)) : Except ToolStop (FileImage × ImageFile) :=
  let o := args.foldl readArg {}
  if o.filePath = [] then throw .exit
  else if o.volumeSize < 0 then throw .exit
  else
    let image : FileImage := ⟨o.sectorSize, o.fileOffset⟩
    match env.openFile o.filePath with
    | none => throw .exit
    | some file =>
      match (format env o image).run (.ofFile file) with
      | .ok _ f => .ok (image, f)
      | .error e _ => .error e

end GarbageOS.Fat32Maker
