import GarbageOS.Tools.Image

/-!
# The boot code

`writeBootCode` puts the first 420 bytes of the boot code into the boot sector and the
rest into the sectors behind the backup. The second stage of the boot loader reads a
fixed number of sectors from there into the memory behind its own first part.
-/

namespace GarbageOS.Fat32Maker

open Lib

variable {image : FileImage} {f f' : ImageFile} {vbr code b : Bytes} {codeSize : Nat} {u : Unit}

/-! ## What is not written -/

theorem keeps_writeCodeFrom {low : Nat} : ∀ {steps offset sector : Nat} {b : Bytes}, low ≤ sector →
    Keeps (KeepsSectors image fun n => n < low ∨ getFatAreaStart vbr ≤ n)
      (writeCodeFrom image vbr code codeSize steps offset sector b) := by
  intro steps
  induction steps with
  | zero => intro _ _ _ _; exact .throw
  | succ steps ih =>
    intro offset sector b hlow
    unfold writeCodeFrom
    refine .ite (fun _ => .checkThen fun hsector => ?_) fun _ => .pure _
    have hn : ¬ (sector < low ∨ getFatAreaStart vbr ≤ sector) := by
      have := of_decide_eq_true hsector
      omega
    exact .bind (keeps_readSector sector b) fun _ => .bind .check fun _ =>
      .bind (keeps_writeSector hn) fun _ => ih (Nat.le_succ_of_le hlow)

def withCode (vbr code : Bytes) : Bytes := vbr.copy vbrOffsetBootCode32 code vbrSizeBootCode32

theorem withCode_out {i : Nat} (h : i < 90 ∨ 510 ≤ i) : withCode vbr code i = vbr i :=
  Bytes.copy_out h

theorem withCode_in {i : Nat} (h : i < 420) : withCode vbr code (90 + i) = code i :=
  Bytes.copy_in h

theorem withCode_get16 {o : Nat} (h : o + 1 < 90) : (withCode vbr code).get16 o = vbr.get16 o :=
  Bytes.get16_congr fun i _ => withCode_out (by omega)

def codeBuffer (file : File) (garbage : Bytes) : Bytes :=
  garbage.copy 0 file.bytes (file.length % 2 ^ 32)

/-- What the boot code goes through after the boot sector was read: the boot sector is
written with the first part of the code, then comes the loop. -/
theorem run_writeBootCode_ok {file : File} {garbage : Bytes} (hsize : 512 ≤ image.sectorSize)
    (hvbr : BootFields vbr) (hready : Ready image vbr f) :
    (writeBootCode image (some file) garbage).run f = .ok u f' ↔
      file.length % 2 ^ 32 ≠ 0 ∧ image.position 0 < 2 ^ 31 ∧
      (writeCodeFrom image (withCode (f.read image 0 newBuffer) (codeBuffer file garbage))
          (codeBuffer file garbage) (file.length % 2 ^ 32) (2 ^ 16) 420 9 newBuffer).run
        (f.write image 0 (withCode (f.read image 0 newBuffer) (codeBuffer file garbage))) =
          .ok u f' := by
  have hread (hpos : image.position 0 < 2 ^ 31) :=
    run_readSector_of_has (b := newBuffer) hpos hready.good hready.has
  have hbackup : (withCode (f.read image 0 newBuffer) (codeBuffer file garbage)).get16
      vbrOffsetBkBootSec + 3 = 9 := by
    rw [withCode_get16 (by decide), SameSector.get16 hsize hready.sameSector_read (by decide),
      hvbr.backup]
  unfold writeBootCode
  rw [run_check_bind, bne_iff_ne]
  refine and_congr_right fun _ => ⟨fun h => ?_, fun ⟨hpos, h⟩ => ?_⟩
  · obtain ⟨b₀, t, h₀, h⟩ := run_bind_ok.1 h
    have hpos := (run_readSector_ok.1 h₀).1
    rw [hread hpos] at h₀
    cases h₀
    rw [run_ok_bind (run_writeSector_of_good hpos hready.good)] at h
    refine ⟨hpos, ?_⟩
    rw [← hbackup]
    exact h
  · rw [run_ok_bind (hread hpos), run_ok_bind (run_writeSector_of_good hpos hready.good)]
    rw [← hbackup] at h
    exact h

section

variable {file : File} {garbage : Bytes}

theorem fatAreaStart_withCode (hsize : 512 ≤ image.sectorSize) (hvbr : BootFields vbr)
    (hready : Ready image vbr f) :
    getFatAreaStart (withCode (f.read image 0 newBuffer) code) = reservedSectorsCount := by
  unfold getFatAreaStart
  rw [withCode_get16 (by decide), SameSector.get16 hsize hready.sameSector_read (by decide)]
  exact hvbr.start

/-- The boot code leaves everything alone but the place for its first part in the boot
sector and the sectors between the backup and the tables. -/
theorem writeBootCode_frame {bootCode : Option File} (hsize : 512 ≤ image.sectorSize)
    (hvbr : BootFields vbr) (hready : Ready image vbr f)
    (h : (writeBootCode image bootCode garbage).run f = .ok u f') :
    f.length ≤ f'.length ∧ ∀ n i, i < image.sectorSize → (n < 9 ∨ reservedSectorsCount ≤ n) →
      (n = 0 → i < 90 ∨ 510 ≤ i) → f'.sec image n i = f.sec image n i := by
  cases bootCode with
  | none => exact (run_throw_ok.1 h).elim
  | some file =>
    obtain ⟨-, -, h⟩ := (run_writeBootCode_ok hsize hvbr hready).1 h
    have hkeep := keeps_writeCodeFrom (Nat.le_refl 9) h
    rw [fatAreaStart_withCode hsize hvbr hready] at hkeep
    refine ⟨Nat.le_trans (Nat.le_max_left ..) hkeep.length, fun n i hi hn hcode => ?_⟩
    rw [hkeep.sec n hn i hi, sec_write hi]
    split
    · next h0 =>
      subst h0
      rw [withCode_out (hcode rfl), hready.sameSector_read i hi, hready.vbr i hi]
    · rfl

/-! ## What is written -/

theorem writeCodeFrom_ok (hsize : 0 < image.sectorSize) :
    ∀ {steps offset sector : Nat} {b : Bytes} {f : ImageFile}, f.failed = false →
      (∀ n < getFatAreaStart vbr, f.Has image n) →
      (writeCodeFrom image vbr code codeSize steps offset sector b).run f = .ok u f' →
      ∀ k, offset ≤ k → k < codeSize → f'.bytes (image.position sector + (k - offset)) = code k := by
  intro steps
  induction steps with
  | zero => intro _ _ _ _ _ _ h; exact (run_throw_ok.1 h).elim
  | succ steps ih =>
    intro offset sector b f hgood hhas h k hk hk'
    unfold writeCodeFrom at h
    rw [if_pos (by omega)] at h
    obtain ⟨hsector, h⟩ := run_check_bind.1 h
    obtain ⟨b₁, t, h₁, h⟩ := run_bind_ok.1 h
    obtain ⟨rfl, -⟩ := readSector_has hgood (hhas sector (of_decide_eq_true hsector)) h₁
    obtain ⟨-, h⟩ := run_check_bind.1 h
    obtain ⟨_, t, h₂, h⟩ := run_bind_ok.1 h
    obtain rfl := writeSector_ready hgood h₂
    by_cases hlast : k - offset < image.sectorSize
    · -- the byte lies in this sector, which the later rounds leave alone
      have hkeep := keeps_writeCodeFrom (Nat.le_refl (sector + 1)) h
      have hin := (hkeep.sec sector (.inl (Nat.lt_succ_self _)) (k - offset) hlast).trans
        (sec_write hlast)
      rw [if_pos rfl] at hin
      refine hin.trans ?_
      unfold Bytes.copy
      rw [if_pos ⟨Nat.zero_le _, by omega⟩]
      show code (offset + (k - offset)) = code k
      rw [Nat.add_sub_cancel' hk]
    · have hmin : min (codeSize - offset) image.sectorSize = image.sectorSize := by omega
      simp only [hmin] at h
      have := ih (f := f.write image sector _) hgood (fun n hn => (hhas n hn).write) h k (by omega) hk'
      rw [← this]
      congr 1
      unfold FileImage.position
      rw [Nat.succ_mul]
      omega

/-- The rest of the code fits into the sectors from `sector` on and before the tables. -/
def CodeFits (image : FileImage) (start codeSize offset sector : Nat) : Prop :=
  offset < codeSize → codeSize - offset < 2 ^ 31 ∧ ∀ j, j * image.sectorSize < codeSize - offset →
    sector + j < start ∧ image.position (sector + j) < 2 ^ 31

theorem CodeFits.next {start offset sector : Nat} (h : CodeFits image start codeSize offset sector)
    (hlt : offset < codeSize) : CodeFits image start codeSize
      (offset + min (codeSize - offset) image.sectorSize) (sector + 1) := by
  intro hlt'
  obtain ⟨hsmall, hall⟩ := h hlt
  refine ⟨by omega, fun j hj => ?_⟩
  rw [show sector + 1 + j = sector + (j + 1) by omega]
  apply hall
  rw [Nat.succ_mul]
  omega

theorem writeCodeFrom_returns_iff {start : Nat} (hstart : getFatAreaStart vbr = start) :
    ∀ {steps offset sector : Nat} {b : Bytes} {f : ImageFile}, f.failed = false →
      (∀ n < start, f.Has image n) → start < steps + sector → 0 < steps →
      ((∃ f', (writeCodeFrom image vbr code codeSize steps offset sector b).run f = .ok () f') ↔
        CodeFits image start codeSize offset sector) := by
  intro steps
  induction steps with
  | zero => intro _ _ _ _ _ _ _ h; exact absurd h (Nat.lt_irrefl 0)
  | succ steps ih =>
    intro offset sector b f hgood hhas hsteps _
    unfold writeCodeFrom
    by_cases hlt : offset < codeSize
    · rw [if_pos hlt, hstart]
      constructor
      · rintro ⟨f', h⟩
        obtain ⟨hsector, h⟩ := run_check_bind.1 h
        have hsector := of_decide_eq_true hsector
        obtain ⟨b₁, t, h₁, h⟩ := run_bind_ok.1 h
        obtain ⟨hpos, -⟩ := run_readSector_ok.1 h₁
        obtain ⟨rfl, -⟩ := readSector_has hgood (hhas sector hsector) h₁
        obtain ⟨hsmall, h⟩ := run_check_bind.1 h
        obtain ⟨_, t, h₂, h⟩ := run_bind_ok.1 h
        obtain rfl := writeSector_ready hgood h₂
        have hrest := (ih (f := f.write image sector _) hgood (fun n hn => (hhas n hn).write)
          (by omega) (by omega)).1 ⟨f', h⟩
        intro _
        refine ⟨of_decide_eq_true hsmall, fun j hj => ?_⟩
        cases j with
        | zero => exact ⟨hsector, hpos⟩
        | succ j =>
          rw [Nat.succ_mul] at hj
          have hmin : min (codeSize - offset) image.sectorSize = image.sectorSize := by omega
          rw [hmin] at hrest
          rw [show sector + (j + 1) = sector + 1 + j by omega]
          exact (hrest (by omega)).2 j (by omega)
      · intro hfits
        obtain ⟨hsmall, hall⟩ := hfits hlt
        obtain ⟨hsector, hpos⟩ : sector < start ∧ image.position sector < 2 ^ 31 :=
          hall 0 (by omega)
        have hwrite : (f.write image sector ((f.read image sector b).copy 0
            (fun i => code (offset + i)) (min (codeSize - offset) image.sectorSize))).failed =
              false := hgood
        obtain ⟨f', h⟩ := (ih (b := (f.read image sector b).copy 0 (fun i => code (offset + i))
          (min (codeSize - offset) image.sectorSize)) hwrite (fun n hn => (hhas n hn).write)
          (by omega) (by omega)).2 (hfits.next hlt)
        refine ⟨f', run_check_bind.2 ⟨decide_eq_true hsector, ?_⟩⟩
        rw [run_ok_bind (run_readSector_of_has hpos hgood (hhas sector hsector))]
        refine run_check_bind.2 ⟨decide_eq_true hsmall, ?_⟩
        rw [run_ok_bind (run_writeSector_of_good hpos hgood)]
        exact h
    · rw [if_neg hlt]
      exact ⟨fun _ hlt' => absurd hlt' hlt, fun _ => ⟨f, rfl⟩⟩

end

end GarbageOS.Fat32Maker
