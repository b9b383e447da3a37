import GarbageOS.Acpi.Code
import Mathlib.Algebra.GroupWithZero.Nat
import Mathlib.Order.Basic

/-!
# Finding the root pointer

`acpi_RSDP` stops at the first signature and leaves the checksum to `acpi_init`, which reads the
revision of what was found before it looks whether anything was.
-/

namespace GarbageOS.KernelView

open Lib

variable {v : KernelView} {a n addr slots : Nat}

/-! ## What there is to find -/

section

variable (v : KernelView)

/-- The start of the EBDA: the BIOS keeps its segment at address `0x40E`. -/
def ebda : Nat := v.bytes.get16 0x40E * 16

/-- An address that a root pointer may have. -/
def IsCandidate (a : Nat) : Prop :=
  a % 16 = 0 ∧ (v.ebda ≤ a ∧ a < v.ebda + 1 * KB ∨ biosRoStart ≤ a ∧ a ≤ biosRoEnd)

def ValidRsdp (a : Nat) : Prop :=
  v.bytes.get64 a = rsdpSignature ∧
    ((List.range sizeofRsdp).map fun i => v.bytes.get8 (a + i)).sum % 2 ^ 8 = 0

instance (a : Nat) : Decidable (v.ValidRsdp a) := inferInstanceAs (Decidable (_ ∧ _))

/-- A root pointer is found if there is one, and otherwise `acpi_init` says so. -/
def FindsRsdp : Prop :=
  ((∃ a, v.IsCandidate a ∧ v.ValidRsdp a) → ∃ a cache, v.IsCandidate a ∧ v.ValidRsdp a ∧
    v.acpiInit ⟨0, 0⟩ = .ok (true, cache) ∧ cache.cachedRsdp = a) ∧
  ((¬ ∃ a, v.IsCandidate a ∧ v.ValidRsdp a) → v.acpiInit ⟨0, 0⟩ = .ok (false, ⟨0, 0⟩))

def candidates : List Nat :=
  ((List.range 64).map fun i => v.ebda + 16 * i) ++
    (List.range 8192).map fun i => biosRoStart + 16 * i

def firstSignature : Option Nat :=
  v.candidates.find? fun a => v.bytes.get64 a == rsdpSignature

end

theorem ebda_lt (v : KernelView) : v.ebda < 2 ^ 20 := by
  have : v.bytes.get16 0x40E < 2 ^ 16 := Bytes.get16_lt
  unfold ebda
  omega

theorem ebdaAddr_eq (v : KernelView) : v.ebdaAddr = v.ebda := by
  have hlt := ebda_lt v
  have hmask : v.ebda &&& 0x000FFFFF = v.ebda := by
    rw [show (0x000FFFFF : Nat) = 2 ^ 20 - 1 by decide, Nat.and_two_pow_sub_one_eq_mod,
      Nat.mod_eq_of_lt hlt]
  have haligned : v.ebda % 16 = 0 := Nat.mul_mod_left _ _
  have hunfold : v.ebdaAddr = if (v.ebda &&& 0x000FFFFF) % 16 ≠ 0 then
      (v.ebda &&& 0x000FFFFF) + (16 - (v.ebda &&& 0x000FFFFF) % 16) else v.ebda &&& 0x000FFFFF := rfl
  rw [hunfold, hmask, if_neg (not_not.2 haligned)]

theorem mem_candidates : a ∈ v.candidates ↔ v.IsCandidate a := by
  have haligned : v.ebda % 16 = 0 := Nat.mul_mod_left _ _
  have hKB : 1 * KB = 1024 := rfl
  unfold candidates IsCandidate
  simp only [List.mem_append, List.mem_map, List.mem_range, biosRoStart, biosRoEnd]
  constructor
  · rintro (⟨i, hi, rfl⟩ | ⟨i, hi, rfl⟩) <;> omega
  · rintro ⟨hmod, ⟨hlo, hhi⟩ | ⟨hlo, hhi⟩⟩
    · exact .inl ⟨(a - v.ebda) / 16, by omega, by omega⟩
    · exact .inr ⟨(a - 0x0E0000) / 16, by omega, by omega⟩

theorem IsCandidate.lt (h : v.IsCandidate a) : a < 2 ^ 20 + 1 * KB := by
  have hlt := ebda_lt v
  obtain ⟨-, ⟨-, h⟩ | ⟨-, h⟩⟩ := h
  · omega
  · simp only [biosRoEnd] at h
    omega

/-! ## Reads -/

theorem access_ok (hlo : pageSize ≤ a) (hpos : 0 < n) (hhi : a + n ≤ identityMapVmemEnd) :
    v.access a n = .ok () := by
  rw [access, v.identity a hlo (by omega), v.identity (a + n - 1) (by omega) (by omega)]
  rfl

theorem access_null (h : a < pageSize) : v.access a n = .error .nullAccess := by
  rw [access, v.null a h, Bool.false_and, if_neg (by decide), if_pos h]

theorem read8_ok (hlo : pageSize ≤ a) (hhi : a + 1 ≤ identityMapVmemEnd) :
    v.read8 a = .ok (v.bytes.get8 a) := by
  rw [read8, access_ok hlo (by decide) hhi]
  rfl

theorem read64_ok (hlo : pageSize ≤ a) (hhi : a + 8 ≤ identityMapVmemEnd) :
    v.read64 a = .ok (v.bytes.get64 a) := by
  rw [read64, access_ok hlo (by decide) hhi]
  rfl

theorem read8_null (h : a < pageSize) : v.read8 a = .error .nullAccess := by
  rw [read8, access_null h]
  rfl

theorem read64_null (h : a < pageSize) : v.read64 a = .error .nullAccess := by
  rw [read64, access_null h]
  rfl

theorem findSignature_eq (hlo : pageSize ≤ addr) (hhi : addr + 16 * slots ≤ identityMapVmemEnd) :
    v.findSignature slots addr =
      .ok ((((List.range slots).map fun i => addr + 16 * i).find? fun a =>
        v.bytes.get64 a == rsdpSignature).getD 0) := by
  induction slots generalizing addr with
  | zero => rfl
  | succ slots ih =>
    rw [findSignature, read64_ok hlo (by omega), List.range_succ_eq_map, List.map_cons, List.map_map,
      List.find?_cons, Nat.mul_zero, Nat.add_zero]
    cases hsig : v.bytes.get64 addr == rsdpSignature with
    | true =>
      rw [ok_bind, if_pos (beq_iff_eq.1 hsig)]
      rfl
    | false =>
      rw [ok_bind, if_neg (beq_eq_false_iff_ne.1 hsig), ih (by omega) (by omega)]
      simp only [Function.comp_def, Nat.succ_eq_add_one, Nat.mul_add, Nat.mul_one, Nat.add_assoc,
        Nat.add_comm 16]

theorem findSignature_null (h : addr < pageSize) (hslots : 0 < slots) :
    v.findSignature slots addr = .error .nullAccess := by
  obtain ⟨slots, rfl⟩ := Nat.exists_eq_add_one.2 hslots
  rw [findSignature, read64_null h]
  rfl

theorem acpiRSDP_eq (h : pageSize ≤ v.ebda) : v.acpiRSDP = .ok (v.firstSignature.getD 0) := by
  have hlt := ebda_lt v
  have hend : identityMapVmemEnd = 549755813888 := rfl
  have hpage : pageSize = 4096 := rfl
  have hfirst : v.findSignature (1 * KB / 16) v.ebda = _ := findSignature_eq h (by
    have : 1 * KB / 16 = 64 := rfl
    omega)
  have hsecond : v.findSignature ((biosRoEnd + 1 - biosRoStart) / 16) biosRoStart = _ :=
    findSignature_eq (by decide) (by decide)
  rw [acpiRSDP, ebdaAddr_eq, hfirst, ok_bind, firstSignature, candidates, List.find?_append]
  cases hfind : ((List.range (1 * KB / 16)).map fun i => v.ebda + 16 * i).find? fun a =>
      v.bytes.get64 a == rsdpSignature with
  | none =>
    rw [show (64 : Nat) = 1 * KB / 16 from rfl, hfind, Option.getD_none, if_pos rfl, Option.none_or]
    exact hsecond
  | some a =>
    obtain ⟨i, -, rfl⟩ := List.mem_map.1 (List.mem_of_find?_eq_some hfind)
    rw [show (64 : Nat) = 1 * KB / 16 from rfl, hfind, Option.getD_some, if_neg (by omega)]
    rfl

theorem acpiRSDP_null (h : v.ebda < pageSize) : v.acpiRSDP = .error .nullAccess := by
  rw [acpiRSDP, ebdaAddr_eq, findSignature_null h (by decide)]
  rfl

/-! ## The checks -/

theorem checksum_eq (hlo : pageSize ≤ a) (hhi : a + n ≤ identityMapVmemEnd) :
    v.checksum a n = .ok (((List.range n).map fun i => v.bytes.get8 (a + i)).sum % 2 ^ 8) := by
  have hfold : ∀ (l : List Nat), (∀ i ∈ l, i < n) → ∀ acc,
      l.foldlM (fun sum i => do return (sum + (← v.read8 (a + i))) % 2 ^ 8) (acc % 2 ^ 8) =
        (.ok ((acc + (l.map fun i => v.bytes.get8 (a + i)).sum) % 2 ^ 8) : Except Stop Nat) := by
    intro l
    induction l with
    | nil => intro _ acc; rfl
    | cons i l ih =>
      intro hl acc
      have hi := hl i List.mem_cons_self
      have hnext := ih (fun j hj => hl j (List.mem_cons_of_mem _ hj)) (acc + v.bytes.get8 (a + i))
      rw [List.foldlM_cons, read8_ok (by omega) (by omega), ok_bind, List.map_cons, List.sum_cons,
        ← Nat.add_assoc, ← hnext, Nat.mod_add_mod]
      rfl
  have h := hfold (List.range n) (fun i hi => List.mem_range.1 hi) 0
  rw [Nat.zero_add] at h
  exact h

theorem checkRsdp_eq (hlo : pageSize ≤ a) (hhi : a + sizeofRsdp ≤ identityMapVmemEnd) :
    v.checkRsdp a = .ok (decide (v.ValidRsdp a)) := by
  have hsize : sizeofRsdp = 20 := rfl
  rw [checkRsdp, read64_ok hlo (by omega), ok_bind]
  by_cases hsig : v.bytes.get64 a = rsdpSignature
  · rw [if_neg (not_not.2 hsig), checksum_eq hlo hhi]
    simp only [ValidRsdp, hsig, true_and]
    rfl
  · rw [if_pos hsig, decide_eq_false fun h => hsig h.1]
    rfl

theorem acpiInit_of_found (h : v.acpiRSDP = .ok a) (hlo : pageSize ≤ a)
    (hhi : a + sizeofRsdp ≤ identityMapVmemEnd) :
    ∃ xsdp, v.acpiInit ⟨0, 0⟩ =
      if v.ValidRsdp a then .ok (true, ⟨a, xsdp⟩) else .ok (false, ⟨0, 0⟩) := by
  have hsize : sizeofRsdp = 20 := rfl
  have hcheck := checkRsdp_eq (v := v) hlo hhi
  rw [acpiInit, h, ok_bind, read8_ok (by omega) (by omega), ok_bind]
  -- both revisions are checked the same way
  cases v.bytes.get8 (a + 15) == acpiRevision2 with
  | true =>
    refine ⟨a, ?_⟩
    simp only [if_true, checkXsdp, hcheck, ok_bind, decide_eq_true_eq]
    split <;> rfl
  | false =>
    refine ⟨0, ?_⟩
    simp only [Bool.false_eq_true, if_false, hcheck, ok_bind, decide_eq_true_eq]
    split <;> rfl

theorem acpiInit_of_null (h : v.acpiRSDP = .ok 0) : v.acpiInit ⟨0, 0⟩ = .error .nullAccess := by
  rw [acpiInit, h, ok_bind, read8_null (by decide)]
  rfl

theorem firstSignature_some (h : v.firstSignature = some a) :
    v.IsCandidate a ∧ v.bytes.get64 a = rsdpSignature := by
  have hsig := List.find?_some h
  exact ⟨mem_candidates.1 (List.mem_of_find?_eq_some h), beq_iff_eq.1 hsig⟩

theorem IsCandidate.pageSize_le (h : v.IsCandidate a) (hebda : pageSize ≤ v.ebda) : pageSize ≤ a := by
  obtain ⟨-, ⟨h, -⟩ | ⟨h, -⟩⟩ := h
  · omega
  · exact Nat.le_trans (by decide) h

/-- The root pointer is found exactly if the EBDA is not in the first page, there is a signature, and
the first one is valid unless none is. -/
theorem findsRsdp_iff (v : KernelView) :
    v.FindsRsdp ↔ pageSize ≤ v.ebda ∧ ∃ a, v.firstSignature = some a ∧
      (v.ValidRsdp a ∨ ∀ b, v.IsCandidate b → ¬ v.ValidRsdp b) := by
  -- whatever the areas hold, a call that faults is wrong
  have hstops : ∀ e, v.acpiInit ⟨0, 0⟩ = .error e → ¬ v.FindsRsdp := by
    rintro e he ⟨hfound, hnone⟩
    by_cases hex : ∃ a, v.IsCandidate a ∧ v.ValidRsdp a
    · obtain ⟨_, _, -, -, hinit, -⟩ := hfound hex
      rw [he] at hinit
      cases hinit
    · have hinit := hnone hex
      rw [he] at hinit
      cases hinit
  by_cases hebda : pageSize ≤ v.ebda
  · cases hfirst : v.firstSignature with
    | none =>
      have hinit := acpiInit_of_null (v := v) (by rw [acpiRSDP_eq hebda, hfirst]; rfl)
      refine iff_of_false (hstops _ hinit) ?_
      rintro ⟨-, a, ha, -⟩
      cases ha
    | some a =>
      obtain ⟨hcand, -⟩ := firstSignature_some hfirst
      have hlt := hcand.lt
      obtain ⟨xsdp, hinit⟩ := acpiInit_of_found (v := v) (a := a)
        (by rw [acpiRSDP_eq hebda, hfirst]; rfl) (hcand.pageSize_le hebda)
        (by simp only [KB, sizeofRsdp, identityMapVmemEnd, GB, MB] at hlt ⊢; omega)
      simp only [hebda, true_and, Option.some.injEq, exists_eq_left']
      by_cases hvalid : v.ValidRsdp a
      · rw [if_pos hvalid] at hinit
        refine iff_of_true ⟨fun _ => ⟨a, _, hcand, hvalid, hinit, rfl⟩, fun hno => ?_⟩ (.inl hvalid)
        exact absurd ⟨a, hcand, hvalid⟩ hno
      · rw [if_neg hvalid] at hinit
        constructor
        · rintro ⟨hfound, -⟩
          refine .inr fun b hb hvb => ?_
          obtain ⟨_, _, -, -, htrue, -⟩ := hfound ⟨b, hb, hvb⟩
          rw [hinit] at htrue
          cases htrue
        · rintro (h | hnone)
          · exact absurd h hvalid
          · refine ⟨?_, fun _ => hinit⟩
            rintro ⟨b, hb, hvb⟩
            exact absurd hvb (hnone b hb)
  · have hinit : v.acpiInit ⟨0, 0⟩ = .error .nullAccess := by
      rw [acpiInit, acpiRSDP_null (by omega)]
      rfl
    exact iff_of_false (hstops _ hinit) fun h => hebda h.1

/-- An EBDA at `0x9FC00`, and nothing in it. -/
def blankBytes : Bytes := Bytes.put16 (fun _ => 0) 0x40E 0x9FC0

/-- The same EBDA with a stray signature before a valid root pointer. -/
def strayBytes : Bytes :=
  ((blankBytes.put64 0x9FC00 rsdpSignature).put64 0x9FC20 rsdpSignature).put8 0x9FC28 225

theorem blankBytes_get64 (h : pageSize ≤ a) : blankBytes.get64 a = 0 := by
  have hbyte : ∀ i, blankBytes.get8 (a + i) = 0 := by
    intro i
    have hpage : pageSize = 4096 := rfl
    have h1 : a + i ≠ 0x40E := by omega
    have h2 : a + i ≠ 0x40F := by omega
    simp [Bytes.get8, blankBytes, Bytes.put16, Bytes.put8, h1, h2]
  simp only [Bytes.get64, Bytes.get32, Bytes.get16, Nat.add_assoc, hbyte]
  rw [show blankBytes.get8 a = 0 from hbyte 0]
  rfl

/-- Without a signature `acpi_init` reads through the NULL pointer; and a signature with a wrong
checksum hides the root pointer behind it. -/
theorem exists_rsdp_missed :
    ((∀ a, (ofBytes blankBytes).IsCandidate a → ¬ (ofBytes blankBytes).ValidRsdp a) ∧
      (ofBytes blankBytes).acpiInit ⟨0, 0⟩ = .error .nullAccess) ∧
    (ofBytes strayBytes).IsCandidate 0x9FC20 ∧ (ofBytes strayBytes).ValidRsdp 0x9FC20 ∧
      (ofBytes strayBytes).acpiInit ⟨0, 0⟩ = .ok (false, ⟨0, 0⟩) := by
  have hebda : pageSize ≤ (ofBytes blankBytes).ebda := by decide
  have hblank : ∀ a, (ofBytes blankBytes).IsCandidate a →
      (ofBytes blankBytes).bytes.get64 a ≠ rsdpSignature := by
    intro a ha
    have hzero : (ofBytes blankBytes).bytes.get64 a = 0 := blankBytes_get64 (ha.pageSize_le hebda)
    rw [hzero]
    decide
  have hnone : (ofBytes blankBytes).firstSignature = none :=
    List.find?_eq_none.2 fun a ha => by simpa using hblank a (mem_candidates.1 ha)
  refine ⟨⟨fun a ha hvalid => hblank a ha hvalid.1, acpiInit_of_null ?_⟩, ⟨by decide, by decide⟩,
    by decide +kernel, by decide +kernel⟩
  rw [acpiRSDP_eq hebda, hnone]
  rfl

end GarbageOS.KernelView
