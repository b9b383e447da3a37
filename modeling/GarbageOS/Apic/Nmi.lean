import GarbageOS.Apic.Array
import GarbageOS.Apic.Ipi
import GarbageOS.Lib.Runs

/-!
# `apic.c`: the NMI pins

`fill_apic_array` keeps for each local APIC the record of the MADT that says which of its two pins
is an NMI line; `setup_lapic_nmi_lint` writes the entry of that pin. It looks at the polarity field
where it should look at the trigger mode, so level-triggered lines of bus-conforming polarity are
set up as edge-triggered ones.
-/

namespace GarbageOS

open Lib Function

def lvtLint0 : Nat := 0x350
def lvtLint1 : Nat := 0x360

def makeLvtEntry (vector : Nat) (delMode : DeliveryMode) (interruptPinPolarity remoteIrrFlag
    triggerMode mask : Bool) : Nat :=
  vector ||| (delMode.code &&& 0b111) <<< 8 ||| interruptPinPolarity.toNat <<< 13 |||
    remoteIrrFlag.toNat <<< 14 ||| triggerMode.toNat <<< 15 ||| mask.toNat <<< 16

def getLapicFromId (lapicArray : List LocalApic) (apicId : Nat) : Option LocalApic :=
  lapicArray.find? fun lapic => lapic.apicId == apicId

namespace Madt

variable (t : Madt)
  {nmi header : Nat}

/-- `setup_lapic_nmi_lint` on the core with a local APIC id. -/
def setupLapicNmiLint (lapicArray : List LocalApic) (lapicId : Nat) : LapicM Unit := do
  match getLapicFromId lapicArray lapicId with
  | none => kassert false
  | some lapicData =>
    match lapicData.icsLapicNmi with
    | none => return
    | some nmi =>
      let lintReg ← match t.nmiLint nmi with
        | 0 => pure lvtLint0
        | 1 => pure lvtLint1
        | _ => kpanic .apicError
      let polarityFlag := t.nmiFlags nmi &&& mpsIntiPolarityMask
      let triggerModeFlag := t.nmiFlags nmi &&& mpsIntiTriggerModeMask
      let polarity :=
        if polarityFlag ≠ mpsIntiPolarityBusConform then polarityFlag == mpsIntiPolarityActiveLow
        else false
      let triggerMode :=
        -- the polarity, not the trigger mode
        if polarityFlag ≠ mpsIntiTriggerModeBusConform then
          triggerModeFlag == mpsIntiTriggerModeLevelTriggered
        else false
      write32LapicRegister lintReg (makeLvtEntry 0xff .nmi polarity false triggerMode false)

/-! ## What the table asks for -/

def isNmi (header : Nat) : Bool := t.icsType header == icsTypeLocalApicNmi

def isNmiForAll (header : Nat) : Bool := t.isNmi header && t.processorUid header == 0xff

def NmiApplies (nmi uid : Nat) : Prop :=
  t.isNmi nmi = true ∧ (t.processorUid nmi = uid ∨ t.processorUid nmi = 0xff)

def IsLevelTriggered (nmi : Nat) : Prop :=
  t.nmiFlags nmi &&& mpsIntiTriggerModeMask = mpsIntiTriggerModeLevelTriggered

def IsActiveLow (nmi : Nat) : Prop :=
  t.nmiFlags nmi &&& mpsIntiPolarityMask = mpsIntiPolarityActiveLow

instance (nmi : Nat) : Decidable (t.IsLevelTriggered nmi) := inferInstanceAs (Decidable (_ = _))
instance (nmi : Nat) : Decidable (t.IsActiveLow nmi) := inferInstanceAs (Decidable (_ = _))

/-- The entry that a record describes, in the register of its pin. -/
structure DescribesEntry (nmi register value : Nat) : Prop where
  pin : t.nmiLint nmi = 0 ∧ register = lvtLint0 ∨ t.nmiLint nmi = 1 ∧ register = lvtLint1
  delivery : value / 2 ^ 8 % 2 ^ 3 = DeliveryMode.nmi.code
  unmasked : value.testBit 16 = false
  polarity : value.testBit 13 = true ↔ t.IsActiveLow nmi
  triggerMode : value.testBit 15 = true ↔ t.IsLevelTriggered nmi

/-- The pins of the local APIC `ics` are set up as the table says. -/
def WiresNmi (headers : List Nat) (ics : Nat) : Prop :=
  ∀ s : Lapic, s.registerSpaceMapped = true → ∃ lapicArray s', t.initLapicArray = .ok lapicArray ∧
    (t.setupLapicNmiLint lapicArray (t.localApicId ics)).run s = .ok () s' ∧
    ((s' = s ∧ ∀ nmi ∈ headers, ¬ t.NmiApplies nmi (t.processorUid ics)) ∨
      ∃ nmi ∈ headers, t.NmiApplies nmi (t.processorUid ics) ∧
        ∃ register value, t.DescribesEntry nmi register value ∧ s' = s.write register value)

/-! ## The record that is kept -/

/-- The first record for all processors or, without one, the last for this one. -/
def keptNmi (headers : List Nat) (uid : Nat) : Option Nat :=
  match headers.find? t.isNmiForAll with
  | some nmi => some nmi
  | none => (headers.filter fun nmi => t.isNmi nmi && t.processorUid nmi == uid).getLast?

variable {t} {headers lapics : List Nat} {uid : Nat}

theorem keptNmi_cons_all (h : t.isNmiForAll nmi = true) :
    t.keptNmi (nmi :: headers) uid = some nmi := by
  rw [keptNmi, List.find?_cons_of_pos h]

theorem keptNmi_cons (h : t.isNmiForAll header = false) :
    t.keptNmi (header :: headers) uid =
      (t.keptNmi headers uid).or
        (if t.isNmi header && t.processorUid header == uid then some header else none) := by
  have hno : ¬ t.isNmiForAll header = true := by rw [h]; decide
  unfold keptNmi
  rw [List.find?_cons_of_neg hno]
  split
  · rfl
  · rw [List.filter_cons]
    split
    · rw [List.getLast?_cons]
      cases (headers.filter fun nmi => t.isNmi nmi && t.processorUid nmi == uid).getLast? <;> rfl
    · rw [Option.or_none]

theorem keptNmi_some (h : t.keptNmi headers uid = some nmi) :
    nmi ∈ headers ∧ t.NmiApplies nmi uid := by
  unfold keptNmi at h
  split at h
  · next other hfind =>
    cases h
    have hall : t.isNmiForAll nmi = true := List.find?_some hfind
    obtain ⟨hnmi, huid⟩ := Bool.and_eq_true_iff.1 hall
    exact ⟨List.mem_of_find?_eq_some hfind, hnmi, .inr (beq_iff_eq.1 huid)⟩
  · obtain ⟨hmem, hnmi⟩ := List.mem_filter.1 (List.mem_of_getLast? h)
    obtain ⟨hnmi, huid⟩ := Bool.and_eq_true_iff.1 hnmi
    exact ⟨hmem, hnmi, .inl (beq_iff_eq.1 huid)⟩

theorem keptNmi_none (h : t.keptNmi headers uid = none) :
    ∀ nmi ∈ headers, ¬ t.NmiApplies nmi uid := by
  unfold keptNmi at h
  split at h
  · cases h
  · next hfind =>
    rw [List.getLast?_eq_none_iff, List.filter_eq_nil_iff] at h
    rintro nmi hmem ⟨hnmi, huid | huid⟩
    · exact h nmi hmem (Bool.and_eq_true_iff.2 ⟨hnmi, beq_iff_eq.2 huid⟩)
    · exact List.find?_eq_none.1 hfind nmi hmem (Bool.and_eq_true_iff.2 ⟨hnmi, beq_iff_eq.2 huid⟩)

/-! ## Filling the array -/

/-- The array entry of a local APIC record with the NMI record that was stored so far. -/
def lapicWith (t : Madt) (nmi : Nat → Option Nat) (ics : Nat) : LocalApic :=
  { t.lapicOf ics with icsLapicNmi := nmi ics }

theorem getLapicFromProcessorUid_listed {f : Nat → LocalApic} (hf : ∀ ics, (f ics).icsLapic = some ics)
    (hnd : (lapics.map t.processorUid).Nodup) (hmem : uid ∈ lapics.map t.processorUid)
    (g : LocalApic → LocalApic) (j : Nat) :
    ∃ i, t.getLapicFromProcessorUid uid (lapics.map f) j = .ok (some (j + i)) ∧
      (lapics.map f).modify i g =
        lapics.map fun ics => if t.processorUid ics = uid then g (f ics) else f ics := by
  induction lapics generalizing j with
  | nil => cases hmem
  | cons ics rest ih =>
    rw [List.map_cons] at hnd hmem
    obtain ⟨hnot, hnd⟩ := List.nodup_cons.1 hnd
    rw [List.map_cons, getLapicFromProcessorUid]
    simp only [hf]
    by_cases huid : t.processorUid ics = uid
    · -- no later entry has the id
      refine ⟨0, if_pos huid, ?_⟩
      rw [List.modify_zero_cons, List.map_cons, if_pos huid]
      congr 1
      refine List.map_congr_left fun other hother => ?_
      rw [if_neg]
      rintro rfl
      exact hnot (huid ▸ List.mem_map_of_mem hother)
    · have hrest : uid ∈ rest.map t.processorUid :=
        (List.mem_cons.1 hmem).resolve_left fun he => huid he.symm
      obtain ⟨i, hi, hmodify⟩ := ih hnd hrest (j + 1)
      refine ⟨i + 1, ?_, ?_⟩
      · rw [if_neg huid, hi, Nat.add_assoc, Nat.add_comm 1]
      · rw [List.modify_succ_cons, hmodify, List.map_cons, if_neg huid]

theorem getLapicFromProcessorUid_unlisted {f : Nat → LocalApic}
    (hf : ∀ ics, (f ics).icsLapic = some ics) (hmem : uid ∉ lapics.map t.processorUid) (j : Nat) :
    t.getLapicFromProcessorUid uid (lapics.map f) j = .ok none := by
  induction lapics generalizing j with
  | nil => rfl
  | cons ics rest ih =>
    rw [List.map_cons, List.mem_cons, not_or] at hmem
    rw [List.map_cons, getLapicFromProcessorUid]
    simp only [hf]
    rw [if_neg fun he => hmem.1 he.symm, ih hmem.2]

/-- Every record for one processor before the first for all names a processor of the table. -/
def NmisListed (t : Madt) (headers lapics : List Nat) : Prop :=
  ∀ nmi ∈ headers.takeWhile fun header => !t.isNmiForAll header, t.isNmi nmi = true →
    t.processorUid nmi ∈ lapics.map t.processorUid

theorem storeNmi_lapicWith {k : Nat → Option Nat} (hnd : (lapics.map t.processorUid).Nodup)
    (hall : t.isNmiForAll header = false) :
    t.storeNmi header (lapics.map (t.lapicWith k)) =
      if t.isNmi header = true ∧ t.processorUid header ∉ lapics.map t.processorUid then
        .error (.panic .failedAssert)
      else .ok (.yield (lapics.map (t.lapicWith fun ics =>
        (if t.isNmi header && t.processorUid header == t.processorUid ics then some header
          else none).or (k ics)))) := by
  unfold storeNmi
  by_cases hnmi : t.icsType header = icsTypeLocalApicNmi
  · have hnmi' : t.isNmi header = true := beq_iff_eq.2 hnmi
    have huid : t.processorUid header ≠ 0xff := by
      rw [isNmiForAll, hnmi', Bool.true_and] at hall
      exact beq_eq_false_iff_ne.1 hall
    rw [if_pos hnmi, if_neg huid]
    by_cases hmem : t.processorUid header ∈ lapics.map t.processorUid
    · obtain ⟨i, hi, hmodify⟩ := getLapicFromProcessorUid_listed (f := t.lapicWith k) (fun _ => rfl) hnd hmem
        (fun lapic => { lapic with icsLapicNmi := some header }) 0
      rw [Nat.zero_add] at hi
      rw [hi, ok_bind, if_neg fun h => h.2 hmem]
      simp only [hmodify]
      congr 2
      refine List.map_congr_left fun ics _ => ?_
      by_cases he : t.processorUid ics = t.processorUid header
      · simp [lapicWith, hnmi', he]
      · have he' : ¬ t.processorUid header = t.processorUid ics := fun h => he h.symm
        simp [lapicWith, hnmi', he, he']
    · rw [getLapicFromProcessorUid_unlisted (f := t.lapicWith k) (fun _ => rfl) hmem, ok_bind,
        if_pos ⟨hnmi', hmem⟩]
  · have hnmi' : t.isNmi header = false := beq_eq_false_iff_ne.2 hnmi
    rw [if_neg hnmi, if_neg fun h => by rw [hnmi'] at h; cases h.1]
    simp [hnmi']

theorem storeNmi_all {k : Nat → Option Nat} (hall : t.isNmiForAll header = true) :
    t.storeNmi header (lapics.map (t.lapicWith k)) =
      .ok (.done (lapics.map (t.lapicWith fun _ => some header))) := by
  obtain ⟨hnmi, huid⟩ := Bool.and_eq_true_iff.1 hall
  unfold storeNmi
  rw [if_pos (beq_iff_eq.1 hnmi), if_pos (beq_iff_eq.1 huid), List.map_map]
  rfl

/-- The second loop leaves each local APIC with the record that is kept for it, and fails at a record
for a processor that is not listed. -/
theorem forIn_storeNmi_ok_iff (hnd : (lapics.map t.processorUid).Nodup) (k : Nat → Option Nat)
    {lapicArray : List LocalApic} :
    forIn headers (lapics.map (t.lapicWith k)) t.storeNmi = Except.ok lapicArray ↔
      t.NmisListed headers lapics ∧ lapicArray = lapics.map (t.lapicWith fun ics =>
        (t.keptNmi headers (t.processorUid ics)).or (k ics)) := by
  unfold NmisListed
  induction headers generalizing k with
  | nil =>
    refine ⟨fun h => ⟨fun nmi hmem => absurd hmem List.not_mem_nil, (Except.ok.inj h).symm⟩, ?_⟩
    rintro ⟨-, rfl⟩
    rfl
  | cons header rest ih =>
    rw [List.forIn_cons]
    cases hall : t.isNmiForAll header with
    | true =>
      rw [storeNmi_all hall, ok_bind, List.takeWhile_cons_of_neg (by rw [hall]; decide)]
      simp only [keptNmi_cons_all hall, Option.some_or]
      refine ⟨fun h => ⟨fun nmi hmem => absurd hmem List.not_mem_nil, (Except.ok.inj h).symm⟩, ?_⟩
      rintro ⟨-, rfl⟩
      rfl
    | false =>
      rw [storeNmi_lapicWith hnd hall, List.takeWhile_cons_of_pos (by rw [hall]; rfl),
        List.forall_mem_cons]
      split
      · next hno =>
        refine iff_of_false (fun h => ?_) fun h => hno.2 (h.1.1 hno.1)
        cases h
      · next hok =>
        have hlisted : t.isNmi header = true → t.processorUid header ∈ lapics.map t.processorUid :=
          fun hnmi => not_not.1 fun hno => hok ⟨hnmi, hno⟩
        rw [ok_bind, and_iff_right hlisted]
        simp only [keptNmi_cons hall, Option.or_assoc]
        exact ih _

/-- The local APICs of the table have different ids. -/
structure DistinctLapics (t : Madt) (headers : List Nat) : Prop where
  uid : ((headers.filter t.isLapic).map t.processorUid).Nodup
  id : ∀ a ∈ headers.filter t.isLapic, ∀ b ∈ headers.filter t.isLapic,
    t.localApicId a = t.localApicId b → a = b

theorem HasRecords.initLapicArray_eq (h : t.HasRecords headers)
    (hcount : headers.countP t.isLapic = headers.countP t.isUsableLapic) :
    t.initLapicArray =
      forIn headers ((headers.filter t.isLapic).map (t.lapicWith fun _ => none)) t.storeNmi := by
  rw [initLapicArray, h.countNumberOfLocalApic_eq, ok_bind, fillApicArray, h.fillApicIds_eq,
    if_pos hcount, ok_bind, h.forICS_eq]
  rfl

theorem HasRecords.initLapicArray_ok_iff (h : t.HasRecords headers) (hd : t.DistinctLapics headers)
    {lapicArray : List LocalApic} :
    t.initLapicArray = .ok lapicArray ↔ headers.countP t.isLapic = headers.countP t.isUsableLapic ∧
      t.NmisListed headers (headers.filter t.isLapic) ∧
      lapicArray = (headers.filter t.isLapic).map (t.lapicWith fun ics =>
        t.keptNmi headers (t.processorUid ics)) := by
  by_cases hcount : headers.countP t.isLapic = headers.countP t.isUsableLapic
  · rw [h.initLapicArray_eq hcount, forIn_storeNmi_ok_iff hd.uid, and_iff_right hcount]
    simp only [Option.or_none]
  · refine iff_of_false (fun hok => ?_) fun hcond => hcount hcond.1
    rw [initLapicArray, h.countNumberOfLocalApic_eq, ok_bind, fillApicArray, h.fillApicIds_eq,
      if_neg hcount] at hok
    cases hok

theorem DistinctLapics.getLapicFromId_eq (hd : t.DistinctLapics headers) {ics : Nat}
    (hics : ics ∈ headers.filter t.isLapic) (k : Nat → Option Nat) :
    getLapicFromId ((headers.filter t.isLapic).map (t.lapicWith k)) (t.localApicId ics) =
      some (t.lapicWith k ics) := by
  rw [getLapicFromId, List.find?_map]
  have hfind : (headers.filter t.isLapic).find?
      ((fun lapic : LocalApic => lapic.apicId == t.localApicId ics) ∘ t.lapicWith k) = some ics := by
    cases hfind : (headers.filter t.isLapic).find?
        ((fun lapic : LocalApic => lapic.apicId == t.localApicId ics) ∘ t.lapicWith k) with
    | none => exact absurd (beq_self_eq_true _) (List.find?_eq_none.1 hfind ics hics)
    | some other =>
      have htest := List.find?_some hfind
      have hid : t.localApicId other = t.localApicId ics := beq_iff_eq.1 htest
      rw [hd.id other (List.mem_of_find?_eq_some hfind) ics hics hid]
  rw [hfind]
  rfl

/-! ## The entry that is written -/

def lintRegister (t : Madt) (nmi : Nat) : Nat := if t.nmiLint nmi = 0 then lvtLint0 else lvtLint1

/-- The polarity of a record says nothing. -/
def HasBusPolarity (t : Madt) (nmi : Nat) : Prop :=
  t.nmiFlags nmi &&& mpsIntiPolarityMask = mpsIntiPolarityBusConform

instance (nmi : Nat) : Decidable (t.HasBusPolarity nmi) := inferInstanceAs (Decidable (_ = _))

def nmiEntry (t : Madt) (nmi : Nat) : Nat :=
  makeLvtEntry 0xff .nmi (t.IsActiveLow nmi) false (¬ t.HasBusPolarity nmi ∧ t.IsLevelTriggered nmi) false

theorem not_isActiveLow_of_bus (h : t.HasBusPolarity nmi) : ¬ t.IsActiveLow nmi := by
  intro hlow
  unfold HasBusPolarity at h
  unfold IsActiveLow at hlow
  rw [h] at hlow
  exact absurd hlow (by decide)

section

variable {lapicArray : List LocalApic} {lapicId nmi : Nat} {lapic : LocalApic} {s : Lapic}
  (hget : getLapicFromId lapicArray lapicId = some lapic)

include hget

theorem run_setupLapicNmiLint_none (hnmi : lapic.icsLapicNmi = none) :
    (t.setupLapicNmiLint lapicArray lapicId).run s = .ok () s := by
  unfold setupLapicNmiLint
  rw [hget]
  simp only [hnmi]
  rfl

theorem run_setupLapicNmiLint_some (hnmi : lapic.icsLapicNmi = some nmi) (hlint : t.nmiLint nmi ≤ 1)
    (hmapped : s.registerSpaceMapped = true) :
    (t.setupLapicNmiLint lapicArray lapicId).run s =
      .ok () (s.write (t.lintRegister nmi) (t.nmiEntry nmi)) := by
  have hpolarity : (if t.nmiFlags nmi &&& mpsIntiPolarityMask ≠ mpsIntiPolarityBusConform then
      t.nmiFlags nmi &&& mpsIntiPolarityMask == mpsIntiPolarityActiveLow else false) =
        decide (t.IsActiveLow nmi) := by
    split
    · rfl
    · next hbus => exact (decide_eq_false (not_isActiveLow_of_bus (not_not.1 hbus))).symm
  have htrigger : (if t.nmiFlags nmi &&& mpsIntiPolarityMask ≠ mpsIntiTriggerModeBusConform then
      t.nmiFlags nmi &&& mpsIntiTriggerModeMask == mpsIntiTriggerModeLevelTriggered else false) =
        decide (¬ t.HasBusPolarity nmi ∧ t.IsLevelTriggered nmi) := by
    split
    · next hbus =>
      refine Bool.eq_iff_iff.2 ?_
      rw [beq_iff_eq, decide_eq_true_eq]
      exact ⟨fun h => ⟨hbus, h⟩, fun h => h.2⟩
    · next hbus => exact (decide_eq_false fun h => hbus h.1).symm
  unfold setupLapicNmiLint
  rw [hget]
  simp only [hnmi, hpolarity, htrigger]
  have hpin : t.nmiLint nmi = 0 ∨ t.nmiLint nmi = 1 := by omega
  rcases hpin with hpin | hpin
  · simp only [hpin, lintRegister, if_true, pure_bind]
    exact run_write32LapicRegister hmapped _ _
  · simp only [hpin, lintRegister, Nat.one_ne_zero, if_false, pure_bind]
    exact run_write32LapicRegister hmapped _ _

theorem run_setupLapicNmiLint_panics (hnmi : lapic.icsLapicNmi = some nmi)
    (hlint : ¬ t.nmiLint nmi ≤ 1) :
    (t.setupLapicNmiLint lapicArray lapicId).run s = .error (.panic .apicError) s := by
  unfold setupLapicNmiLint
  rw [hget]
  obtain ⟨lint, hpin⟩ : ∃ m, t.nmiLint nmi = m + 2 := ⟨t.nmiLint nmi - 2, by omega⟩
  simp only [hnmi, hpin]
  rfl

end

theorem describesEntry_makeLvtEntry {register : Nat} {polarity triggerMode : Bool} :
    t.DescribesEntry nmi register (makeLvtEntry 0xff .nmi polarity false triggerMode false) ↔
      (t.nmiLint nmi = 0 ∧ register = lvtLint0 ∨ t.nmiLint nmi = 1 ∧ register = lvtLint1) ∧
      (polarity = true ↔ t.IsActiveLow nmi) ∧ (triggerMode = true ↔ t.IsLevelTriggered nmi) := by
  have hfields : ∀ p g : Bool, makeLvtEntry 0xff .nmi p false g false / 2 ^ 8 % 2 ^ 3 =
        DeliveryMode.nmi.code ∧ (makeLvtEntry 0xff .nmi p false g false).testBit 16 = false ∧
      (makeLvtEntry 0xff .nmi p false g false).testBit 13 = p ∧
      (makeLvtEntry 0xff .nmi p false g false).testBit 15 = g := by decide
  obtain ⟨hdelivery, hmask, hpolarity, htrigger⟩ := hfields polarity triggerMode
  constructor
  · intro h
    exact ⟨h.pin, hpolarity ▸ h.polarity, htrigger ▸ h.triggerMode⟩
  · rintro ⟨hpin, hp, hg⟩
    exact ⟨hpin, hdelivery, hmask, by rw [hpolarity]; exact hp, by rw [htrigger]; exact hg⟩

def zeroLapic : Lapic := ⟨true, fun _ => 0, 0, fun _ => 0, []⟩

theorem zeroLapic_write_inj {r₁ r₂ v₁ v₂ : Nat} (hr₁ : r₁ ≠ interruptCommandLow)
    (hr₂ : r₂ ≠ interruptCommandLow) (hv : v₁ ≠ 0)
    (h : zeroLapic.write r₁ v₁ = zeroLapic.write r₂ v₂) : r₁ = r₂ ∧ v₁ = v₂ := by
  have hreg := congrFun (congrArg Lapic.registers h) r₁
  simp only [Lapic.write, if_neg hr₁, if_neg hr₂, update_self] at hreg
  by_cases hr : r₁ = r₂
  · subst hr
    rw [update_self] at hreg
    exact ⟨rfl, hreg⟩
  · rw [update_of_ne hr] at hreg
    exact absurd hreg hv

theorem nmiEntry_ne_zero (nmi : Nat) : t.nmiEntry nmi ≠ 0 := by
  have hne : ∀ p g : Bool, makeLvtEntry 0xff .nmi p false g false ≠ 0 := by decide
  exact hne _ _

theorem lintRegister_ne (nmi : Nat) : t.lintRegister nmi ≠ interruptCommandLow := by
  unfold lintRegister
  split <;> decide

theorem describesEntry_nmiEntry {other : Nat} (hlint : t.nmiLint nmi ≤ 1) :
    t.DescribesEntry other (t.lintRegister nmi) (t.nmiEntry nmi) ↔
      t.nmiLint other = t.nmiLint nmi ∧ (t.IsActiveLow nmi ↔ t.IsActiveLow other) ∧
      (¬ t.HasBusPolarity nmi ∧ t.IsLevelTriggered nmi ↔ t.IsLevelTriggered other) := by
  have hpin : (t.nmiLint other = 0 ∧ t.lintRegister nmi = lvtLint0 ∨
      t.nmiLint other = 1 ∧ t.lintRegister nmi = lvtLint1) ↔ t.nmiLint other = t.nmiLint nmi := by
    have hne : lvtLint0 ≠ lvtLint1 := by decide
    unfold lintRegister
    split
    · next h0 => simp [h0, hne]
    · next h0 =>
      have h1 : t.nmiLint nmi = 1 := by omega
      simp [h1, hne.symm]
  rw [nmiEntry, describesEntry_makeLvtEntry, hpin, decide_eq_true_eq, decide_eq_true_eq]

/-- The entry of the record describes an applying record if it describes this one, or another of the
same pin with both modes at 0. -/
theorem exists_described_iff {ics : Nat} (hkept : t.keptNmi headers (t.processorUid ics) = some nmi)
    (hlint : t.nmiLint nmi ≤ 1) :
    (∃ other ∈ headers, t.NmiApplies other (t.processorUid ics) ∧
        t.DescribesEntry other (t.lintRegister nmi) (t.nmiEntry nmi)) ↔
      ¬ (t.HasBusPolarity nmi ∧ t.IsLevelTriggered nmi) ∨
        ∃ other ∈ headers, t.NmiApplies other (t.processorUid ics) ∧
          t.nmiLint other = t.nmiLint nmi ∧ ¬ t.IsActiveLow other ∧ ¬ t.IsLevelTriggered other := by
  simp only [describesEntry_nmiEntry hlint]
  obtain ⟨hmem, happlies⟩ := keptNmi_some hkept
  by_cases hbad : t.HasBusPolarity nmi ∧ t.IsLevelTriggered nmi
  · have hlow := not_isActiveLow_of_bus hbad.1
    simp [hbad.1, hbad.2, hlow]
  · refine iff_of_true ⟨nmi, hmem, happlies, rfl, Iff.rfl, fun h => h.2, fun h => ⟨fun hb => ?_, h⟩⟩
      (.inl hbad)
    exact hbad ⟨hb, h⟩

/-- The pins of a local APIC are set up as the table says exactly if every local APIC can be
enabled, the NMI records name processors of the table, and the record that is kept names a pin and is
not level-triggered with bus-conforming polarity (or another record of the pin hides this). -/
theorem wiresNmi_iff {t : Madt} {headers : List Nat} {ics : Nat} (h : t.HasRecords headers)
    (hd : t.DistinctLapics headers) (hmem : ics ∈ headers) (hics : t.isLapic ics = true) :
    t.WiresNmi headers ics ↔
      (∀ header ∈ headers, t.isLapic header = true → t.isUsableLapic header = true) ∧
      t.NmisListed headers (headers.filter t.isLapic) ∧
      ∀ nmi, t.keptNmi headers (t.processorUid ics) = some nmi → t.nmiLint nmi ≤ 1 ∧
        (¬ (t.HasBusPolarity nmi ∧ t.IsLevelTriggered nmi) ∨
          ∃ other ∈ headers, t.NmiApplies other (t.processorUid ics) ∧
            t.nmiLint other = t.nmiLint nmi ∧ ¬ t.IsActiveLow other ∧ ¬ t.IsLevelTriggered other) := by
  have hmemf : ics ∈ headers.filter t.isLapic := List.mem_filter.2 ⟨hmem, hics⟩
  have hget := hd.getLapicFromId_eq hmemf fun ics => t.keptNmi headers (t.processorUid ics)
  rw [← countP_isLapic_eq_iff]
  constructor
  · intro hwires
    -- on registers that are all 0 the effect of the call shows what was written
    obtain ⟨lapicArray, s', hinit, hrun, hresult⟩ := hwires zeroLapic rfl
    obtain ⟨hcount, hlisted, rfl⟩ := (h.initLapicArray_ok_iff hd).1 hinit
    refine ⟨hcount, hlisted, fun nmi hkept => ?_⟩
    by_cases hlint : t.nmiLint nmi ≤ 1
    · refine ⟨hlint, (exists_described_iff hkept hlint).1 ?_⟩
      rw [run_setupLapicNmiLint_some hget hkept hlint rfl] at hrun
      obtain ⟨-, hs'⟩ := EStateM.Result.ok.inj hrun
      rcases hresult with ⟨-, hnone⟩ | ⟨other, hother, happlies, register, value, hdescribes, hwrite⟩
      · exact absurd (keptNmi_some hkept).2 (hnone nmi (keptNmi_some hkept).1)
      · have hregister : register ≠ interruptCommandLow := by
          rcases hdescribes.pin with ⟨-, rfl⟩ | ⟨-, rfl⟩ <;> decide
        obtain ⟨rfl, rfl⟩ := zeroLapic_write_inj (lintRegister_ne nmi) hregister (nmiEntry_ne_zero nmi)
          (hs'.trans hwrite)
        exact ⟨other, hother, happlies, hdescribes⟩
    · rw [run_setupLapicNmiLint_panics hget hkept hlint] at hrun
      cases hrun
  · rintro ⟨hcount, hlisted, hgood⟩ s hmapped
    have hinit := (h.initLapicArray_ok_iff hd).2 ⟨hcount, hlisted, rfl⟩
    cases hkept : t.keptNmi headers (t.processorUid ics) with
    | none =>
      exact ⟨_, s, hinit, run_setupLapicNmiLint_none hget hkept, .inl ⟨rfl, keptNmi_none hkept⟩⟩
    | some nmi =>
      obtain ⟨hlint, hdescribed⟩ := hgood nmi hkept
      obtain ⟨other, hother, happlies, hentry⟩ := (exists_described_iff hkept hlint).2 hdescribed
      exact ⟨_, _, hinit, run_setupLapicNmiLint_some hget hkept hlint hmapped,
        .inr ⟨other, hother, happlies, _, _, hentry, rfl⟩⟩

/-- A local APIC and an NMI record for all processors, on pin 1. -/
def nmiMadt (flags : BitVec 8) : Madt := ofRecords [0, 8, 0, 7, 1, 0, 0, 0, 4, 6, 0xff, flags, 0, 1]

theorem wiresNmi_edge : (nmiMadt 0).WiresNmi [44, 52] 44 := by
  have hrecords : (nmiMadt 0).HasRecords [44, 52] := ⟨⟨rfl, rfl, rfl⟩, by decide⟩
  refine (wiresNmi_iff hrecords ⟨by decide, by decide⟩ (by decide) (by decide)).2
    ⟨by decide, by unfold NmisListed; decide, fun nmi hnmi => ?_⟩
  have hkept : (nmiMadt 0).keptNmi [44, 52] ((nmiMadt 0).processorUid 44) = some 52 := by decide
  rw [hkept] at hnmi
  cases hnmi
  exact ⟨by decide, .inl (by decide)⟩

/-- A level-triggered record of bus-conforming polarity, the only one, is set up as an
edge-triggered one. -/
theorem exists_level_lost :
    (nmiMadt 0x0c).HasRecords [44, 52] ∧ (nmiMadt 0x0c).IsLevelTriggered 52 ∧
    ∃ lapicArray s', (nmiMadt 0x0c).initLapicArray = .ok lapicArray ∧
      ((nmiMadt 0x0c).setupLapicNmiLint lapicArray 7).run zeroLapic = .ok () s' ∧
      s'.registers lvtLint1 = 0x4ff ∧ (0x4ff).testBit 15 = false := by
  have hrun := eq_of_returned (a := ())
    (r := ((nmiMadt 0x0c).setupLapicNmiLint [(nmiMadt 0x0c).lapicWith (fun _ => some 52) 44] 7).run
      zeroLapic) (by decide)
  exact ⟨⟨⟨rfl, rfl, rfl⟩, by decide⟩, by decide, _, _, by decide, hrun, by decide, by decide⟩

end Madt

end GarbageOS
