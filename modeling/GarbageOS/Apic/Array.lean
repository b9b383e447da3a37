import GarbageOS.Apic.Madt
import GarbageOS.Lib.Trace
import Mathlib.Tactic.ByContra

/-!
# `apic.c`: the array of local APICs

`init_apic_subsystem` counts the local APICs of the MADT, allocates a zeroed array
of that many entries and fills it in a second walk over the table. The count
leaves out the processors that can not be enabled, the second walk does not.
-/

namespace GarbageOS

open Lib

/-- An entry of `lapic_array`; the pointers are offsets in the MADT. -/
structure LocalApic where
  apicId : Nat
  icsLapic : Option Nat
  icsLapicNmi : Option Nat
  enabled : Bool
  deriving DecidableEq

def LocalApic.zeroed : LocalApic := ⟨0, none, none, false⟩

namespace Madt

variable (t : Madt)

/-- `get_lapic_from_processor_uid`, from array entry `i` on. -/
def getLapicFromProcessorUid (uid : Nat) : List LocalApic → (i : Nat) → Except Stop (Option Nat)
  | [], _ => .ok none
  | lapic :: lapics, i =>
    match lapic.icsLapic with
    | none => .error (.panic .failedAssert)
    | some ics =>
      if t.processorUid ics = uid then .ok (some i) else getLapicFromProcessorUid uid lapics (i + 1)

/-- The array entry of a local APIC record. -/
def lapicOf (header : Nat) : LocalApic :=
  { LocalApic.zeroed with apicId := t.localApicId header, icsLapic := some header }

/-- Body of the first loop of `fill_apic_array`. -/
def storeLapic (header : Nat) (a : List LocalApic × Nat) :
    Except Stop (ForInStep (List LocalApic × Nat)) :=
  if t.icsType header = icsTypeProcessorLocalApic then
    if a.2 < a.1.length then
      .ok (.yield (a.1.modify a.2 fun lapic =>
        { lapic with apicId := t.localApicId header, icsLapic := some header }, a.2 + 1))
    else .error (.panic .failedAssert)
  else .ok (.yield a)

/-- The first loop of `fill_apic_array` and the check of the number of entries after it. -/
def fillApicIds (lapicArray : List LocalApic) : Except Stop (List LocalApic) := do
  let a ← t.forICS (lapicArray, 0) t.storeLapic
  if a.2 = a.1.length then .ok a.1 else .error (.panic .failedAssert)

/-- Body of the second loop; a record for all processors ends it. -/
def storeNmi (header : Nat) (lapicArray : List LocalApic) :
    Except Stop (ForInStep (List LocalApic)) :=
  if t.icsType header = icsTypeLocalApicNmi then
    if t.processorUid header = 0xff then
      .ok (.done (lapicArray.map fun lapic => { lapic with icsLapicNmi := some header }))
    else do
      match ← t.getLapicFromProcessorUid (t.processorUid header) lapicArray 0 with
      | none => .error (.panic .failedAssert)
      | some i =>
        .ok (.yield (lapicArray.modify i fun lapic => { lapic with icsLapicNmi := some header }))
  else .ok (.yield lapicArray)

def fillApicArray (lapicArray : List LocalApic) : Except Stop (List LocalApic) := do
  t.forICS (← t.fillApicIds lapicArray) t.storeNmi

/-- The part of `init_apic_subsystem` that builds the array. -/
def initLapicArray : Except Stop (List LocalApic) := do
  t.fillApicArray (List.replicate (← t.countNumberOfLocalApic) .zeroed)

/-! ## The first loop -/

def isLapic (header : Nat) : Bool := t.icsType header == icsTypeProcessorLocalApic

variable {t}

theorem fills_storeLapic (headers : List Nat) :
    Fills t.storeLapic t.isLapic t.lapicOf .zeroed (.panic .failedAssert) headers where
  store header _ hl done m := by
    simp only [isLapic, beq_iff_eq] at hl
    simp [storeLapic, hl, lapicOf, List.replicate_succ, modify_length_append]
  full header _ hl done := by
    simp only [isLapic, beq_iff_eq] at hl
    simp [storeLapic, hl]
  skip header _ hl a := by
    simp only [isLapic, beq_eq_false_iff_ne] at hl
    simp [storeLapic, hl]

/-- On a zeroed array with one entry per counted local APIC the first loop stores
every local APIC of the table, or fails because there are more of them than entries. -/
theorem HasRecords.fillApicIds_eq {headers : List Nat} (h : t.HasRecords headers) {n : Nat} :
    t.fillApicIds (List.replicate n .zeroed) =
      if headers.countP t.isLapic = n then .ok ((headers.filter t.isLapic).map t.lapicOf)
      else .error (.panic .failedAssert) := by
  rw [fillApicIds, h.forICS_eq]
  exact (fills_storeLapic headers).forIn_check n

/-! ## The second loop keeps what the first has stored -/

/-- The fields that the first loop stores. -/
def lapicKey (lapic : LocalApic) : Nat × Option Nat := (lapic.apicId, lapic.icsLapic)

theorem map_modify_nmi (lapicArray : List LocalApic) (i header : Nat) :
    (lapicArray.modify i fun lapic => { lapic with icsLapicNmi := some header }).map lapicKey =
      lapicArray.map lapicKey := by
  induction lapicArray generalizing i with
  | nil => cases i <;> rfl
  | cons x xs ih =>
    cases i with
    | zero => rfl
    | succ i => simp [ih]

theorem storeNmi_keys {header : Nat} {a : List LocalApic} {r : ForInStep (List LocalApic)}
    (h : t.storeNmi header a = .ok r) : r.value.map lapicKey = a.map lapicKey := by
  unfold storeNmi at h
  split at h
  · split at h
    · cases h
      simp [ForInStep.value, lapicKey, Function.comp_def]
    · cases hu : t.getLapicFromProcessorUid (t.processorUid header) a 0 with
      | error e => rw [hu] at h; cases h
      | ok i =>
        rw [hu] at h
        cases i with
        | none => cases h
        | some i => cases h; exact map_modify_nmi a i header
  · cases h; rfl

theorem forIn_storeNmi_keys {headers : List Nat} {a b : List LocalApic}
    (h : forIn headers a t.storeNmi = Except.ok b) : b.map lapicKey = a.map lapicKey := by
  induction headers generalizing a with
  | nil => cases h; rfl
  | cons header rest ih =>
    rw [List.forIn_cons] at h
    cases hs : t.storeNmi header a with
    | error e => rw [hs] at h; cases h
    | ok r =>
      rw [hs] at h
      have hkey := storeNmi_keys hs
      cases r with
      | done c => cases h; exact hkey
      | yield c => exact (ih h).trans hkey

/-! ## The two passes -/

/-- The count and fill passes agree: the first loop of `fill_apic_array` meets both
of its size assertions and leaves the counted local APICs in table order, one in
each entry, and so does the whole initialization whenever it returns. -/
def PassesAgree (t : Madt) (headers : List Nat) : Prop :=
  ∃ n, t.countNumberOfLocalApic = .ok n ∧
    t.fillApicIds (List.replicate n .zeroed) = .ok ((headers.filter t.isUsableLapic).map t.lapicOf) ∧
    (headers.filter t.isUsableLapic).length = n ∧
    ∀ lapicArray, t.initLapicArray = .ok lapicArray →
      lapicArray.map lapicKey = (headers.filter t.isUsableLapic).map (lapicKey ∘ t.lapicOf)

theorem countP_isUsableLapic_le (headers : List Nat) :
    headers.countP t.isUsableLapic ≤ headers.countP t.isLapic :=
  List.countP_mono_left fun _ _ h => (Bool.and_eq_true_iff.1 h).1

theorem countP_isLapic_eq_iff {headers : List Nat} :
    headers.countP t.isLapic = headers.countP t.isUsableLapic ↔
      ∀ header ∈ headers, t.isLapic header = true → t.isUsableLapic header = true := by
  constructor
  · intro hlen header hmem hl
    by_contra hu
    -- the disabled one makes the first number larger
    obtain ⟨before, after, rfl⟩ := List.append_of_mem hmem
    have hb := countP_isUsableLapic_le (t := t) before
    have ha := countP_isUsableLapic_le (t := t) after
    rw [List.countP_append, List.countP_append, List.countP_cons_of_neg hu,
      List.countP_cons_of_pos hl] at hlen
    omega
  · intro h
    refine List.countP_congr fun header hmem => ⟨h header hmem, fun hu => ?_⟩
    exact (Bool.and_eq_true_iff.1 hu).1

/-- The passes agree exactly when every local APIC of the table is enabled or can be. -/
theorem passesAgree_iff {t : Madt} {headers : List Nat} (h : t.HasRecords headers) :
    PassesAgree t headers ↔ ∀ header ∈ headers, t.icsType header = icsTypeProcessorLocalApic →
      t.localApicFlags header &&& (localApicFlagEnabled ||| localApicFlagOnlineCapable) ≠ 0 := by
  have husable : headers.countP t.isLapic = headers.countP t.isUsableLapic ↔
      ∀ header ∈ headers, t.icsType header = icsTypeProcessorLocalApic →
        t.localApicFlags header &&& (localApicFlagEnabled ||| localApicFlagOnlineCapable) ≠ 0 := by
    rw [countP_isLapic_eq_iff]
    refine forall₂_congr fun header _ => ?_
    simp only [isLapic, isUsableLapic, beq_iff_eq, Bool.and_eq_true, bne_iff_ne, ne_eq]
    exact ⟨fun himp htype => (himp htype).2, fun himp htype => ⟨htype, himp htype⟩⟩
  rw [← husable]
  constructor
  · rintro ⟨n, hcount, hfill, hn, -⟩
    rw [h.fillApicIds_eq] at hfill
    split at hfill
    · next hall => rw [hall, List.countP_eq_length_filter, hn]
    · cases hfill
  · intro hcount
    have heq : headers.filter t.isLapic = headers.filter t.isUsableLapic := by
      refine List.filter_congr fun header hmem => Bool.eq_iff_iff.2 ⟨?_, fun hu => ?_⟩
      · exact countP_isLapic_eq_iff.1 hcount header hmem
      · exact (Bool.and_eq_true_iff.1 hu).1
    have hfill : t.fillApicIds (List.replicate (headers.countP t.isUsableLapic) .zeroed) =
        .ok ((headers.filter t.isUsableLapic).map t.lapicOf) := by
      rw [h.fillApicIds_eq, if_pos hcount, heq]
    refine ⟨_, h.countNumberOfLocalApic_eq, hfill, List.countP_eq_length_filter.symm, ?_⟩
    intro lapicArray hinit
    rw [initLapicArray, h.countNumberOfLocalApic_eq, ok_bind, fillApicArray, hfill, ok_bind,
      h.forICS_eq] at hinit
    rw [forIn_storeNmi_keys hinit, List.map_map]

/-- A table with the given records (fewer than 212 bytes of them). -/
def ofRecords (records : List (BitVec 8)) : Madt := fun off =>
  if off < size then (if off = 4 then BitVec.ofNat 8 (size + records.length) else 0)
  else records.getD (off - size) 0

/-- An enabled local APIC, one that can be enabled and an NMI record for all. -/
def usableMadt : Madt :=
  ofRecords [0, 8, 0, 7, 1, 0, 0, 0, 0, 8, 1, 9, 2, 0, 0, 0, 4, 6, 0xff, 0, 0, 1]

theorem passesAgree_usableMadt :
    usableMadt.HasRecords [44, 52, 60] ∧ PassesAgree usableMadt [44, 52, 60] := by
  have h : usableMadt.HasRecords [44, 52, 60] :=
    ⟨⟨rfl, rfl, rfl, rfl⟩, by decide⟩
  exact ⟨h, (passesAgree_iff h).2 (by decide)⟩

/-- An enabled local APIC followed by a disabled one. -/
def disabledMadt : Madt := ofRecords [0, 8, 0, 7, 1, 0, 0, 0, 0, 8, 1, 9, 0, 0, 0, 0]

/-- With a disabled processor in the table the second pass runs out of entries and panics. -/
theorem exists_passes_disagree : ∃ t headers, HasRecords t headers ∧ ¬ PassesAgree t headers ∧
    t.initLapicArray = .error (.panic .failedAssert) := by
  refine ⟨disabledMadt, [44, 52], ⟨⟨rfl, rfl, rfl⟩, by decide⟩, ?_, by decide⟩
  rintro ⟨n, hcount, hfill, -⟩
  have hn : disabledMadt.countNumberOfLocalApic = .ok 1 := by decide
  obtain rfl : 1 = n := by rw [hn] at hcount; exact Except.ok.inj hcount
  have hpanic : disabledMadt.fillApicIds (List.replicate 1 .zeroed) =
      .error (.panic .failedAssert) := by decide
  rw [hpanic] at hfill
  cases hfill

end Madt

end GarbageOS
