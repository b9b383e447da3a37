import GarbageOS.Apic.IoApic

/-!
# Where an ISA interrupt is routed to

What the MADT asks for (the override that names an interrupt, the I/O APIC that serves it, the
polarity and the trigger mode) against what `setIOAPICInterruptRedirection` writes.
-/

namespace GarbageOS

open Lib

namespace IOAPICInterruptRedirection

variable (redirection : IOAPICInterruptRedirection)

/-- The values that `ioapic.h` names for the fields. -/
structure Valid : Prop where
  vector : redirection.vector < 2 ^ 8
  apicId : redirection.apicIdToRedirect < 2 ^ 8
  polarity : redirection.polarity ≤ 1
  triggerMode : redirection.triggerMode ≤ 1

def packed : Nat :=
  redirection.vector + redirection.reidirectToLowestPriority.toNat * 2 ^ 8 +
    redirection.polarity * 2 ^ 13 + redirection.triggerMode * 2 ^ 15 + redirection.mask.toNat * 2 ^ 16 +
    (if redirection.reidirectToLowestPriority then 0 else redirection.apicIdToRedirect) * 2 ^ 56

variable {redirection}

theorem Valid.packed_lt (h : redirection.Valid) : redirection.packed < 2 ^ 64 := by
  obtain ⟨h1, h2, h3, h4⟩ := h
  have := redirection.mask.toNat_le
  have := redirection.reidirectToLowestPriority.toNat_le
  unfold packed
  split <;> omega

theorem or_fields {v d p g m a : Nat} (hv : v < 2 ^ 8) (hd : d ≤ 1) (hp : p ≤ 1) (hg : g ≤ 1) (hm : m ≤ 1) :
    v ||| d <<< 8 ||| a <<< 56 ||| p <<< 13 ||| g <<< 15 ||| m <<< 16 =
      v + d * 2 ^ 8 + p * 2 ^ 13 + g * 2 ^ 15 + m * 2 ^ 16 + a * 2 ^ 56 := by
  have hsort : ∀ b₀ b₈ b₅₆ b₁₃ b₁₅ b₁₆ : Nat, b₀ ||| b₈ ||| b₅₆ ||| b₁₃ ||| b₁₅ ||| b₁₆ =
      b₅₆ ||| b₁₆ ||| b₁₅ ||| b₁₃ ||| b₈ ||| b₀ := by
    intros
    ac_rfl
  rw [hsort]
  simp only [Nat.shiftLeft_eq]
  rw [or_eq_add (k := 17) (a := a * 2 ^ 56) (b := m * 2 ^ 16) (by omega) (by omega),
    or_eq_add (k := 16) (b := g * 2 ^ 15) (a := a * 2 ^ 56 + m * 2 ^ 16) (by omega) (by omega),
    or_eq_add (k := 14) (b := p * 2 ^ 13) (a := a * 2 ^ 56 + m * 2 ^ 16 + g * 2 ^ 15)
      (by omega) (by omega),
    or_eq_add (k := 9) (b := d * 2 ^ 8) (a := a * 2 ^ 56 + m * 2 ^ 16 + g * 2 ^ 15 + p * 2 ^ 13)
      (by omega) (by omega), or_eq_add (k := 8) (b := v) (by omega) (by omega)]
  omega

theorem Valid.entry_eq (h : redirection.Valid) :
    redirection.entry =
      if redirection.reidirectToLowestPriority = true ∨ redirection.apicIdToRedirect < 2 ^ 4 then
        .ok redirection.packed
      else .error (.panic .failedAssert) := by
  have hmask := redirection.mask.toNat_le
  unfold entry packed
  cases hl : redirection.reidirectToLowestPriority with
  | true =>
    have hbits := or_fields (d := 1) (a := 0) h.vector (by omega) h.polarity h.triggerMode hmask
    simp only [if_pos, true_or, Bool.toNat_true]
    rw [← hbits]
    simp [DeliveryMode.code]
  | false =>
    have hbits := or_fields (d := 0) (a := redirection.apicIdToRedirect) h.vector (by omega)
      h.polarity h.triggerMode hmask
    have hid : redirection.apicIdToRedirect &&& 0x0f = redirection.apicIdToRedirect ↔
        redirection.apicIdToRedirect < 2 ^ 4 := by
      rw [show (0x0f : Nat) = 2 ^ 4 - 1 by decide, Nat.and_two_pow_sub_one_eq_mod]
      omega
    simp only [Bool.false_eq_true, if_false, false_or, Bool.toNat_false, hid]
    rw [← hbits]
    simp [DeliveryMode.code]

end IOAPICInterruptRedirection

namespace Madt

/-! ## What the table asks for -/

section

variable (t : Madt) (headers : List Nat) (hw : IoapicHardware)

def isIoapic (header : Nat) : Bool := t.icsType header == icsTypeProcessorIoApic

def isOverride (header : Nat) : Bool := t.icsType header == icsTypeInterruptSourceOverride

/-- The fields of the overrides have legal values; the only bus is ISA. -/
structure LegalOverrides : Prop where
  bus : ∀ header ∈ headers, t.isOverride header = true → t.overrideBus header = 0
  polarity : ∀ header ∈ headers, t.isOverride header = true →
    t.overrideFlags header &&& mpsIntiPolarityMask ≠ mpsIntiPolarityReserved
  triggerMode : ∀ header ∈ headers, t.isOverride header = true →
    t.overrideFlags header &&& mpsIntiTriggerModeMask ≠ mpsIntiTriggerModeReserved

/-- The number of lines of an I/O APIC: its version register has the number of the last one. -/
def linesOf (header : Nat) : Nat :=
  (hw.register (t.ioApicAddress header) ioapicverOffset >>> 16 &&& 0xff) + 1

/-- The interrupts of an I/O APIC. -/
def ServesInterrupt (header gsi : Nat) : Prop :=
  t.globalSystemInterruptBase header ≤ gsi ∧
    gsi < t.globalSystemInterruptBase header + t.linesOf hw header

instance (header gsi : Nat) : Decidable (t.ServesInterrupt hw header gsi) :=
  inferInstanceAs (Decidable (_ ∧ _))

def overrideFor (irq : Nat) : Option Nat :=
  (headers.filter t.isOverride).find? fun header => t.overrideSource header == irq

def globalInterrupt (irq : Nat) : Nat :=
  match t.overrideFor headers irq with
  | none => irq
  | some header => t.overrideInterrupt header

def polarityOf (flags requested : Nat) : Nat :=
  if flags &&& mpsIntiPolarityMask = mpsIntiPolarityBusConform then requested
  else (flags &&& mpsIntiPolarityMask == mpsIntiPolarityActiveLow).toNat

def triggerModeOf (flags requested : Nat) : Nat :=
  if flags &&& mpsIntiTriggerModeMask = mpsIntiTriggerModeBusConform then requested
  else (flags &&& mpsIntiTriggerModeMask == mpsIntiTriggerModeLevelTriggered).toNat

/-- The request with what the override of its interrupt changes. -/
def overridden (redirection : IOAPICInterruptRedirection) (irq : Nat) : IOAPICInterruptRedirection :=
  match t.overrideFor headers irq with
  | none => redirection
  | some header =>
    { redirection with
      polarity := polarityOf (t.overrideFlags header) redirection.polarity
      triggerMode := triggerModeOf (t.overrideFlags header) redirection.triggerMode }

end

variable {t : Madt} {headers : List Nat} {hw : IoapicHardware}
  {ioapics : List Nat} {header gsi : Nat}

/-! ## Initialization -/

theorem HasRecords.countICSHeaderInstances_eq (h : t.HasRecords headers) (type : Nat) :
    (Read.countICSHeaderInstances t type t.length).result =
      .ok (headers.countP fun header => t.icsType header == type) := by
  have hcount := @forIn_count Nat Stop (fun header => t.icsType header == type) headers
  simp only [beq_iff_eq] at hcount
  rw [Read.countICSHeaderInstances, Read.forICS_result, h.forICS_eq]
  simp only [Read.countInstance_result]
  rw [hcount]

theorem bind_kassert_result {α : Type} (x : ReadM (List α × Nat)) :
    (do let a ← x; Read.kassert (a.2 = a.1.length); return a.1 : ReadM (List α)).result =
      (x.result >>= fun a => if a.2 = a.1.length then .ok a.1 else .error (.panic .failedAssert)) := by
  rw [Traced.bind_result]
  refine bind_congr fun a => ?_
  rw [Read.kassert_bind]
  simp only [decide_eq_true_eq]
  split <;> rfl

def ioapicEntry (t : Madt) (header : Nat) : IoApic := ⟨some header, t.ioApicAddress header⟩

theorem storeIoapic_result (header : Nat) (a : List IoApic × Nat) :
    (Read.storeIoapic t header a).result =
      if t.isIoapic header then
        if a.2 < a.1.length then .ok (.yield (a.1.set a.2 (t.ioapicEntry header), a.2 + 1))
        else .error (.panic .failedAssert)
      else .ok (.yield a) := by
  unfold Read.storeIoapic isIoapic icsType
  simp only [Read.read8, Traced.event_bind, Read.kassert_bind, decide_eq_true_eq, beq_iff_eq]
  split
  · split <;> rfl
  · rfl

theorem storeOverride_result (header : Nat) (a : List (Option Nat) × Nat) :
    (Read.storeOverride t header a).result =
      if t.isOverride header then
        if a.2 < a.1.length then
          if t.overrideBus header = 0 then .ok (.yield (a.1.set a.2 (some header), a.2 + 1))
          else .error (.panic .failedAssert)
        else .error (.panic .failedAssert)
      else .ok (.yield a) := by
  unfold Read.storeOverride isOverride icsType overrideBus
  simp only [Read.read8, Traced.event_bind, Read.kassert_bind, decide_eq_true_eq, beq_iff_eq]
  split
  · split
    · split <;> rfl
    · rfl
  · rfl

theorem fills_storeIoapic (headers : List Nat) :
    Fills (fun header a => (Read.storeIoapic t header a).result) t.isIoapic t.ioapicEntry ⟨none, 0⟩
      (.panic .failedAssert) headers where
  store header _ hl done m := by
    simp [storeIoapic_result, hl, List.replicate_succ]
  full header _ hl done := by simp [storeIoapic_result, hl]
  skip header _ hl a := by simp [storeIoapic_result, hl]

theorem LegalOverrides.fills_storeOverride (h : t.LegalOverrides headers) :
    Fills (fun header a => (Read.storeOverride t header a).result) t.isOverride some none
      (.panic .failedAssert) headers where
  store header hmem hl done m := by
    simp [storeOverride_result, hl, h.bus header hmem hl, List.replicate_succ]
  full header _ hl done := by simp [storeOverride_result, hl]
  skip header _ hl a := by simp [storeOverride_result, hl]

theorem HasRecords.fillIoapicArray_eq (h : t.HasRecords headers) :
    (Read.fillIoapicArray t (List.replicate (headers.countP t.isIoapic) ⟨none, 0⟩) t.length).result =
      .ok ((headers.filter t.isIoapic).map t.ioapicEntry) := by
  rw [Read.fillIoapicArray, bind_kassert_result, Read.forICS_result, h.forICS_eq,
    (fills_storeIoapic headers).forIn_check, if_pos rfl]

theorem HasRecords.fillSourceOverrideArray_eq (h : t.HasRecords headers) (ho : t.LegalOverrides headers) :
    (Read.fillSourceOverrideArray t (List.replicate (headers.countP t.isOverride) none)
      t.length).result = .ok ((headers.filter t.isOverride).map some) := by
  unfold Read.fillSourceOverrideArray
  rw [List.length_replicate]
  split
  · next hzero =>
    rw [List.countP_eq_zero] at hzero
    rw [List.filter_eq_nil_iff.2 hzero, List.countP_eq_zero.2 hzero]
    rfl
  · rw [bind_kassert_result, Read.forICS_result, h.forICS_eq, ho.fills_storeOverride.forIn_check,
      if_pos rfl]

/-- An I/O APIC of the table after its registers were read. -/
def ioapicOf (t : Madt) (hw : IoapicHardware) (header : Nat) : IOAPIC where
  toIoApic := t.ioapicEntry header
  ioapicId := hw.register (t.ioApicAddress header) ioapicidOffset >>> 24 &&& 0x0f
  version := hw.register (t.ioApicAddress header) ioapicverOffset &&& 0xff
  maximumRedirectionEntry := t.linesOf hw header % 2 ^ 8

theorem initAllIoapics_eq (hmap : ∀ header ∈ ioapics, hw.mappable (t.ioApicAddress header) = true) :
    initAllIoapics hw (ioapics.map fun header => ⟨t.ioapicEntry header, 0, 0, 0⟩) =
      (true, ioapics.map (t.ioapicOf hw)) := by
  induction ioapics with
  | nil => rfl
  | cons header rest ih =>
    have hone : initSingleIoapic hw ⟨t.ioapicEntry header, 0, 0, 0⟩ = some (t.ioapicOf hw header) :=
      if_pos (hmap header List.mem_cons_self)
    rw [List.map_cons, initAllIoapics, hone, ih fun x hx => hmap x (List.mem_cons_of_mem _ hx)]
    rfl

/-- `ioapic_gdata` before and after `init_ioapics`. -/
def ioapicStatic : IOAPICSubsystemData := ⟨[], none⟩

def ioapicData (t : Madt) (headers : List Nat) (hw : IoapicHardware) : IOAPICSubsystemData where
  ioapicArray := (headers.filter t.isIoapic).map (t.ioapicOf hw)
  sourceOverrideArray :=
    if headers.filter t.isOverride = [] then none else some ((headers.filter t.isOverride).map some)

theorem HasRecords.initIoapics_eq (h : t.HasRecords headers) (ho : t.LegalOverrides headers)
    (hsome : headers.filter t.isIoapic ≠ [])
    (hmap : ∀ header ∈ headers, t.isIoapic header = true →
      hw.mappable (t.ioApicAddress header) = true) :
    initIoapics hw (some t) ioapicStatic = .ok (true, t.ioapicData headers hw) := by
  have hpos : headers.countP t.isIoapic ≠ 0 := by
    rw [List.countP_eq_length_filter]
    exact fun hz => hsome (List.length_eq_zero_iff.1 hz)
  have hall := @initAllIoapics_eq t hw (headers.filter t.isIoapic)
    fun header hmem => hmap header (List.mem_filter.1 hmem).1 (List.mem_filter.1 hmem).2
  have hioapics : (Read.countICSHeaderInstances t icsTypeProcessorIoApic t.length).result =
      .ok (headers.countP t.isIoapic) := h.countICSHeaderInstances_eq _
  have hoverrides : (Read.countICSHeaderInstances t icsTypeInterruptSourceOverride t.length).result =
      .ok (headers.countP t.isOverride) := h.countICSHeaderInstances_eq _
  have hnone : headers.countP t.isOverride ≠ 0 ↔ ¬ headers.filter t.isOverride = [] := by
    rw [List.countP_eq_length_filter, ne_eq, List.length_eq_zero_iff]
  unfold initIoapics
  dsimp only
  rw [hioapics, ok_bind, if_neg hpos, hoverrides, ok_bind, h.fillIoapicArray_eq, ok_bind,
    h.fillSourceOverrideArray_eq ho, ok_bind, List.map_map]
  simp only [Function.comp_def, hall, hnone, ite_not]
  rfl

/-! ## The lookups -/

theorem LegalOverrides.isaFixOf_eq (ho : t.LegalOverrides headers) {header : Nat}
    (hmem : header ∈ headers) (hl : t.isOverride header = true) :
    ∃ polarity triggerMode, t.isaFixOf header =
      .ok ⟨true, false, false, t.overrideInterrupt header, polarity, triggerMode⟩ := by
  have hpolarity := ho.polarity header hmem hl
  have htrigger := ho.triggerMode header hmem hl
  unfold isaFixOf
  simp only [hpolarity, htrigger, if_false, ok_bind]
  split <;> split <;> exact ⟨_, _, rfl⟩

theorem findIsaFix_eq (irq : Nat) (overrides : List Nat) :
    t.findIsaFix irq (overrides.map some) =
      match overrides.find? fun header => t.overrideSource header == irq with
      | none => .ok .none
      | some header => t.isaFixOf header := by
  induction overrides with
  | nil => rfl
  | cons header rest ih =>
    rw [List.map_cons, findIsaFix, List.find?_cons]
    by_cases hsource : t.overrideSource header = irq
    · rw [if_pos hsource, show (t.overrideSource header == irq) = true from beq_iff_eq.2 hsource]
    · rw [if_neg hsource, show (t.overrideSource header == irq) = false from beq_eq_false_iff_ne.2 hsource,
        ih]

/-- With an override in the table, the lookup gives the interrupt, and leaves the rest to the request. -/
theorem LegalOverrides.getIsaFix_eq (ho : t.LegalOverrides headers)
    (hsome : headers.filter t.isOverride ≠ []) (irq : Nat) :
    ∃ fix, t.getIsaFix (t.ioapicData headers hw) irq = .ok fix ∧
      (if fix.irqOverride then fix.irq else irq) = t.globalInterrupt headers irq ∧
      fix.polarityOverride = false ∧ fix.triggerOverride = false := by
  have hget : t.getIsaFix (t.ioapicData headers hw) irq =
      t.findIsaFix irq ((headers.filter t.isOverride).map some) := by
    unfold getIsaFix ioapicData
    rw [if_neg hsome]
  rw [hget, findIsaFix_eq]
  unfold globalInterrupt overrideFor
  cases hfind : (headers.filter t.isOverride).find? fun header => t.overrideSource header == irq with
  | none => exact ⟨_, rfl, rfl, rfl, rfl⟩
  | some header =>
    obtain ⟨hmem, hl⟩ := List.mem_filter.1 (List.mem_of_find?_eq_some hfind)
    obtain ⟨polarity, triggerMode, hfix⟩ := ho.isaFixOf_eq hmem hl
    exact ⟨_, hfix, rfl, rfl, rfl⟩

theorem getIsaFix_of_no_override (hnone : headers.filter t.isOverride = []) (irq : Nat) :
    t.getIsaFix (t.ioapicData headers hw) irq = .error (.panic .failedAssert) := by
  unfold getIsaFix ioapicData
  rw [if_pos hnone]

theorem linesOf_le (header : Nat) : t.linesOf hw header ≤ 2 ^ 8 := by
  have := Nat.and_le_right (n := hw.register (t.ioApicAddress header) ioapicverOffset >>> 16) (m := 0xff)
  unfold linesOf
  omega

theorem findIoapic_cons (gsi first : Nat) (rest : List Nat) :
    t.findIoapic gsi ((first :: rest).map (t.ioapicOf hw)) =
      if gsi ≥ t.globalSystemInterruptBase first ∧
          gsi < t.globalSystemInterruptBase first + t.linesOf hw first % 2 ^ 8 then
        .ok (t.ioapicOf hw first, t.globalSystemInterruptBase first)
      else t.findIoapic gsi (rest.map (t.ioapicOf hw)) := rfl

/-- The search finds the I/O APIC that serves the interrupt; 256 lines are taken for none. -/
theorem findIoapic_eq (hserves : t.ServesInterrupt hw header gsi)
    (hunique : ∀ other ∈ ioapics, t.ServesInterrupt hw other gsi → other = header) :
    t.findIoapic gsi (ioapics.map (t.ioapicOf hw)) =
      if header ∈ ioapics ∧ t.linesOf hw header < 2 ^ 8 then
        .ok (t.ioapicOf hw header, t.globalSystemInterruptBase header)
      else .error (.panic .failedAssert) := by
  induction ioapics with
  | nil => rfl
  | cons first rest ih =>
    have hle : t.linesOf hw first ≤ 2 ^ 8 := linesOf_le first
    rw [findIoapic_cons]
    split
    · next hfirst =>
      obtain rfl := hunique first List.mem_cons_self ⟨hfirst.1, by omega⟩
      rw [if_pos ⟨List.mem_cons_self, by omega⟩]
    · next hfirst =>
      rw [ih fun other ho => hunique other (List.mem_cons_of_mem _ ho)]
      refine if_congr (and_congr_left fun hlt => ?_) rfl rfl
      refine ⟨List.mem_cons_of_mem _, fun hmem => (List.mem_cons.1 hmem).resolve_left ?_⟩
      rintro rfl
      exact hfirst (by rw [Nat.mod_eq_of_lt hlt]; exact hserves)

/-! ## The writes -/

def entryWrites (t : Madt) (header gsi entry : Nat) : List IoapicWrite :=
  let offset := ioredtblOffsetStart + (gsi - t.globalSystemInterruptBase header) * 2
  [⟨t.ioApicAddress header, offset, entry % 2 ^ 32⟩,
    ⟨t.ioApicAddress header, offset + 1, entry / 2 ^ 32⟩]

theorem write64IoapicRegister_eq_iff {entry wanted : Nat} (he : entry < 2 ^ 64)
    (hw' : wanted < 2 ^ 64) :
    write64IoapicRegister (t.ioapicOf hw header)
        (ioredtblOffsetStart + (gsi - t.globalSystemInterruptBase header) * 2) entry =
      t.entryWrites header gsi wanted ↔
        gsi - t.globalSystemInterruptBase header < 120 ∧ entry = wanted := by
  have hbase : (t.ioapicOf hw header).physicalBaseAddress = t.ioApicAddress header := rfl
  unfold write64IoapicRegister entryWrites
  simp only [hbase, ioredtblOffsetStart, List.cons.injEq, IoapicWrite.mk.injEq, true_and, and_true]
  omega

/-- The table is followed: both functions return, and exactly the entry of the line is written, at
the I/O APIC that serves the interrupt, with the fields of the request and of the override. -/
def RoutesInterrupt (t : Madt) (headers : List Nat) (hw : IoapicHardware) (header : Nat)
    (redirection : IOAPICInterruptRedirection) (irq : Nat) : Prop :=
  ∃ data, initIoapics hw (some t) ioapicStatic = .ok (true, data) ∧
    t.setIOAPICInterruptRedirection data redirection irq =
      .ok (t.entryWrites header (t.globalInterrupt headers irq)
        (t.overridden headers redirection irq).packed)

theorem LegalOverrides.setIOAPICInterruptRedirection_eq (ho : t.LegalOverrides headers)
    (hsome : headers.filter t.isOverride ≠ []) (redirection : IOAPICInterruptRedirection) (irq : Nat) :
    t.setIOAPICInterruptRedirection (t.ioapicData headers hw) redirection irq = (do
      let entry ← redirection.entry
      let (ioapic, base) ← t.findIoapic (t.globalInterrupt headers irq)
        ((headers.filter t.isIoapic).map (t.ioapicOf hw))
      return write64IoapicRegister ioapic
        (ioredtblOffsetStart + (t.globalInterrupt headers irq - base) * 2) entry) := by
  obtain ⟨fix, hfix, hirq, hpolarity, htrigger⟩ := @LegalOverrides.getIsaFix_eq t headers hw ho hsome
    irq
  unfold setIOAPICInterruptRedirection
  rw [hfix, ok_bind]
  simp only [hirq, hpolarity, htrigger, Bool.false_eq_true, if_false]
  rfl

theorem ite_toNat_le {p : Prop} [Decidable p] {n : Nat} (h : n ≤ 1) (b : Bool) :
    (if p then n else b.toNat) ≤ 1 := by
  split
  · exact h
  · exact b.toNat_le

theorem overridden_valid {redirection : IOAPICInterruptRedirection} (h : redirection.Valid) (irq : Nat) :
    (t.overridden headers redirection irq).Valid := by
  unfold overridden
  split
  · exact h
  · exact ⟨h.vector, h.apicId, ite_toNat_le h.polarity _, ite_toNat_le h.triggerMode _⟩

/-- An override that does not change what was asked for. -/
def OverrideAgrees (t : Madt) (redirection : IOAPICInterruptRedirection) (header : Nat) : Prop :=
  polarityOf (t.overrideFlags header) redirection.polarity = redirection.polarity ∧
    triggerModeOf (t.overrideFlags header) redirection.triggerMode = redirection.triggerMode

theorem packed_overridden_iff {redirection : IOAPICInterruptRedirection} (h : redirection.Valid)
    (irq : Nat) :
    redirection.packed = (t.overridden headers redirection irq).packed ↔
      ∀ header, t.overrideFor headers irq = some header → t.OverrideAgrees redirection header := by
  have hvalid : (t.overridden headers redirection irq).Valid := overridden_valid h irq
  unfold overridden at hvalid ⊢
  cases hfor : t.overrideFor headers irq with
  | none => simp
  | some header =>
    simp only [hfor] at hvalid ⊢
    have h1 := h.polarity
    have h2 := h.triggerMode
    have h3 := hvalid.polarity
    have h4 := hvalid.triggerMode
    simp only [Option.some.injEq, forall_eq', OverrideAgrees, IOAPICInterruptRedirection.packed] at h3 h4 ⊢
    omega

/-- An interrupt is routed as the table says exactly if there is an override, the destination has
four bits, the override of the interrupt agrees with the request, and the line has registers. -/
theorem routesInterrupt_iff {t : Madt} {headers : List Nat} {hw : IoapicHardware} {header irq : Nat}
    {redirection : IOAPICInterruptRedirection} (h : t.HasRecords headers)
    (ho : t.LegalOverrides headers)
    (hmap : ∀ header ∈ headers, t.isIoapic header = true →
      hw.mappable (t.ioApicAddress header) = true)
    (hdisjoint : ∀ a ∈ headers, ∀ b ∈ headers, t.isIoapic a = true → t.isIoapic b = true → ∀ gsi,
      t.ServesInterrupt hw a gsi → t.ServesInterrupt hw b gsi → a = b)
    (hvalid : redirection.Valid) (hmem : header ∈ headers) (hioapic : t.isIoapic header = true)
    (hserves : t.ServesInterrupt hw header (t.globalInterrupt headers irq)) :
    t.RoutesInterrupt headers hw header redirection irq ↔
      (∃ o ∈ headers, t.isOverride o = true) ∧
      (redirection.reidirectToLowestPriority = true ∨ redirection.apicIdToRedirect < 2 ^ 4) ∧
      (∀ o, t.overrideFor headers irq = some o → t.OverrideAgrees redirection o) ∧
      t.linesOf hw header < 2 ^ 8 ∧
      t.globalInterrupt headers irq - t.globalSystemInterruptBase header < 120 := by
  have hmemf : header ∈ headers.filter t.isIoapic := List.mem_filter.2 ⟨hmem, hioapic⟩
  have hinit := h.initIoapics_eq ho (List.ne_nil_of_mem hmemf) hmap
  have hunique : ∀ other ∈ headers.filter t.isIoapic,
      t.ServesInterrupt hw other (t.globalInterrupt headers irq) → other = header := by
    intro other hother hs
    obtain ⟨hin, hl⟩ := List.mem_filter.1 hother
    exact hdisjoint other hin header hmem hl hioapic _ hs hserves
  have hroutes : t.RoutesInterrupt headers hw header redirection irq ↔
      t.setIOAPICInterruptRedirection (t.ioapicData headers hw) redirection irq =
        .ok (t.entryWrites header (t.globalInterrupt headers irq)
          (t.overridden headers redirection irq).packed) := by
    refine ⟨fun hr => ?_, fun hset => ⟨_, hinit, hset⟩⟩
    obtain ⟨data, hdata, hset⟩ := hr
    rw [hinit] at hdata
    cases hdata
    exact hset
  rw [hroutes]
  by_cases hover : headers.filter t.isOverride = []
  · -- the assertion of `get_isa_fix` fails
    unfold setIOAPICInterruptRedirection
    rw [getIsaFix_of_no_override hover]
    refine iff_of_false (fun he => ?_) fun hcond => ?_
    · cases he
    · obtain ⟨o, ho, hl⟩ := hcond.1
      exact List.filter_eq_nil_iff.1 hover o ho hl
  have hexists : ∃ o ∈ headers, t.isOverride o = true := by
    obtain ⟨o, hmem⟩ := List.exists_mem_of_ne_nil _ hover
    exact ⟨o, List.mem_filter.1 hmem⟩
  rw [ho.setIOAPICInterruptRedirection_eq hover, hvalid.entry_eq]
  by_cases hdest : redirection.reidirectToLowestPriority = true ∨ redirection.apicIdToRedirect < 2 ^ 4
  · rw [if_pos hdest, ok_bind, findIoapic_eq hserves hunique]
    by_cases hlines : t.linesOf hw header < 2 ^ 8
    · rw [if_pos ⟨hmemf, hlines⟩, ok_bind]
      show Except.ok _ = Except.ok _ ↔ _
      rw [Except.ok.injEq, write64IoapicRegister_eq_iff hvalid.packed_lt
        (overridden_valid hvalid irq).packed_lt, packed_overridden_iff hvalid]
      exact ⟨fun ⟨hline, hagrees⟩ => ⟨hexists, hdest, hagrees, hlines, hline⟩,
        fun ⟨_, _, hagrees, _, hline⟩ => ⟨hline, hagrees⟩⟩
    · rw [if_neg fun h => hlines h.2]
      refine iff_of_false (fun he => ?_) fun hcond => hlines hcond.2.2.2.1
      cases he
  · rw [if_neg hdest]
    refine iff_of_false (fun he => ?_) fun hcond => hdest hcond.2.1
    cases he

def twentyFourLines : IoapicHardware := ⟨fun _ offset => if offset = ioapicverOffset then 0x170020 else 0,
  fun _ => true⟩

def overriddenMadt (flags : BitVec 8) : Madt :=
  ofRecords [1, 12, 0, 0, 0, 0, 0xc0, 0xfe, 0, 0, 0, 0, 2, 10, 0, 0, 2, 0, 0, 0, flags, 0]

def edgeRequest : IOAPICInterruptRedirection := ⟨false, 1, 0, 0, false, 0x40⟩

theorem edgeRequest_valid : edgeRequest.Valid := ⟨by decide, by decide, by decide, by decide⟩

theorem eq_of_first_ioapic (h : t.isIoapic 56 = false) :
    ∀ a ∈ [44, 56], ∀ b ∈ [44, 56], t.isIoapic a = true → t.isIoapic b = true → ∀ gsi,
      t.ServesInterrupt hw a gsi → t.ServesInterrupt hw b gsi → a = b := by
  intro a ha b hb hia hib gsi _ _
  have hfirst : ∀ c ∈ [44, 56], t.isIoapic c = true → c = 44 := by
    intro c hc hic
    rcases List.mem_cons.1 hc with rfl | hc
    · rfl
    · rw [List.mem_singleton.1 hc, h] at hic
      cases hic
  rw [hfirst a ha hia, hfirst b hb hib]

theorem routesInterrupt_bus_conform :
    (overriddenMadt 0).RoutesInterrupt [44, 56] twentyFourLines 44 edgeRequest 0 := by
  have hrecords : (overriddenMadt 0).HasRecords [44, 56] := ⟨⟨rfl, rfl, rfl⟩, by decide⟩
  refine (routesInterrupt_iff hrecords ⟨by decide, by decide, by decide⟩
    (fun _ _ _ => rfl) (eq_of_first_ioapic (by decide)) edgeRequest_valid (by decide) (by decide)
    (by decide)).2 ⟨by decide, by decide, fun o ho => ?_, by decide, by decide⟩
  have hfor : (overriddenMadt 0).overrideFor [44, 56] 0 = some 56 := by decide
  rw [hfor] at ho
  cases ho
  exact ⟨by decide, by decide⟩

def plainMadt : Madt := ofRecords [1, 12, 0, 0, 0, 0, 0xc0, 0xfe, 0, 0, 0, 0]

/-- Without an override the call panics; and a level-triggered, active-low override is written as
the edge-triggered, active-high entry that was asked for. -/
theorem exists_misrouted_interrupt :
    (plainMadt.HasRecords [44] ∧ plainMadt.ServesInterrupt twentyFourLines 44 0 ∧
      ∃ data, initIoapics twentyFourLines (some plainMadt) ioapicStatic = .ok (true, data) ∧
        plainMadt.setIOAPICInterruptRedirection data edgeRequest 0 = .error (.panic .failedAssert)) ∧
    ((overriddenMadt 0x0f).HasRecords [44, 56] ∧
      (overriddenMadt 0x0f).ServesInterrupt twentyFourLines 44 2 ∧
      ∃ data, initIoapics twentyFourLines (some (overriddenMadt 0x0f)) ioapicStatic = .ok (true, data) ∧
        (overriddenMadt 0x0f).setIOAPICInterruptRedirection data edgeRequest 0 =
          .ok [⟨0xfec00000, 0x14, 0x40⟩, ⟨0xfec00000, 0x15, 0x01000000⟩] ∧
        ((overriddenMadt 0x0f).overridden [44, 56] edgeRequest 0).packed % 2 ^ 32 = 0xa040) :=
  ⟨⟨⟨⟨rfl, rfl⟩, by decide⟩, by decide, plainMadt.ioapicData [44] twentyFourLines, by decide, by decide⟩,
    ⟨⟨rfl, rfl, rfl⟩, by decide⟩, by decide, (overriddenMadt 0x0f).ioapicData [44, 56] twentyFourLines,
    by decide, by decide, by decide⟩

end Madt

end GarbageOS
