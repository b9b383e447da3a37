import GarbageOS.Apic.Walk

/-!
# Reads behind the table

The only bound that a walk checks is that a record starts inside the table. What
the loops read through a truncated last record, or through one whose length byte
is too small, lies behind it.
-/

namespace GarbageOS

open Lib

namespace Madt

variable {t : Madt} {α : Type} {header : Nat}
  {lapicArray : List LocalApic} {uid : Nat}

/-! ## The records at which a loop arrives -/

/-- The loop arrives at a record with what it has accumulated. -/
inductive Reaches (t : Madt) (body : Nat → α → ReadM (ForInStep α)) (start : α) : Nat → α → Prop
  | first {header : Nat} : t.getFirstICSHeader = some header → Reaches t body start header start
  | next {header next : Nat} {a b : α} : Reaches t body start header a →
      (body header a).result = .ok (.yield b) → t.getNextICSHeader header = some next →
      Reaches t body start next b

variable {body : Nat → α → ReadM (ForInStep α)} {start a : α}

theorem Reaches.visited (h : Reaches t body start header a) : t.Visited header := by
  induction h with
  | first h => exact .first h
  | next _ _ hn ih => exact ih.next hn

/-- A round of the loop: the body, and the length byte if the loop goes on. -/
def RoundIn (P : Nat → Prop) (body : Nat → α → ReadM (ForInStep α)) (header : Nat) (a : α) : Prop :=
  (∀ off ∈ (body header a).trace, P off) ∧
    ∀ b, (body header a).result = .ok (.yield b) → P (header + 1)

theorem forICSFrom_succ_trace {P : Nat → Prop} {steps : Nat} :
    (∀ off ∈ (Read.forICSFrom t body (steps + 1) (some header) a).trace, P off) ↔
      RoundIn P body header a ∧ ∀ b next, (body header a).result = .ok (.yield b) →
        t.getNextICSHeader header = some next →
        ∀ off ∈ (Read.forICSFrom t body steps (some next) b).trace, P off := by
  rw [Read.forICSFrom, Traced.forall_mem_bind_trace]
  constructor
  · rintro ⟨hbody, hrest⟩
    refine ⟨⟨hbody, fun b hb => ?_⟩, fun b next hb hn => ?_⟩
    · have := Traced.forall_mem_bind_trace.1 (hrest _ hb)
      exact this.1 _ (List.mem_singleton.2 rfl)
    · have := (Traced.forall_mem_bind_trace.1 (hrest _ hb)).2 _
        (Read.getNextICSHeader_result header)
      rw [hn] at this
      exact this
  · rintro ⟨⟨hbody, hlen⟩, hrest⟩
    refine ⟨hbody, fun r hr => ?_⟩
    cases r with
    | done b => intro _ h; cases h
    | yield b =>
      refine Traced.forall_mem_bind_trace.2 ⟨?_, ?_⟩
      · intro off hoff
        obtain rfl := List.mem_singleton.1 hoff
        exact hlen b hr
      · intro o ho
        obtain rfl := Except.ok.inj (ho.symm.trans (Read.getNextICSHeader_result header))
        cases hn : t.getNextICSHeader header with
        | none => cases steps <;> (intro _ h; cases h)
        | some next => exact hrest b next hr hn

/-- All that a loop reads is read in the rounds at the records at which it arrives. -/
theorem forICS_trace {P : Nat → Prop}
    (h : ∀ header a, Reaches t body start header a → RoundIn P body header a) (steps : Nat) :
    ∀ off ∈ (Read.forICS t steps start body).trace, P off := by
  have hall : ∀ steps header a, Reaches t body start header a →
      ∀ off ∈ (Read.forICSFrom t body steps (some header) a).trace, P off := by
    intro steps
    induction steps with
    | zero => intro _ _ _ _ h; cases h
    | succ steps ih =>
      intro header a hr
      exact forICSFrom_succ_trace.2 ⟨h header a hr, fun b next hb hn => ih _ _ (hr.next hb hn)⟩
  rw [Read.forICS]
  cases hf : t.getFirstICSHeader with
  | none => cases steps <;> (intro _ h; cases h)
  | some header => exact hall steps header start (.first hf)

/-- And a loop that may take enough rounds reads all of that. -/
theorem Reaches.roundIn {P : Nat → Prop} (hr : Reaches t body start header a) {n : Nat}
    (h : ∀ steps ≥ n, ∀ off ∈ (Read.forICS t steps start body).trace, P off) :
    RoundIn P body header a := by
  have hall : ∀ steps ≥ n, ∀ off ∈ (Read.forICSFrom t body steps (some header) a).trace,
      P off := by
    induction hr with
    | first hf =>
      intro steps hsteps
      have := h steps hsteps
      rw [Read.forICS, hf] at this
      exact this
    | next _ hb hn ih =>
      exact fun steps hsteps =>
        (forICSFrom_succ_trace.1 (ih (steps + 1) (by omega))).2 _ _ hb hn
  exact (forICSFrom_succ_trace.1 (hall (n + 1) (by omega))).1

/-! ## What the rounds read -/

def Inside (t : Madt) (off : Nat) : Prop := off < t.length

theorem countLapic_roundIn {count : Nat} :
    RoundIn t.Inside (Read.countLapic t) header count ↔ header + 2 ≤ t.length ∧
      (t.icsType header = icsTypeProcessorLocalApic → header + 8 ≤ t.length) := by
  rw [RoundIn, Read.countLapic_result]
  unfold Read.countLapic
  simp only [Read.read8, Traced.event_bind, Read.read32_eq]
  by_cases hl : t.read8 header = icsTypeProcessorLocalApic
  · rw [if_pos hl]
    simp [icsType, hl, Traced.bind_trace_of_ok, Inside]
    omega
  · rw [if_neg hl]
    simp [icsType, hl, Inside]
    omega

theorem countInstance_roundIn {icsHeaderType count : Nat} :
    RoundIn t.Inside (Read.countInstance t icsHeaderType) header count ↔
      header + 2 ≤ t.length := by
  rw [RoundIn, Read.countInstance_result]
  simp [Read.countInstance, Read.read8, Inside]
  omega

theorem overrideAddress_roundIn {baseAddress : Nat} :
    RoundIn t.Inside (Read.overrideAddress t) header baseAddress ↔ header + 2 ≤ t.length ∧
      (t.icsType header = icsTypeLocalApicAddressOverride → header + 12 ≤ t.length) := by
  rw [RoundIn]
  unfold Read.overrideAddress
  simp only [Read.read8, Traced.event_bind, Read.read64_eq]
  by_cases hl : t.read8 header = icsTypeLocalApicAddressOverride
  · rw [if_pos hl]
    simp [icsType, hl, Traced.bind_trace_of_ok, Traced.bind_result, Inside, ok_bind]
    omega
  · rw [if_neg hl]
    simp [icsType, hl, Inside]
    omega

theorem storeLapic_roundIn {a : List LocalApic × Nat} (hlen : header + 2 ≤ t.length)
    (hlapic : t.icsType header = icsTypeProcessorLocalApic → header + 8 ≤ t.length) :
    RoundIn t.Inside (Read.storeLapic t) header a := by
  refine ⟨?_, fun _ _ => by show header + 1 < _; omega⟩
  unfold Read.storeLapic
  simp only [Read.read8, Traced.event_bind, Read.kassert_bind]
  split
  · rename_i hl
    have := hlapic hl
    split
    · simp [Inside]; omega
    · simp [Inside]; omega
  · simp [Inside]; omega

theorem storeIoapic_roundIn {a : List IoApic × Nat} (hlen : header + 2 ≤ t.length)
    (hioapic : t.icsType header = icsTypeProcessorIoApic → header + 8 ≤ t.length) :
    RoundIn t.Inside (Read.storeIoapic t) header a := by
  refine ⟨?_, fun _ _ => by show header + 1 < _; omega⟩
  unfold Read.storeIoapic
  simp only [Read.read8, Traced.event_bind, Read.kassert_bind, Read.read32_eq]
  split
  · rename_i hl
    have := hioapic hl
    split
    · simp [Inside, Traced.bind_trace_of_ok]; omega
    · simp [Inside]; omega
  · simp [Inside]; omega

theorem RoundIn.ioapic_le {a : List IoApic × Nat}
    (h : RoundIn t.Inside (Read.storeIoapic t) header a)
    (htype : t.icsType header = icsTypeProcessorIoApic) (ha : a.2 < a.1.length) :
    header + 8 ≤ t.length := by
  have := h.1 (header + 7)
  unfold Read.storeIoapic at this
  simp only [Read.read8, Traced.event_bind, Read.kassert_bind, Read.read32_eq] at this
  rw [if_pos (show t.read8 header = _ from htype), if_pos (decide_eq_true ha)] at this
  simp [Inside, Traced.bind_trace_of_ok] at this
  omega

theorem storeOverride_roundIn {a : List (Option Nat) × Nat} (hlen : header + 2 ≤ t.length)
    (hoverride : t.icsType header = icsTypeInterruptSourceOverride → header + 3 ≤ t.length) :
    RoundIn t.Inside (Read.storeOverride t) header a := by
  refine ⟨?_, fun _ _ => by show header + 1 < _; omega⟩
  unfold Read.storeOverride
  simp only [Read.read8, Traced.event_bind, Read.kassert_bind]
  split
  · rename_i hl
    have := hoverride hl
    split
    · split
      · simp [Inside]; omega
      · simp [Inside]; omega
    · simp [Inside]; omega
  · simp [Inside]; omega

theorem RoundIn.override_le {a : List (Option Nat) × Nat}
    (h : RoundIn t.Inside (Read.storeOverride t) header a)
    (htype : t.icsType header = icsTypeInterruptSourceOverride) (ha : a.2 < a.1.length) :
    header + 3 ≤ t.length := by
  have := h.1 (header + 2)
  unfold Read.storeOverride at this
  simp only [Read.read8, Traced.event_bind, Read.kassert_bind] at this
  rw [if_pos (show t.read8 header = _ from htype), if_pos (decide_eq_true ha)] at this
  simp [Inside] at this
  omega

theorem storeOverride_yield {a b : List (Option Nat) × Nat}
    (h : (Read.storeOverride t header a).result = .ok (.yield b))
    (htype : t.icsType header = icsTypeInterruptSourceOverride) : t.overrideBus header = 0 := by
  unfold Read.storeOverride at h
  simp only [Read.read8, Traced.event_bind, Read.kassert_bind] at h
  rw [if_pos (show t.read8 header = _ from htype)] at h
  split at h
  · split at h
    · rename_i hbus
      simpa [overrideBus] using hbus
    · cases h
  · cases h

/-! ## The NMI records -/

theorem getLapicFromProcessorUid_trace {i : Nat}
    (h : ∀ lapic ∈ lapicArray, ∀ ics, lapic.icsLapic = some ics → ics + 3 ≤ t.length) :
    ∀ off ∈ (Read.getLapicFromProcessorUid t uid lapicArray i).trace, t.Inside off := by
  induction lapicArray generalizing i with
  | nil => intro _ h; cases h
  | cons lapic lapics ih =>
    unfold Read.getLapicFromProcessorUid
    cases hics : lapic.icsLapic with
    | none => intro _ h; cases h
    | some ics =>
      have hle := h lapic List.mem_cons_self ics hics
      have hrest := ih (i := i + 1) fun l hl => h l (List.mem_cons_of_mem _ hl)
      simp only [Read.read8, Traced.event_bind]
      rw [List.forall_mem_cons]
      refine ⟨by show ics + 2 < _; omega, ?_⟩
      split
      · intro _ h; cases h
      · exact hrest

theorem storeNmi_roundIn (hlen : header + 2 ≤ t.length)
    (hnmi : t.icsType header = icsTypeLocalApicNmi → header + 3 ≤ t.length)
    (harray : ∀ lapic ∈ lapicArray, ∀ ics, lapic.icsLapic = some ics → ics + 3 ≤ t.length) :
    RoundIn t.Inside (Read.storeNmi t) header lapicArray := by
  refine ⟨?_, fun _ _ => by show header + 1 < _; omega⟩
  unfold Read.storeNmi
  simp only [Read.read8, Traced.event_bind]
  split
  · rename_i hl
    have hle := hnmi hl
    simp only [List.forall_mem_cons]
    refine ⟨by show header < _; omega, by show header + 2 < _; omega, ?_⟩
    split
    · intro _ h; cases h
    · refine Traced.forall_mem_bind_trace.2 ⟨getLapicFromProcessorUid_trace harray, ?_⟩
      intro r _
      cases r <;> (intro _ h; cases h)
  · simp [Inside]; omega

theorem RoundIn.nmi_le (h : RoundIn t.Inside (Read.storeNmi t) header lapicArray)
    (htype : t.icsType header = icsTypeLocalApicNmi) : header + 3 ≤ t.length := by
  have := h.1 (header + 2)
  unfold Read.storeNmi at this
  simp only [Read.read8, Traced.event_bind] at this
  rw [if_pos (show t.read8 header = _ from htype)] at this
  simp [Inside] at this
  omega

/-- The record is for one processor, and the table has a local APIC for it. -/
def NamesLapic (t : Madt) (header : Nat) : Prop :=
  t.processorUid header ≠ 0xff ∧ ∃ ics, t.Visited ics ∧
    t.icsType ics = icsTypeProcessorLocalApic ∧ t.processorUid ics = t.processorUid header

/-- Every entry of the array is filled, from the local APIC records. -/
def Filled (t : Madt) (lapicArray : List LocalApic) : Prop :=
  ∀ lapic ∈ lapicArray, ∃ ics, lapic.icsLapic = some ics ∧ t.Visited ics ∧
    t.icsType ics = icsTypeProcessorLocalApic

theorem Filled.of_keys {a b : List LocalApic} (h : Filled t a)
    (hkey : b.map lapicKey = a.map lapicKey) : Filled t b := by
  intro lapic hmem
  have hk : lapicKey lapic ∈ a.map lapicKey := hkey ▸ List.mem_map_of_mem hmem
  obtain ⟨lapic', hmem', heq⟩ := List.mem_map.1 hk
  obtain ⟨ics, hics, hv⟩ := h lapic' hmem'
  exact ⟨ics, (congrArg Prod.snd heq).symm.trans hics, hv⟩

theorem Filled.getLapicFromProcessorUid_iff (h : Filled t lapicArray) (i : Nat) :
    (∃ j, t.getLapicFromProcessorUid uid lapicArray i = .ok (some j)) ↔
      ∃ lapic ∈ lapicArray, ∃ ics, lapic.icsLapic = some ics ∧ t.processorUid ics = uid := by
  induction lapicArray generalizing i with
  | nil => exact iff_of_false nofun nofun
  | cons lapic lapics ih =>
    obtain ⟨⟨ics, hics, -⟩, hrest⟩ := List.forall_mem_cons.1 h
    unfold getLapicFromProcessorUid
    simp only [hics]
    split
    · next huid => exact iff_of_true ⟨i, rfl⟩ ⟨lapic, List.mem_cons_self, ics, hics, huid⟩
    · next hne =>
      rw [ih hrest, List.exists_mem_cons_iff]
      refine (or_iff_right ?_).symm
      rintro ⟨ics', hics', huid⟩
      rw [hics] at hics'
      cases hics'
      exact hne huid

theorem storeNmi_yield {a b : List LocalApic} (hf : Filled t a)
    (h : (Read.storeNmi t header a).result = .ok (.yield b)) :
    Filled t b ∧ (t.icsType header = icsTypeLocalApicNmi → t.NamesLapic header) := by
  rw [Read.storeNmi_result] at h
  refine ⟨hf.of_keys (storeNmi_keys h), fun htype => ?_⟩
  unfold storeNmi at h
  rw [if_pos htype] at h
  split at h
  · cases h
  · rename_i hall
    cases hu : t.getLapicFromProcessorUid (t.processorUid header) a 0 with
    | error e => rw [hu] at h; cases h
    | ok r =>
      cases r with
      | none => rw [hu] at h; cases h
      | some i =>
        obtain ⟨lapic, hmem, ics, hics, huid⟩ := (hf.getLapicFromProcessorUid_iff 0).1 ⟨i, hu⟩
        obtain ⟨ics', hics', hv, htype'⟩ := hf lapic hmem
        rw [hics] at hics'
        cases hics'
        exact ⟨hall, ics, hv, htype', huid⟩

/-- What every round of a loop keeps holds of what the loop returns. -/
theorem forICS_invariant {I : α → Prop}
    (hbody : ∀ header a r, t.Visited header → I a → (body header a).result = .ok r → I r.value)
    {steps : Nat} {b : α} (ha : I a) (h : (Read.forICS t steps a body).result = .ok b) : I b := by
  have hall : ∀ steps header a, t.Visited header → I a →
      t.forICSFrom (fun header a => (body header a).result) steps (some header) a = .ok b →
      I b := by
    intro steps
    induction steps with
    | zero => intro _ _ _ _ h; cases h
    | succ steps ih =>
      intro header a hv ha h
      change ((body header a).result >>= _) = _ at h
      cases hr : (body header a).result with
      | error e => rw [hr] at h; cases h
      | ok r =>
        have hr' := hbody header a r hv ha hr
        rw [hr, ok_bind] at h
        cases r with
        | done c => cases h; exact hr'
        | yield c =>
          change t.forICSFrom _ steps (t.getNextICSHeader header) c = _ at h
          cases hn : t.getNextICSHeader header with
          | none => rw [hn] at h; cases steps <;> (cases h; exact hr')
          | some next => rw [hn] at h; exact ih next c (hv.next hn) hr' h
  rw [Read.forICS, Read.forICSFrom_result] at h
  cases hf : t.getFirstICSHeader with
  | none => rw [hf] at h; cases steps <;> (cases h; exact ha)
  | some header => rw [hf] at h; exact hall steps header a (.first hf) ha h

theorem storeLapic_filled {a : List LocalApic × Nat} {r : ForInStep (List LocalApic × Nat)}
    (hv : t.Visited header) (ha : Filled t (a.1.take a.2)) (h : t.storeLapic header a = .ok r) :
    Filled t (r.value.1.take r.value.2) := by
  unfold storeLapic at h
  split at h
  · rename_i htype
    split at h
    · rename_i hlt
      cases h
      obtain ⟨done, lapic, left, harray, hdone⟩ :
          ∃ done lapic left, a.1 = done ++ lapic :: left ∧ done.length = a.2 :=
        ⟨a.1.take a.2, a.1[a.2], a.1.drop (a.2 + 1),
          by rw [← List.drop_eq_getElem_cons hlt, List.take_append_drop],
          by rw [List.length_take]; omega⟩
      rw [harray, ← hdone, List.take_left] at ha
      have htake : ∀ l : LocalApic, (done ++ l :: left).take (done.length + 1) = done ++ [l] := by
        intro l
        rw [List.take_append, List.take_of_length_le (by omega)]
        simp
      intro l hl
      simp only [ForInStep.value, harray, ← hdone, modify_length_append, htake,
        List.mem_append, List.mem_singleton] at hl
      rcases hl with hl | rfl
      · exact ha l hl
      · exact ⟨header, rfl, hv, htype⟩
    · cases h
  · cases h
    exact ha

/-! ## The order of the records -/

/-- A record that a walk comes to does not start inside another one. -/
theorem Visited.le_or_le {other : Nat} (h : t.Visited header) (ho : t.Visited other) :
    header ≤ other ∨ other + t.icsLength other ≤ header := by
  induction h generalizing other with
  | first h =>
    obtain ⟨rfl, -⟩ := getFirstICSHeader_eq_some.1 h
    exact .inl ho.bounds.1
  | @next before header hb hn ih =>
    obtain ⟨rfl, -⟩ := getNextICSHeader_eq_some.1 hn
    have hlt : before < other → before + t.icsLength before ≤ other := by
      intro hlt
      clear hn
      induction ho with
      | first h =>
        obtain ⟨rfl, -⟩ := getFirstICSHeader_eq_some.1 h
        have := hb.bounds.1
        omega
      | @next mid other hm hn' ih' =>
        obtain ⟨rfl, -⟩ := getNextICSHeader_eq_some.1 hn'
        rcases ih hm with hle | hle
        · rcases Nat.lt_or_eq_of_le hle with h | rfl
          · have := ih' h
            omega
          · exact Nat.le_refl _
        · omega
    rcases ih ho with hle | hle
    · rcases Nat.lt_or_eq_of_le hle with h | rfl
      · exact .inl (hlt h)
      · exact .inr (Nat.le_refl _)
    · exact .inr (by omega)

/-- The records before the next one are this one and those before it. -/
theorem Visited.le_of_lt_next {other next : Nat} (ho : t.Visited other) (h : t.Visited header)
    (hn : t.getNextICSHeader header = some next) (hlt : other < next) : other ≤ header := by
  obtain ⟨rfl, -⟩ := getNextICSHeader_eq_some.1 hn
  rcases ho.le_or_le h with hle | hle
  · exact hle
  · omega

/-- What each round that goes on shows about its record holds of all records before the
one at which the loop arrives. -/
theorem Reaches.earlier {I : α → Prop} {Q : Nat → Prop} (hstart : I start)
    (hbody : ∀ header a b, t.Visited header → I a → (body header a).result = .ok (.yield b) →
      I b ∧ Q header)
    (h : Reaches t body start header a) :
    I a ∧ ∀ other, t.Visited other → other < header → Q other := by
  induction h with
  | first h =>
    obtain ⟨rfl, -⟩ := getFirstICSHeader_eq_some.1 h
    refine ⟨hstart, fun other ho hlt => ?_⟩
    have := ho.bounds.1
    omega
  | @next header next a b hr hb hn ih =>
    obtain ⟨hb', hq⟩ := hbody header a b hr.visited ih.1 hb
    refine ⟨hb', fun other ho hlt => ?_⟩
    rcases Nat.lt_or_eq_of_le (ho.le_of_lt_next hr.visited hn hlt) with h | rfl
    · exact ih.2 other ho h
    · exact hq

/-- A loop arrives at a record if the rounds at all records before it go on. -/
theorem Visited.reaches_of_earlier {I : Nat → α → Prop} {Q : Nat → Prop}
    (hstart : ∀ header, t.getFirstICSHeader = some header → I header start)
    (hbody : ∀ header a, t.Visited header → I header a → Q header →
      ∃ b, (body header a).result = .ok (.yield b) ∧
        ∀ next, t.getNextICSHeader header = some next → I next b)
    (h : t.Visited header) (hq : ∀ other, t.Visited other → other < header → Q other) :
    ∃ a, Reaches t body start header a ∧ I header a := by
  induction h with
  | first h => exact ⟨start, .first h, hstart _ h⟩
  | @next header next hv hn ih =>
    have hle : header ≤ next := by
      obtain ⟨rfl, -⟩ := getNextICSHeader_eq_some.1 hn
      omega
    obtain ⟨a, ha, hi⟩ := ih fun other ho hlt => hq other ho (by omega)
    rcases Nat.lt_or_eq_of_le hle with hlt | rfl
    · obtain ⟨b, hb, hi'⟩ := hbody header a hv hi (hq header hv hlt)
      exact ⟨b, ha.next hb hn, hi' _ hn⟩
    · exact ⟨a, ha, hi⟩

/-- A loop whose rounds all go on arrives at every record of the walk. -/
theorem Visited.reaches (hbody : ∀ header a, ∃ b, (body header a).result = .ok (.yield b))
    (h : t.Visited header) (start : α) : ∃ a, Reaches t body start header a := by
  obtain ⟨a, hr, -⟩ := h.reaches_of_earlier (I := fun _ _ => True) (Q := fun _ => True)
    (fun _ _ => trivial) (fun header a _ _ _ => (hbody header a).imp fun _ h => ⟨h, fun _ _ => trivial⟩)
    fun _ _ _ => trivial
  exact ⟨a, hr⟩

/-- An array with an entry for each byte of the table does not fill up before a record. -/
theorem Visited.reaches_of_counter {β : Type} {Q : Nat → Prop}
    {body : Nat → List β × Nat → ReadM (ForInStep (List β × Nat))} (ht : t.Advances) (x : β)
    (hbody : ∀ header a, a.2 < a.1.length → Q header →
      ∃ b, (body header a).result = .ok (.yield b) ∧ b.1.length = a.1.length ∧ b.2 ≤ a.2 + 1)
    (h : t.Visited header) (hq : ∀ other, t.Visited other → other < header → Q other) :
    ∃ a, Reaches t body (List.replicate t.length x, 0) header a ∧
      a.1.length = t.length ∧ a.2 ≤ header := by
  refine h.reaches_of_earlier
    (I := fun header (a : List β × Nat) => a.1.length = t.length ∧ a.2 ≤ header)
    (fun _ _ => ⟨List.length_replicate, Nat.zero_le _⟩) (fun header a hv hi hq => ?_) hq
  have hlt := hv.bounds.2
  obtain ⟨b, hb, hlen, hcount⟩ := hbody header a (by omega) hq
  refine ⟨b, hb, fun next hn => ?_⟩
  have := ht.lt_next hv hn
  omega

/-! ## All loops -/

/-- All that the loops read through the records lies inside the table, whatever the arrays
they fill hold. -/
structure ReadsInside (t : Madt) : Prop where
  countNumberOfLocalApic : ∀ steps,
    ∀ off ∈ (Read.countNumberOfLocalApic t steps).trace, t.Inside off
  countICSHeaderInstances : ∀ icsHeaderType steps,
    ∀ off ∈ (Read.countICSHeaderInstances t icsHeaderType steps).trace, t.Inside off
  fillApicArray : ∀ lapicArray steps,
    ∀ off ∈ (Read.fillApicArray t lapicArray steps).trace, t.Inside off
  getLapicBaseAddressFromMadt : ∀ steps,
    ∀ off ∈ (Read.getLapicBaseAddressFromMadt t steps).trace, t.Inside off
  fillIoapicArray : ∀ ioapicArray steps,
    ∀ off ∈ (Read.fillIoapicArray t ioapicArray steps).trace, t.Inside off
  fillSourceOverrideArray : ∀ sourceOverrideArray steps,
    ∀ off ∈ (Read.fillSourceOverrideArray t sourceOverrideArray steps).trace, t.Inside off

/-- The table is long enough for the fields that are read of each record. A loop that
panics at a record or is over there does not read the ones behind it. -/
structure Covered (t : Madt) : Prop where
  header : ∀ header, t.Visited header → header + 2 ≤ t.length
  lapic : ∀ header, t.Visited header → t.icsType header = icsTypeProcessorLocalApic →
    header + 8 ≤ t.length
  address : ∀ header, t.Visited header → t.icsType header = icsTypeLocalApicAddressOverride →
    header + 12 ≤ t.length
  ioapic : ∀ header, t.Visited header → t.icsType header = icsTypeProcessorIoApic →
    header + 8 ≤ t.length
  override : ∀ header, t.Visited header → t.icsType header = icsTypeInterruptSourceOverride →
    (∀ earlier, t.Visited earlier → earlier < header →
      t.icsType earlier = icsTypeInterruptSourceOverride → t.overrideBus earlier = 0) →
    header + 3 ≤ t.length
  nmi : ∀ header, t.Visited header → t.icsType header = icsTypeLocalApicNmi →
    (∀ earlier, t.Visited earlier → earlier < header →
      t.icsType earlier = icsTypeLocalApicNmi → t.NamesLapic earlier) →
    header + 3 ≤ t.length

theorem forall_mem_bind_kassert {β : Type} {P : Nat → Prop} {x : ReadM α} {c : α → Bool}
    {f : α → ReadM β} :
    (∀ off ∈ (x >>= fun a => Read.kassert (c a) >>= fun _ => f a).trace, P off) ↔
      (∀ off ∈ x.trace, P off) ∧
        ∀ a, x.result = .ok a → c a = true → ∀ off ∈ (f a).trace, P off := by
  rw [Traced.forall_mem_bind_trace]
  refine and_congr_right fun _ => forall_congr' fun a => imp_congr_right fun _ => ?_
  rw [Read.kassert_bind]
  cases c a with
  | false => simp
  | true => simp

theorem Covered.fillApicArray (h : t.Covered) (lapicArray : List LocalApic) (steps : Nat) :
    ∀ off ∈ (Read.fillApicArray t lapicArray steps).trace, t.Inside off := by
  refine forall_mem_bind_kassert.2 ⟨?_, fun a ha hcount => ?_⟩
  · apply forICS_trace
    intro header a hr
    exact storeLapic_roundIn (h.header header hr.visited) (h.lapic header hr.visited)
  · have hfilled : Filled t a.1 := by
      have := forICS_invariant (I := fun a => Filled t (a.1.take a.2))
        (fun header a r hv ha hr => storeLapic_filled hv ha
          ((Read.storeLapic_result header a).symm.trans hr)) (by simp [Filled]) ha
      rwa [of_decide_eq_true hcount, List.take_length] at this
    apply forICS_trace
    intro header a hr
    obtain ⟨hf, hearlier⟩ := hr.earlier (I := Filled t)
      (Q := fun header => t.icsType header = icsTypeLocalApicNmi → t.NamesLapic header) hfilled
      fun header a b _ ha hb => storeNmi_yield ha hb
    refine storeNmi_roundIn (h.header header hr.visited)
      (fun htype => h.nmi header hr.visited htype hearlier) fun lapic hmem ics hics => ?_
    obtain ⟨ics', hics', hv, htype⟩ := hf lapic hmem
    rw [hics] at hics'
    cases hics'
    have := h.lapic ics hv htype
    omega

theorem Covered.fillSourceOverrideArray (h : t.Covered) (sourceOverrideArray : List (Option Nat))
    (steps : Nat) :
    ∀ off ∈ (Read.fillSourceOverrideArray t sourceOverrideArray steps).trace, t.Inside off := by
  unfold Read.fillSourceOverrideArray
  split
  · intro _ h; cases h
  · refine forall_mem_bind_kassert.2 ⟨?_, fun _ _ _ _ h => by cases h⟩
    apply forICS_trace
    intro header a hr
    obtain ⟨-, hearlier⟩ := hr.earlier (I := fun _ => True)
      (Q := fun header => t.icsType header = icsTypeInterruptSourceOverride → t.overrideBus header = 0)
      trivial fun header a b _ _ hb => ⟨trivial, storeOverride_yield hb⟩
    exact storeOverride_roundIn (h.header header hr.visited)
      fun htype => h.override header hr.visited htype hearlier

theorem Covered.readsInside (h : t.Covered) : t.ReadsInside where
  countNumberOfLocalApic := by
    apply forICS_trace
    intro header a hr
    exact countLapic_roundIn.2 ⟨h.header header hr.visited, h.lapic header hr.visited⟩
  countICSHeaderInstances := by
    intro icsHeaderType
    apply forICS_trace
    intro header a hr
    exact countInstance_roundIn.2 (h.header header hr.visited)
  fillApicArray := h.fillApicArray
  getLapicBaseAddressFromMadt := by
    apply forICS_trace
    intro header a hr
    exact overrideAddress_roundIn.2 ⟨h.header header hr.visited, h.address header hr.visited⟩
  fillIoapicArray := by
    intro ioapicArray steps
    refine forall_mem_bind_kassert.2 ⟨?_, fun _ _ _ _ h => by cases h⟩
    apply forICS_trace
    intro header a hr
    exact storeIoapic_roundIn (h.header header hr.visited) (h.ioapic header hr.visited)
  fillSourceOverrideArray := h.fillSourceOverrideArray

/-! ## The reads happen -/

theorem ReadsInside.lapic_le (h : t.ReadsInside) (hv : t.Visited header) :
    header + 2 ≤ t.length ∧
      (t.icsType header = icsTypeProcessorLocalApic → header + 8 ≤ t.length) := by
  obtain ⟨a, hr⟩ : ∃ a, Reaches t (Read.countLapic t) 0 header a :=
    hv.reaches (fun _ _ => ⟨_, Read.countLapic_result ..⟩) 0
  exact countLapic_roundIn.1 (hr.roundIn (n := 0) fun steps _ => h.countNumberOfLocalApic steps)

theorem ReadsInside.address_le (h : t.ReadsInside) (hv : t.Visited header)
    (htype : t.icsType header = icsTypeLocalApicAddressOverride) : header + 12 ≤ t.length := by
  obtain ⟨a, hr⟩ : ∃ a, Reaches t (Read.overrideAddress t) (t.read32 36) header a :=
    hv.reaches overrideAddress_result _
  exact (overrideAddress_roundIn.1
    (hr.roundIn (n := 0) fun steps _ => h.getLapicBaseAddressFromMadt steps)).2 htype

theorem storeIoapic_yields (header : Nat) {a : List IoApic × Nat} (ha : a.2 < a.1.length) :
    ∃ b, (Read.storeIoapic t header a).result = .ok (.yield b) ∧
      b.1.length = a.1.length ∧ b.2 ≤ a.2 + 1 := by
  unfold Read.storeIoapic
  simp only [Read.read8, Traced.event_bind, Read.kassert_bind]
  split
  · rw [if_pos (decide_eq_true ha)]
    exact ⟨_, rfl, List.length_set, Nat.le_refl _⟩
  · exact ⟨_, rfl, rfl, by omega⟩

theorem ReadsInside.ioapic_le (h : t.ReadsInside) (ht : t.Advances) (hv : t.Visited header)
    (htype : t.icsType header = icsTypeProcessorIoApic) : header + 8 ≤ t.length := by
  have hlt := hv.bounds.2
  obtain ⟨a, hr, hlen, hcount⟩ := hv.reaches_of_counter (Q := fun _ => True) ht ⟨none, 0⟩
    (fun header _ ha _ => storeIoapic_yields header ha) fun _ _ _ => trivial
  refine (hr.roundIn (n := 0) fun steps _ => ?_).ioapic_le htype (by omega)
  exact (forall_mem_bind_kassert.1 (h.fillIoapicArray _ steps)).1

theorem storeOverride_yields {a : List (Option Nat) × Nat} (ha : a.2 < a.1.length)
    (hbus : t.icsType header = icsTypeInterruptSourceOverride → t.overrideBus header = 0) :
    ∃ b, (Read.storeOverride t header a).result = .ok (.yield b) ∧
      b.1.length = a.1.length ∧ b.2 ≤ a.2 + 1 := by
  unfold Read.storeOverride
  simp only [Read.read8, Traced.event_bind, Read.kassert_bind]
  split
  · rename_i htype
    rw [if_pos (decide_eq_true ha),
      if_pos (decide_eq_true (show t.read8 (header + 2) = 0 from hbus htype))]
    exact ⟨_, rfl, by simp, Nat.le_refl _⟩
  · exact ⟨_, rfl, rfl, by omega⟩

theorem ReadsInside.override_le (h : t.ReadsInside) (ht : t.Advances) (hv : t.Visited header)
    (htype : t.icsType header = icsTypeInterruptSourceOverride)
    (hbus : ∀ earlier, t.Visited earlier → earlier < header →
      t.icsType earlier = icsTypeInterruptSourceOverride → t.overrideBus earlier = 0) :
    header + 3 ≤ t.length := by
  have hlt := hv.bounds.2
  obtain ⟨a, hr, hlen, hcount⟩ := hv.reaches_of_counter ht none
    (fun header _ ha (hq : t.icsType header = _ → _) => storeOverride_yields ha hq) hbus
  refine (hr.roundIn (n := 0) fun steps _ => ?_).override_le htype (by omega)
  have := h.fillSourceOverrideArray (List.replicate t.length none) steps
  rw [Read.fillSourceOverrideArray, if_neg (by rw [List.length_replicate]; omega)] at this
  exact (forall_mem_bind_kassert.1 this).1

theorem Advances.exists_filled (ht : t.Advances) : ∃ lapicArray a, Filled t a ∧
    (∀ ics, t.Visited ics → t.icsType ics = icsTypeProcessorLocalApic →
      ∃ lapic ∈ a, lapic.icsLapic = some ics) ∧
    ∀ steps ≥ t.length,
      (Read.forICS t steps (lapicArray, 0) (Read.storeLapic t)).result = .ok (a, a.length) := by
  obtain ⟨headers, hheaders⟩ : ∃ hs, hs = t.walkFrom t.length t.getFirstICSHeader := ⟨_, rfl⟩
  have hloop : ∀ steps ≥ t.length,
      (Read.forICS t steps (List.replicate (headers.countP t.isLapic) .zeroed, 0)
        (Read.storeLapic t)).result =
        .ok ((headers.filter t.isLapic).map t.lapicOf, headers.countP t.isLapic) := by
    intro steps hsteps
    have h := (fills_storeLapic (t := t) headers).forIn_eq [] (headers.countP t.isLapic)
    simp only [List.nil_append, List.length_nil, Nat.zero_add, Nat.le_refl, if_true, Nat.sub_self,
      List.replicate_zero, List.append_nil] at h
    rw [Read.forICS, Read.forICSFrom_result, ht.forICS_eq hsteps, ← hheaders]
    simp only [Read.storeLapic_result]
    exact h
  have hlen : ((headers.filter t.isLapic).map t.lapicOf).length = headers.countP t.isLapic := by
    rw [List.length_map, List.countP_eq_length_filter]
  refine ⟨_, _, ?_, fun ics hv hl => ?_, fun steps hsteps => hlen ▸ hloop steps hsteps⟩
  · have h := forICS_invariant (I := fun a => Filled t (a.1.take a.2))
      (fun header a r hv ha hr => storeLapic_filled hv ha
        ((Read.storeLapic_result header a).symm.trans hr)) (by simp [Filled])
      (hloop t.length (Nat.le_refl _))
    rwa [List.take_of_length_le (Nat.le_of_eq hlen)] at h
  · refine ⟨t.lapicOf ics, List.mem_map_of_mem (List.mem_filter.2 ⟨?_, by simp [isLapic, hl]⟩), rfl⟩
    rw [hheaders]
    exact ht.mem_walkFrom (Nat.le_refl _) hv

theorem storeNmi_yields {a : List LocalApic} (hf : Filled t a)
    (hall : ∀ ics, t.Visited ics → t.icsType ics = icsTypeProcessorLocalApic →
      ∃ lapic ∈ a, lapic.icsLapic = some ics)
    (hq : t.icsType header = icsTypeLocalApicNmi → t.NamesLapic header) :
    ∃ b, (Read.storeNmi t header a).result = .ok (.yield b) ∧ b.map lapicKey = a.map lapicKey := by
  rw [Read.storeNmi_result]
  by_cases htype : t.icsType header = icsTypeLocalApicNmi
  · obtain ⟨hne, ics, hv, hl, huid⟩ := hq htype
    obtain ⟨lapic, hmem, hics⟩ := hall ics hv hl
    obtain ⟨i, hi⟩ := (hf.getLapicFromProcessorUid_iff 0).2 ⟨lapic, hmem, ics, hics, huid⟩
    refine ⟨_, ?_, map_modify_nmi a i header⟩
    rw [storeNmi, if_pos htype, if_neg hne, hi, ok_bind]
  · exact ⟨a, by rw [storeNmi, if_neg htype], rfl⟩

theorem ReadsInside.nmi_le (h : t.ReadsInside) (ht : t.Advances) (hv : t.Visited header)
    (htype : t.icsType header = icsTypeLocalApicNmi)
    (hnames : ∀ earlier, t.Visited earlier → earlier < header →
      t.icsType earlier = icsTypeLocalApicNmi → t.NamesLapic earlier) :
    header + 3 ≤ t.length := by
  obtain ⟨lapicArray, arr, hf, hall, hloop⟩ := ht.exists_filled
  obtain ⟨a, hr, -⟩ : ∃ a, Reaches t (Read.storeNmi t) arr header a ∧
      a.map lapicKey = arr.map lapicKey := by
    refine hv.reaches_of_earlier (I := fun _ a => List.map lapicKey a = arr.map lapicKey)
      (fun _ _ => rfl) (fun header a hv hi hq => ?_) hnames
    have hall' : ∀ ics, t.Visited ics → t.icsType ics = icsTypeProcessorLocalApic →
        ∃ lapic ∈ a, lapic.icsLapic = some ics := by
      intro ics hv hl
      obtain ⟨lapic, hmem, hics⟩ := hall ics hv hl
      have hk : lapicKey lapic ∈ a.map lapicKey := hi ▸ List.mem_map_of_mem hmem
      obtain ⟨lapic', hmem', heq⟩ := List.mem_map.1 hk
      exact ⟨lapic', hmem', (congrArg Prod.snd heq).trans hics⟩
    obtain ⟨b, hb, hkey⟩ := storeNmi_yields (hf.of_keys hi) hall' hq
    exact ⟨b, hb, fun _ _ => hkey.trans hi⟩
  refine (hr.roundIn (n := t.length) fun steps hsteps => ?_).nmi_le htype
  exact (forall_mem_bind_kassert.1 (h.fillApicArray lapicArray steps)).2 _ (hloop steps hsteps)
    (decide_eq_true rfl)

theorem ReadsInside.covered (h : t.ReadsInside) (ht : t.Advances) : t.Covered where
  header := fun _ hv => (h.lapic_le hv).1
  lapic := fun _ hv => (h.lapic_le hv).2
  address := fun _ hv => h.address_le hv
  ioapic := fun _ hv => h.ioapic_le ht hv
  override := fun _ hv => h.override_le ht hv
  nmi := fun _ hv => h.nmi_le ht hv

/-- Of a table whose walk ends nothing behind its end is read exactly if it covers the
fields that are read of the records. -/
theorem readsInside_iff_covered {t : Madt} (ht : t.LoopsEnd) : t.ReadsInside ↔ t.Covered :=
  ⟨fun h => h.covered ht.advances, Covered.readsInside⟩

theorem visited_usableMadt (h : usableMadt.Visited header) : header ∈ [44, 52, 60] :=
  h.mem_of_closed (by decide) (by decide)

theorem readsInside_usableMadt : usableMadt.LoopsEnd ∧ usableMadt.ReadsInside := by
  have hends : usableMadt.LoopsEnd :=
    Advances.loopsEnd fun header h => (by decide : ∀ x ∈ [44, 52, 60], usableMadt.icsLength x ≠ 0)
      header (visited_usableMadt h)
  have hle : ∀ header, usableMadt.Visited header →
      header + structSize (usableMadt.icsType header) ≤ usableMadt.length := fun header h =>
    (by decide : ∀ x ∈ [44, 52, 60], x + structSize (usableMadt.icsType x) ≤ usableMadt.length)
      header (visited_usableMadt h)
  refine ⟨hends, (readsInside_iff_covered hends).2 ?_⟩
  refine ⟨fun header h => ?_, fun header h ht => ?_, fun header h ht => ?_, fun header h ht => ?_,
    fun header h ht _ => ?_, fun header h ht _ => ?_⟩
  · exact Nat.le_trans (Nat.add_le_add_left (two_le_structSize _) _) (hle header h)
  all_goals
    have := hle header h
    rw [ht] at this
    exact Nat.le_trans (Nat.add_le_add_left (by decide) _) this

/-- A local APIC record cut off behind its length byte. -/
def truncatedMadt : Madt := ofRecords [0, 2]

/-- The walk over the truncated record ends, and its flags are read behind the table. -/
theorem exists_reads_behind : ∃ t : Madt, t.LoopsEnd ∧ ¬ t.ReadsInside := by
  have hv : ∀ header, truncatedMadt.Visited header → header ∈ [44] :=
    fun header h => h.mem_of_closed (by decide) (by decide)
  refine ⟨truncatedMadt, Advances.loopsEnd fun header h => ?_, fun h => ?_⟩
  · rw [List.mem_singleton.1 (hv header h)]
    decide
  · have h44 : truncatedMadt.Visited 44 := .first (by decide)
    exact absurd ((h.lapic_le h44).2 (by decide)) (by decide)

end Madt

end GarbageOS
