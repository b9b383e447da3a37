import GarbageOS.Apic.Reads

/-!
# Which MADT walks end

A walk goes on from a record by its length byte alone: it ends exactly if no
record that it comes to has length 0.
-/

namespace GarbageOS

open Lib

namespace Madt

/-- The records that a walk comes to. -/
inductive Visited (t : Madt) : Nat → Prop
  | first {header : Nat} : t.getFirstICSHeader = some header → Visited t header
  | next {header next : Nat} : Visited t header → t.getNextICSHeader header = some next →
      Visited t next

variable {t : Madt} {α : Type} {header : Nat}

theorem getFirstICSHeader_eq_some :
    t.getFirstICSHeader = some header ↔ header = size ∧ size < t.length := by
  unfold getFirstICSHeader
  split
  · simp; omega
  · simp; omega

theorem getNextICSHeader_eq_some {next : Nat} :
    t.getNextICSHeader header = some next ↔
      next = header + t.icsLength header ∧ next < t.length := by
  unfold getNextICSHeader
  simp only
  split
  · simp; omega
  · simp; omega

theorem Visited.bounds (h : t.Visited header) : size ≤ header ∧ header < t.length := by
  induction h with
  | first h =>
    obtain ⟨rfl, hlt⟩ := getFirstICSHeader_eq_some.1 h
    exact ⟨Nat.le_refl _, hlt⟩
  | next _ h ih =>
    obtain ⟨rfl, hlt⟩ := getNextICSHeader_eq_some.1 h
    omega

theorem Visited.mem_of_closed {headers : List Nat} (h : t.Visited header)
    (hfirst : ∀ first, t.getFirstICSHeader = some first → first ∈ headers)
    (hnext : ∀ header ∈ headers, ∀ next, t.getNextICSHeader header = some next →
      next ∈ headers) : header ∈ headers := by
  induction h with
  | first h => exact hfirst _ h
  | next _ hn ih => exact hnext _ ih _ hn

/-! ## The walk ends -/

/-- Every length byte that the walk goes by is positive. -/
def Advances (t : Madt) : Prop := ∀ header, t.Visited header → t.icsLength header ≠ 0

theorem Advances.lt_next (h : t.Advances) (hv : t.Visited header) {next : Nat}
    (hn : t.getNextICSHeader header = some next) : header < next := by
  obtain ⟨rfl, -⟩ := getNextICSHeader_eq_some.1 hn
  have := h header hv
  omega

theorem forICSFrom_of_yield {body : Nat → α → Except Stop (ForInStep α)} {steps : Nat} {a b : α}
    (hb : body header a = .ok (.yield b)) :
    t.forICSFrom body (steps + 1) (some header) a =
      t.forICSFrom body steps (t.getNextICSHeader header) b := by
  show (body header a >>= _) = _
  rw [hb, ok_bind]

theorem forICSFrom_of_length_zero {body : Nat → α → Except Stop (ForInStep α)}
    (hbody : ∀ header a, ∃ b, body header a = .ok (.yield b)) (hlt : header < t.length)
    (hlen : t.icsLength header = 0) (steps : Nat) (a : α) :
    t.forICSFrom body steps (some header) a = .error .loops := by
  induction steps generalizing a with
  | zero => rfl
  | succ steps ih =>
    obtain ⟨b, hb⟩ := hbody header a
    have hn : t.getNextICSHeader header = some header :=
      getNextICSHeader_eq_some.2 ⟨by omega, hlt⟩
    rw [forICSFrom_of_yield hb, hn]
    exact ih b

/-- What a loop whose rounds all go on does from a record of the walk on, it does as a whole. -/
theorem Visited.forICSFrom_eq_loops {body : Nat → α → Except Stop (ForInStep α)}
    (hbody : ∀ header a, ∃ b, body header a = .ok (.yield b)) (hv : t.Visited header)
    (hloops : ∀ steps a, t.forICSFrom body steps (some header) a = .error .loops) (steps : Nat)
    (a : α) : t.forICSFrom body steps t.getFirstICSHeader a = .error .loops := by
  induction hv generalizing steps a with
  | first h => rw [h]; exact hloops steps a
  | @next header next _ hn ih =>
    refine ih (fun steps a => ?_) steps a
    cases steps with
    | zero => rfl
    | succ steps =>
      obtain ⟨b, hb⟩ := hbody header a
      rw [forICSFrom_of_yield hb, hn]
      exact hloops steps b

theorem Visited.forICS_eq_loops {body : Nat → α → ReadM (ForInStep α)}
    (hbody : ∀ header a, ∃ b, (body header a).result = .ok (.yield b)) (hv : t.Visited header)
    (hlen : t.icsLength header = 0) (steps : Nat) (a : α) :
    (Read.forICS t steps a body).result = .error .loops := by
  rw [Read.forICS, Read.forICSFrom_result]
  exact hv.forICSFrom_eq_loops hbody (forICSFrom_of_length_zero hbody hv.bounds.2 hlen) steps a

/-! ## The records of a walk that ends -/

/-- The records from `header` on. -/
def walkFrom (t : Madt) : (steps : Nat) → (header : Option Nat) → List Nat
  | _, none => []
  | 0, some _ => []
  | steps + 1, some header => header :: t.walkFrom steps (t.getNextICSHeader header)

theorem Advances.forICSFrom_eq (h : t.Advances) {body : Nat → α → Except Stop (ForInStep α)}
    {steps : Nat} {a : α} (hv : t.Visited header) (hsteps : t.length ≤ header + steps) :
    t.forICSFrom body steps (some header) a =
      forIn (t.walkFrom steps (some header)) a body := by
  induction steps generalizing header a with
  | zero =>
    have := hv.bounds
    omega
  | succ steps ih =>
    rw [walkFrom, List.forIn_cons]
    show (body header a >>= _) = _
    apply bind_congr
    intro r
    cases r with
    | done b => rfl
    | yield b =>
      show t.forICSFrom body steps (t.getNextICSHeader header) b = _
      cases hn : t.getNextICSHeader header with
      | none => cases steps <;> rfl
      | some next =>
        have := h.lt_next hv hn
        exact ih (hv.next hn) (by omega)

theorem Advances.walkFrom_congr (h : t.Advances) {steps rounds : Nat} (hv : t.Visited header)
    (hsteps : t.length ≤ header + steps) (hrounds : t.length ≤ header + rounds) :
    t.walkFrom steps (some header) = t.walkFrom rounds (some header) := by
  induction steps generalizing header rounds with
  | zero =>
    have := hv.bounds
    omega
  | succ steps ih =>
    have := hv.bounds
    obtain ⟨rounds, rfl⟩ : ∃ m, rounds = m + 1 := ⟨rounds - 1, by omega⟩
    rw [walkFrom, walkFrom]
    cases hn : t.getNextICSHeader header with
    | none => cases steps <;> cases rounds <;> rfl
    | some next =>
      have := h.lt_next hv hn
      have heq : t.walkFrom steps (some next) = t.walkFrom rounds (some next) :=
        ih (hv.next hn) (by omega) (by omega)
      rw [heq]

theorem Advances.forICS_eq (h : t.Advances) {body : Nat → α → Except Stop (ForInStep α)}
    {steps : Nat} {a : α} (hsteps : t.length ≤ steps) :
    t.forICSFrom body steps t.getFirstICSHeader a =
      forIn (t.walkFrom t.length t.getFirstICSHeader) a body := by
  cases hf : t.getFirstICSHeader with
  | none => cases steps <;> cases t.length <;> rfl
  | some first =>
    have hv : t.Visited first := .first hf
    rw [h.forICSFrom_eq hv (by omega), h.walkFrom_congr hv (by omega) (Nat.le_add_left _ _)]

theorem Advances.mem_walkFrom_next (h : t.Advances) {steps first next : Nat} (hf : t.Visited first)
    (hsteps : t.length ≤ first + steps) (hmem : header ∈ t.walkFrom steps (some first))
    (hn : t.getNextICSHeader header = some next) : next ∈ t.walkFrom steps (some first) := by
  induction steps generalizing first with
  | zero => cases hmem
  | succ steps ih =>
    rw [walkFrom] at hmem ⊢
    have hlt := (getNextICSHeader_eq_some.1 hn).2
    rcases List.mem_cons.1 hmem with rfl | hmem
    · have := h.lt_next hf hn
      obtain ⟨steps, rfl⟩ : ∃ m, steps = m + 1 := ⟨steps - 1, by omega⟩
      rw [hn, walkFrom]
      exact List.mem_cons_of_mem _ List.mem_cons_self
    · cases hs : t.getNextICSHeader first with
      | none =>
        rw [hs] at hmem
        cases steps <;> cases hmem
      | some second =>
        rw [hs] at hmem
        have := h.lt_next hf hs
        exact List.mem_cons_of_mem _ (ih (hf.next hs) (by omega) hmem)

theorem Advances.mem_walkFrom (h : t.Advances) {steps : Nat} (hsteps : t.length ≤ steps)
    (hv : t.Visited header) : header ∈ t.walkFrom steps t.getFirstICSHeader := by
  induction hv with
  | first hf =>
    have := (getFirstICSHeader_eq_some.1 hf).2
    obtain ⟨steps, rfl⟩ : ∃ m, steps = m + 1 := ⟨steps - 1, by omega⟩
    rw [hf, walkFrom]
    exact List.mem_cons_self
  | @next header next hv hn ih =>
    cases hf : t.getFirstICSHeader with
    | none =>
      rw [hf] at ih
      cases steps <;> cases ih
    | some first =>
      rw [hf] at ih
      exact h.mem_walkFrom_next (.first hf) (by omega) ih hn

/-! ## All loops -/

/-- The loops over the records end, whatever the arrays they fill hold. -/
structure LoopsEnd (t : Madt) : Prop where
  countNumberOfLocalApic :
    ∃ steps, (Read.countNumberOfLocalApic t steps).result ≠ .error .loops
  countICSHeaderInstances : ∀ icsHeaderType,
    ∃ steps, (Read.countICSHeaderInstances t icsHeaderType steps).result ≠ .error .loops
  fillApicArray : ∀ lapicArray,
    ∃ steps, (Read.fillApicArray t lapicArray steps).result ≠ .error .loops
  getLapicBaseAddressFromMadt :
    ∃ steps, (Read.getLapicBaseAddressFromMadt t steps).result ≠ .error .loops
  fillIoapicArray : ∀ ioapicArray,
    ∃ steps, (Read.fillIoapicArray t ioapicArray steps).result ≠ .error .loops
  fillSourceOverrideArray : ∀ sourceOverrideArray,
    ∃ steps, (Read.fillSourceOverrideArray t sourceOverrideArray steps).result ≠ .error .loops

/-! The bodies of the loops stop with failed assertions only. -/

theorem overrideAddress_result (header baseAddress : Nat) :
    ∃ b, (Read.overrideAddress t header baseAddress).result = .ok (.yield b) := by
  unfold Read.overrideAddress
  simp only [Read.read8, Traced.event_bind]
  split
  · exact ⟨_, rfl⟩
  · exact ⟨_, rfl⟩

instance {β : Type} (c : ErrorCode) : Traced.Avoids Stop.loops (.stop (.panic c) : ReadM β) :=
  ⟨nofun⟩

instance (off : Nat) : Traced.Avoids Stop.loops (Read.read8 t off) :=
  inferInstanceAs (Traced.Avoids _ (.event ..))

instance (off : Nat) : Traced.Avoids Stop.loops (Read.read32 t off) := ⟨nofun⟩

instance (b : Bool) : Traced.Avoids Stop.loops (Read.kassert b) := by
  unfold Read.kassert
  infer_instance

instance (header count : Nat) : Traced.Avoids Stop.loops (Read.countLapic t header count) := by
  unfold Read.countLapic
  infer_instance

instance (icsHeaderType header count : Nat) :
    Traced.Avoids Stop.loops (Read.countInstance t icsHeaderType header count) := by
  unfold Read.countInstance
  infer_instance

instance (header baseAddress : Nat) :
    Traced.Avoids Stop.loops (Read.overrideAddress t header baseAddress) := by
  unfold Read.overrideAddress Read.read64
  infer_instance

instance (header : Nat) (a : List LocalApic × Nat) :
    Traced.Avoids Stop.loops (Read.storeLapic t header a) := by
  unfold Read.storeLapic
  infer_instance

instance (header : Nat) (a : List IoApic × Nat) :
    Traced.Avoids Stop.loops (Read.storeIoapic t header a) := by
  unfold Read.storeIoapic
  infer_instance

instance (header : Nat) (a : List (Option Nat) × Nat) :
    Traced.Avoids Stop.loops (Read.storeOverride t header a) := by
  unfold Read.storeOverride
  infer_instance

instance avoids_getLapicFromProcessorUid (uid : Nat) (lapicArray : List LocalApic) (i : Nat) :
    Traced.Avoids Stop.loops (Read.getLapicFromProcessorUid t uid lapicArray i) := by
  induction lapicArray generalizing i with
  | nil => exact ⟨nofun⟩
  | cons lapic lapics ih =>
    unfold Read.getLapicFromProcessorUid
    split <;> infer_instance

instance (header : Nat) (lapicArray : List LocalApic) :
    Traced.Avoids Stop.loops (Read.storeNmi t header lapicArray) := by
  have hone : ∀ uid, Traced.Avoids Stop.loops (Read.storeNmiOne t header uid lapicArray) := by
    intro uid
    refine @Traced.Avoids.bind _ _ _ _ _ _ _ inferInstance fun r => ?_
    cases r <;> infer_instance
  unfold Read.storeNmi
  infer_instance

/-- With positive lengths a loop is over after as many rounds as the table has bytes. -/
theorem Advances.forICS_avoids (h : t.Advances) {body : Nat → α → ReadM (ForInStep α)}
    [hbody : ∀ header a, Traced.Avoids Stop.loops (body header a)] {steps : Nat}
    (hsteps : t.length ≤ steps) (a : α) :
    Traced.Avoids Stop.loops (Read.forICS t steps a body) := by
  constructor
  rw [Read.forICS, Read.forICSFrom_result, h.forICS_eq hsteps]
  generalize t.walkFrom t.length t.getFirstICSHeader = headers
  induction headers generalizing a with
  | nil => exact nofun
  | cons header headers ih =>
    rw [List.forIn_cons]
    cases hr : (body header a).result with
    | error e =>
      rintro ⟨⟩
      exact (hbody header a).ne hr
    | ok r =>
      cases r with
      | done b => exact nofun
      | yield b => exact ih b

theorem Advances.loopsEnd (h : t.Advances) : t.LoopsEnd := by
  -- as many rounds as the table has bytes are enough for every loop
  have hends : ∀ {α : Type} {body : Nat → α → ReadM (ForInStep α)}
      [∀ header a, Traced.Avoids Stop.loops (body header a)] (a : α),
      Traced.Avoids Stop.loops (Read.forICS t t.length a body) :=
    h.forICS_avoids (Nat.le_refl _)
  refine ⟨⟨t.length, (hends _).ne⟩, fun _ => ⟨t.length, (hends _).ne⟩,
    fun lapicArray => ⟨t.length, ?_⟩, ⟨t.length, (hends _).ne⟩,
    fun ioapicArray => ⟨t.length, ?_⟩, fun soArray => ⟨t.length, ?_⟩⟩
  · unfold Read.fillApicArray
    exact Traced.Avoids.ne
  · unfold Read.fillIoapicArray
    exact Traced.Avoids.ne
  · unfold Read.fillSourceOverrideArray
    exact Traced.Avoids.ne

theorem LoopsEnd.advances (h : t.LoopsEnd) : t.Advances := by
  intro header hv hlen
  obtain ⟨steps, hsteps⟩ := h.countICSHeaderInstances 0
  exact hsteps (hv.forICS_eq_loops (fun _ _ => ⟨_, Read.countInstance_result ..⟩) hlen steps 0)

/-- The loops end exactly if every record that the walk comes to has a positive length. -/
theorem loopsEnd_iff_forall_visited {t : Madt} :
    t.LoopsEnd ↔ ∀ header, t.Visited header → t.icsLength header ≠ 0 :=
  ⟨LoopsEnd.advances, Advances.loopsEnd⟩

def zeroLengthMadt : Madt := ofRecords [0, 0]

/-- The first count of the initialization never returns on such a table. -/
theorem exists_not_loopsEnd : ∃ t : Madt, ¬ t.LoopsEnd ∧
    ∀ steps, (Read.countNumberOfLocalApic t steps).result = .error .loops := by
  have hv : zeroLengthMadt.Visited 44 := .first (by decide)
  have hlen : zeroLengthMadt.icsLength 44 = 0 := by decide
  exact ⟨zeroLengthMadt, fun h => h.advances 44 hv hlen,
    fun steps => hv.forICS_eq_loops (fun _ _ => ⟨_, Read.countLapic_result ..⟩) hlen steps 0⟩

end Madt

end GarbageOS
