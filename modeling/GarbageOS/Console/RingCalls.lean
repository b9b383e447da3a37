import GarbageOS.Console.CircularBuffer
import GarbageOS.Lib.Runs

/-!
# Sequences of calls on a circular buffer

As long as it never holds as many bytes as it has slots, the ring is a queue. What it says
about itself is right less often: an empty ring claims to hold as many bytes as it has slots,
and the test for lost data looks at an index that a write on a full ring never has.
-/

namespace GarbageOS

open Lib Function

namespace CircularBuffer

/-- `has_circular_buffer_lost_data`. -/
def hasLostData (buff : CircularBuffer) : Bool × CircularBuffer :=
  (buff.dataLost, { buff with dataLost := false })

end CircularBuffer

open CircularBuffer

/-- A ring with the bytes written to it and the bytes read from it so far. -/
structure RingLog where
  buff : CircularBuffer
  written : List Char
  read : List Char

namespace RingLog

variable {size : Nat} {s t : RingLog}

def start (size : Nat) (contents : Nat → Char) (oldWriteIdx : Nat) : RingLog :=
  ⟨make size contents oldWriteIdx, [], []⟩

/-- A write that leaves at most `size - 1` bytes unread, or a read of a ring that is not empty. -/
inductive Step (size : Nat) : RingLog → RingLog → Prop
  | write {s : RingLog} (b : Char) (hroom : s.written.length + 1 ≤ s.read.length + (size - 1)) :
      Step size s ⟨s.buff.write b, s.written ++ [b], s.read⟩
  | read {s : RingLog} (hne : s.buff.isEmpty = false) :
      Step size s ⟨s.buff.read.2, s.written, s.read ++ [s.buff.read.1]⟩

/-- What was written is what was read, followed by what the ring holds. -/
structure Queue (size : Nat) (s : RingLog) : Prop where
  wellFormed : s.buff.WellFormed
  size_eq : s.buff.bufferSize = size
  written : s.written = s.read ++ s.buff.unread

theorem Queue.step (hstep : Step size s t) (h : Queue size s) : Queue size t := by
  have hwf := h.wellFormed
  have hlength := congrArg List.length h.written
  rw [List.length_append, length_unread] at hlength
  cases hstep with
  | write b hroom =>
    have hroom' : s.buff.count + 1 < s.buff.bufferSize := by
      have := hwf.count_lt
      rw [h.size_eq] at this ⊢
      omega
    refine ⟨hwf.write b, h.size_eq, ?_⟩
    rw [hwf.unread_write b hroom', h.written, List.append_assoc]
  | read hne =>
    have hcount : s.buff.count ≠ 0 := fun h0 => by
      rw [hwf.isEmpty_iff.2 h0] at hne
      cases hne
    refine ⟨hwf.read, h.size_eq, ?_⟩
    rw [List.append_assoc, List.singleton_append, ← hwf.unread_read hcount, h.written]

/-- The ring is a queue. -/
theorem fifo (size : Nat) (hsize : 2 ≤ size) (contents : Nat → Char) (oldWriteIdx : Nat)
    (s : RingLog) (hrun : Relation.ReflTransGen (Step size) (start size contents oldWriteIdx) s) :
    s.read <+: s.written ∧ (s.buff.isEmpty = true ↔ s.read = s.written) := by
  have hstart : Queue size (start size contents oldWriteIdx) :=
    ⟨.make (by omega) contents oldWriteIdx, rfl, rfl⟩
  obtain ⟨hwf, -, hwritten⟩ := invariant_of_steps (fun _ _ h => Queue.step h) hrun hstart
  refine ⟨⟨_, hwritten.symm⟩, ?_⟩
  rw [hwf.isEmpty_iff, ← length_unread, List.length_eq_zero_iff, hwritten, List.self_eq_append_right]

/-- Three bytes through a ring of two slots: the indices go around. -/
theorem fifo_two_slots : ∃ s : RingLog, s.read = ['a', 'b', 'c'] ∧ s.read <+: s.written ∧
    (s.buff.isEmpty = true ↔ s.read = s.written) := by
  have hrun : Relation.ReflTransGen (Step 2) (start 2 (fun _ => ' ') 0) _ :=
    .tail (.tail (.tail (.tail (.tail (.tail .refl (.write 'a' (by decide))) (.read rfl))
      (.write 'b' (by decide))) (.read rfl)) (.write 'c' (by decide))) (.read rfl)
  exact ⟨_, rfl, fifo 2 (by decide) _ _ _ hrun⟩

end RingLog

/-! ## What the ring says about itself -/

inductive RingCall
  | write (b : Char)
  | read
  | hasLostData

/-- A ring, which of its slots hold an unread byte, and what happened to it. -/
structure RingWatch where
  buff : CircularBuffer
  /-- The value of the index that `make_circular_buffer` does not set. -/
  oldWriteIdx : Nat
  unread : Nat → Bool
  writes : Nat
  reads : Nat
  /-- An unread byte was overwritten since `has_circular_buffer_lost_data` was called. -/
  overwritten : Bool
  everOverwritten : Bool
  /-- Since then a write found both counts at a multiple of the size, and it was the first one
  with the unset index at 1, or a later one on a ring of two slots. -/
  alarmed : Bool

namespace RingWatch

variable {size : Nat} {s t : RingWatch}

def start (size : Nat) (contents : Nat → Char) (oldWriteIdx : Nat) : RingWatch :=
  ⟨make size contents oldWriteIdx, oldWriteIdx, fun _ => false, 0, 0, false, false, false⟩

def alarms (s : RingWatch) : Bool :=
  s.writes % s.buff.bufferSize = 0 ∧ s.reads % s.buff.bufferSize = 0 ∧
    if s.writes = 0 then s.oldWriteIdx = 1 else s.buff.bufferSize = 2

def afterWrite (s : RingWatch) (b : Char) : RingWatch :=
  { s with
    buff := s.buff.write b
    unread := update s.unread s.buff.writeIdx true
    writes := s.writes + 1
    overwritten := s.overwritten || s.unread s.buff.writeIdx
    everOverwritten := s.everOverwritten || s.unread s.buff.writeIdx
    alarmed := s.alarmed || s.alarms }

def afterRead (s : RingWatch) : RingWatch :=
  { s with
    buff := s.buff.read.2
    unread := update s.unread s.buff.readIdx false
    reads := s.reads + 1 }

def afterQuestion (s : RingWatch) : RingWatch :=
  { s with buff := s.buff.hasLostData.2, overwritten := false, alarmed := false }

/-- A sequence of calls; the assertion of `read_circular_buffer` fails on an empty ring. -/
def calls (s : RingWatch) : List RingCall → Option RingWatch
  | [] => some s
  | .write b :: cs => (s.afterWrite b).calls cs
  | .read :: cs => if s.buff.isEmpty then none else s.afterRead.calls cs
  | .hasLostData :: cs => s.afterQuestion.calls cs

/-- The number of unread bytes is right as long as none was overwritten, and the answer about lost
data is right. -/
def Truthful (s : RingWatch) : Prop :=
  (s.everOverwritten = false → s.buff.writtenBytes = s.writes - s.reads) ∧
    (s.buff.hasLostData.1 = true ↔ s.overwritten = true)

structure Inv (size : Nat) (s : RingWatch) : Prop where
  size_eq : s.buff.bufferSize = size
  readIdx : s.buff.readIdx = s.reads % size
  writeIdx : s.buff.writeIdx = s.writes % size
  unset_lt : s.oldWriteIdx < 2 ^ 64
  oldWriteIdx : s.buff.oldWriteIdx = if s.writes = 0 then s.oldWriteIdx else (s.writes - 1) % size
  dataLost : s.buff.dataLost = s.alarmed
  /-- Every byte that was written and not read is in its slot, and there are at most `size`. -/
  held : s.everOverwritten = false → s.reads ≤ s.writes ∧ s.writes ≤ s.reads + size ∧
    ∀ j, s.reads ≤ j → j < s.writes → s.unread (j % size) = true

theorem Inv.read (h : Inv size s) (hne : s.buff.isEmpty = false) : Inv size s.afterRead := by
  refine ⟨h.size_eq, ?_, h.writeIdx, h.unset_lt, h.oldWriteIdx, h.dataLost, fun hever => ?_⟩
  · show (s.buff.readIdx + 1) % s.buff.bufferSize = _
    rw [h.readIdx, h.size_eq, Nat.mod_add_mod]
    rfl
  · obtain ⟨hle, hfit, hunread⟩ := h.held hever
    have hsome : s.reads ≠ s.writes := fun e => by
      rw [isEmpty, h.readIdx, h.writeIdx, e, beq_self_eq_true] at hne
      cases hne
    simp only [afterRead]
    refine ⟨by omega, by omega, fun j hlo hhi => ?_⟩
    have hslot : j % size ≠ s.reads % size := fun e => by
      have hzero := Nat.sub_mod_eq_zero_of_mod_eq e
      rw [Nat.mod_eq_of_lt (by omega)] at hzero
      omega
    rw [h.readIdx, update_of_ne hslot]
    exact hunread j (by omega) hhi

section

variable (hsize : 2 ≤ size) (h : Inv size s)

include hsize h

theorem Inv.writtenBytes_eq_iff (hever : s.everOverwritten = false) :
    s.buff.writtenBytes = s.writes - s.reads ↔ s.writes ≠ s.reads := by
  obtain ⟨hle, hfit, -⟩ := h.held hever
  have hr : s.reads % size < size := Nat.mod_lt _ (by omega)
  have hw : s.writes % size = (s.reads % size + (s.writes - s.reads)) % size := by
    rw [Nat.mod_add_mod, Nat.add_sub_cancel' hle]
  unfold writtenBytes
  rw [h.readIdx, h.writeIdx, h.size_eq, hw]
  by_cases hlast : s.reads % size + (s.writes - s.reads) < size
  · rw [Nat.mod_eq_of_lt hlast]
    split <;> omega
  · rw [Nat.mod_eq_sub_mod (by omega), Nat.mod_eq_of_lt (by omega)]
    split <;> omega

variable (hlt : size < 2 ^ 64)

include hlt

theorem Inv.test_eq_alarms :
    (sub64 s.buff.oldWriteIdx 1 == s.buff.readIdx && s.buff.writeIdx == s.buff.readIdx) =
      s.alarms := by
  have hr : s.reads % size < size := Nat.mod_lt _ (by omega)
  have hunset := h.unset_lt
  unfold alarms
  rw [Bool.eq_iff_iff, Bool.and_eq_true, beq_iff_eq, beq_iff_eq, decide_eq_true_eq, h.size_eq,
    h.readIdx, h.writeIdx, h.oldWriteIdx, sub64]
  by_cases hfirst : s.writes = 0
  · rw [if_pos hfirst, if_pos hfirst, hfirst, Nat.zero_mod]
    omega
  · -- the last write was one slot before the next one
    have hnext : s.writes % size = ((s.writes - 1) % size + 1) % size := by
      rw [Nat.mod_add_mod, Nat.sub_add_cancel (Nat.pos_of_ne_zero hfirst)]
    have hw : (s.writes - 1) % size < size := Nat.mod_lt _ (by omega)
    rw [if_neg hfirst, if_neg hfirst, hnext, next_eq hw]
    split <;> omega

theorem Inv.write (b : Char) : Inv size (s.afterWrite b) := by
  refine ⟨h.size_eq, h.readIdx, ?_, h.unset_lt, h.writeIdx, ?_, fun hever => ?_⟩
  · show (s.buff.writeIdx + 1) % s.buff.bufferSize = _
    rw [h.writeIdx, h.size_eq, Nat.mod_add_mod]
    rfl
  · show (s.buff.dataLost || _) = (s.alarmed || s.alarms)
    rw [h.dataLost, Inv.test_eq_alarms hsize h hlt]
  · obtain ⟨hever, hslot⟩ := Bool.or_eq_false_iff.1 hever
    obtain ⟨hle, hfit, hunread⟩ := h.held hever
    rw [h.writeIdx] at hslot
    have hroom : s.writes ≠ s.reads + size := by
      intro hfull
      rw [hfull, Nat.add_mod_right, hunread s.reads (Nat.le_refl _) (by omega)] at hslot
      cases hslot
    simp only [afterWrite]
    refine ⟨by omega, by omega, fun j hlo hhi => ?_⟩
    rw [h.writeIdx, update_apply]
    split
    · rfl
    · next hne =>
      have hj : j ≠ s.writes := fun e => hne (by rw [e])
      exact hunread j hlo (by omega)

end

theorem Inv.calls (hsize : 2 ≤ size) (hlt : size < 2 ^ 64) {cs : List RingCall} (h : Inv size s)
    (hcalls : s.calls cs = some t) : Inv size t := by
  induction cs generalizing s with
  | nil => cases hcalls; exact h
  | cons c cs ih =>
    cases c with
    | write b => exact ih (Inv.write hsize h hlt b) hcalls
    | read =>
      rw [RingWatch.calls] at hcalls
      split at hcalls
      · cases hcalls
      · next hne => exact ih (h.read (Bool.not_eq_true _ ▸ hne)) hcalls
    | hasLostData =>
      have hasked : Inv size s.afterQuestion :=
        ⟨h.size_eq, h.readIdx, h.writeIdx, h.unset_lt, h.oldWriteIdx, rfl, h.held⟩
      exact ih hasked hcalls

/-- After a sequence of calls the ring is right about itself exactly if a byte is unread (or one
was overwritten) and an unread byte was overwritten since the last question if and only if a write
raised the alarm. -/
theorem truthful_iff (size : Nat) (hsize : 2 ≤ size) (hlt : size < 2 ^ 64)
    (contents : Nat → Char) (oldWriteIdx : Nat) (hold : oldWriteIdx < 2 ^ 64) (cs : List RingCall)
    (t : RingWatch) (hcalls : (start size contents oldWriteIdx).calls cs = some t) :
    t.Truthful ↔ (t.everOverwritten = true ∨ t.writes ≠ t.reads) ∧ t.alarmed = t.overwritten := by
  have hstart : Inv size (start size contents oldWriteIdx) :=
    ⟨rfl, (Nat.zero_mod _).symm, (Nat.zero_mod _).symm, hold, rfl, rfl, fun _ => ⟨Nat.le_refl _,
      Nat.zero_le _, fun j _ hj => absurd hj (Nat.not_lt_zero j)⟩⟩
  have h := hstart.calls hsize hlt hcalls
  unfold Truthful
  rw [show t.buff.hasLostData.1 = t.alarmed from h.dataLost, ← Bool.eq_iff_iff]
  refine and_congr_left fun _ => ?_
  cases hever : t.everOverwritten with
  | true => simp
  | false => simpa using Inv.writtenBytes_eq_iff hsize h hever

/-- The fourth byte in a ring of three slots. -/
theorem truthful_iff_around :
    ∃ cs t, (start 3 (fun _ => ' ') 0).calls cs = some t ∧ t.writes = 4 ∧ t.Truthful := by
  have hcalls : (start 3 (fun _ => ' ') 0).calls
      [.write 'a', .read, .write 'b', .read, .write 'c', .read, .write 'd'] = some _ := rfl
  have h := truthful_iff 3 (by decide) (by decide) _ 0 (by decide) _ _ hcalls
  exact ⟨_, _, hcalls, rfl, h.2 ⟨.inr (by decide), rfl⟩⟩

/-- A new ring of four slots claims to hold four bytes, and after five writes it has lost one and
does not say so. -/
theorem new_ring_not_truthful :
    ∃ s t, (start 4 (fun _ => ' ') 0).calls [] = some s ∧ s.buff.writtenBytes = 4 ∧ ¬ s.Truthful ∧
      (start 4 (fun _ => ' ') 0).calls (List.replicate 5 (.write 'a')) = some t ∧
      t.overwritten = true ∧ t.buff.hasLostData.1 = false ∧ ¬ t.Truthful :=
  ⟨_, _, rfl, rfl, fun h => absurd (h.1 rfl) (by decide), rfl, by decide +kernel,
    by decide +kernel, fun h => absurd (h.2.2 (by decide +kernel)) (by decide +kernel)⟩

end RingWatch

end GarbageOS
