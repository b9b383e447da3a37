import GarbageOS.Kernel.Defs
import GarbageOS.Lib.Nearest

/-!
# `pit.c`: the frequency of the timer

A channel counts `PIT_FREQ_HZ` down from a 16-bit value, so a wanted frequency is turned into a
counter value and that into the frequency the timer really has. Both roundings compare the
remainder with half of `PIT_FREQ_HZ` and not with half of the divisor: the remainder is never that
large, unless the divisor is larger than `PIT_FREQ_HZ`. So both are roundings down.

Installing the interrupt handler and the entry of the I/O APIC are left out.
-/

namespace GarbageOS

open Lib

def pitFreqHz : Nat := 1193182

def pitChannel0DataPort : Nat := 0x40

def pitModeCommandPort : Nat := 0x42

inductive ReadWriteMode where
  | counterLatch
  | lsbOnly
  | msbOnly
  | lsbFirstMsbThen

def ReadWriteMode.code : ReadWriteMode → BitVec 8
  | counterLatch => 0
  | lsbOnly => 1
  | msbOnly => 2
  | lsbFirstMsbThen => 3

/-- An `outb`. -/
structure PortWrite where
  port : Nat
  value : BitVec 8
deriving DecidableEq

/-- Each field is assigned to the word and not added to it. -/
def makeControlWord (selectCounter : BitVec 8) (readWrite : ReadWriteMode) (mode : BitVec 8) :
    Except Stop (BitVec 8) := do
  if ¬mode ≤ 5 then throw (.panic .failedAssert)
  if ¬selectCounter ≤ 4 then throw (.panic .failedAssert)
  let mut controlWord : BitVec 8 := 0
  controlWord := (mode &&& 7) <<< 1
  controlWord := (readWrite.code &&& 3) <<< 4
  controlWord := (selectCounter &&& 3) <<< 6
  return controlWord

def setMode2OnChannel0 (counterValue : Nat) : Except Stop (List PortWrite) := do
  let controlWord ← makeControlWord 0 .lsbFirstMsbThen 2
  return [⟨pitModeCommandPort, controlWord⟩,
    ⟨pitChannel0DataPort, BitVec.ofNat 8 counterValue⟩,
    ⟨pitChannel0DataPort, BitVec.ofNat 8 (counterValue / 2 ^ 8)⟩]

def getCounterValueFromFrequency (targetFrequencyHz : Nat) : Nat :=
  let counterValue := pitFreqHz / targetFrequencyHz
  let remainder := pitFreqHz % targetFrequencyHz
  let counterValue := if remainder > pitFreqHz / 2 then counterValue + 1 else counterValue
  let counterValue := if counterValue > 0xffff then 0xffff else counterValue
  counterValue % 2 ^ 16

def getFrequencyHzFromCounterValue (counterValue : Nat) : Nat :=
  let freq := pitFreqHz / counterValue
  let remainder := pitFreqHz % counterValue
  if remainder > pitFreqHz / 2 then freq + 1 else freq

structure PIT where
  tickCounter : Nat
  interruptFrequency : Nat
  interruptVector : BitVec 8
  interruptReceiverApicId : Nat
  channel0Initialized : Bool
  channel2Initialized : Bool

/-- `initialize_PIT_timer`: the timer it fills in and the bytes it writes to the device. -/
def initializePITTimer (lapicId targetFrequencyHz : Nat) (interruptVector : BitVec 8) :
    Except Stop (PIT × List PortWrite) := do
  let counterValue := getCounterValueFromFrequency targetFrequencyHz
  let interruptFrequency := getFrequencyHzFromCounterValue counterValue
  let writes ← setMode2OnChannel0 counterValue
  return ({ tickCounter := 0
            interruptFrequency
            interruptVector
            interruptReceiverApicId := lapicId
            channel0Initialized := false
            channel2Initialized := false }, writes)

/-! ## The values -/

def countFor (f : Nat) : Nat := if pitFreqHz < f then 1 else min (pitFreqHz / f) 0xffff

section

variable {f c : Nat}

theorem getCounterValueFromFrequency_eq (hf : 1 ≤ f) :
    getCounterValueFromFrequency f = countFor f := by
  unfold getCounterValueFromFrequency countFor
  by_cases hlt : pitFreqHz < f
  · rw [Nat.div_eq_of_lt hlt, Nat.mod_eq_of_lt hlt, if_pos hlt]
    rfl
  · have hhalf := two_mul_mod_lt (by omega) (Nat.le_of_not_lt hlt)
    have hno : ¬pitFreqHz % f > pitFreqHz / 2 := by omega
    simp only [if_neg hno, if_neg hlt]
    generalize pitFreqHz / f = q
    split <;> omega

theorem countFor_bounds (hf : 1 ≤ f) : 1 ≤ countFor f ∧ countFor f ≤ 0xffff := by
  unfold countFor
  split
  · decide
  · rename_i hlt
    have hpos : 0 < pitFreqHz / f := Nat.div_pos (Nat.le_of_not_lt hlt) hf
    omega

theorem getFrequencyHzFromCounterValue_eq (hpos : 1 ≤ c) (hle : c ≤ 0xffff) :
    getFrequencyHzFromCounterValue c = pitFreqHz / c := by
  have hmod := Nat.mod_lt pitFreqHz hpos
  refine if_neg ?_
  have hhalf : 0xffff ≤ pitFreqHz / 2 := by decide
  omega

end

/-! ## Rounding -/

/-- The counter value is the nearest one in range, and the reported frequency is the nearest to
the one it gives. -/
structure RightlyRounded (f c frequency : Nat) : Prop where
  counter_pos : 1 ≤ c
  counter_le : c ≤ 65535
  counter_nearest : ∃ q, Nearest pitFreqHz f q ∧ c = max 1 (min q 65535)
  frequency_nearest : Nearest pitFreqHz c frequency

theorem clampedNearest_div_iff {f : Nat} (hf : 1 ≤ f) (hpos : 1 ≤ pitFreqHz / f)
    (hle : pitFreqHz / f < 65535) :
    (∃ q, Nearest pitFreqHz f q ∧ pitFreqHz / f = max 1 (min q 65535)) ↔
      2 * (pitFreqHz % f) ≤ f := by
  rw [← nearest_div_iff hf]
  constructor
  · rintro ⟨q, hq, heq⟩
    obtain rfl : q = pitFreqHz / f := by
      rcases hq.eq_or_eq_succ hf with h | h <;> omega
    exact hq
  · intro h
    exact ⟨_, h, by omega⟩

theorem rightlyRounded_countFor_iff {f : Nat} (hf : 1 ≤ f) :
    RightlyRounded f (countFor f) (pitFreqHz / countFor f) ↔
      f ≤ 18 ∨ pitFreqHz < f ∨
        2 * (pitFreqHz % f) ≤ f ∧ 2 * (pitFreqHz % (pitFreqHz / f)) ≤ pitFreqHz / f := by
  obtain ⟨hpos, hle⟩ := countFor_bounds hf
  obtain ⟨q, hq, hqle, hqge⟩ := exists_nearest (n := pitFreqHz) hf
  by_cases hlow : f ≤ 18
  · -- the quotient is out of range, and the largest value gives 18 Hz
    have hbig : 65535 ≤ pitFreqHz / f :=
      Nat.le_trans (by decide : 65535 ≤ pitFreqHz / 18) (Nat.div_le_div_left hlow hf)
    have hhigh : ¬pitFreqHz < f := fun h => absurd (Nat.lt_of_lt_of_le h hlow) (by decide)
    have hc : countFor f = 65535 := by
      rw [countFor, if_neg hhigh]
      omega
    refine iff_of_true ?_ (.inl hlow)
    rw [hc]
    exact ⟨by decide, by decide, ⟨q, hq, by omega⟩, (nearest_div_iff (by decide)).2 (by decide)⟩
  · by_cases hhigh : pitFreqHz < f
    · have hc : countFor f = 1 := if_pos hhigh
      have hzero : pitFreqHz / f = 0 := Nat.div_eq_of_lt hhigh
      refine iff_of_true ?_ (.inr (.inl hhigh))
      rw [hc]
      exact ⟨by decide, by decide, ⟨q, hq, by omega⟩, (nearest_div_iff (by decide)).2 (by decide)⟩
    · have hlt : pitFreqHz / f < 65535 :=
        Nat.lt_of_le_of_lt (Nat.div_le_div_left (by omega : 19 ≤ f) (by decide))
          (by decide : pitFreqHz / 19 < 65535)
      have hc : countFor f = pitFreqHz / f := by
        rw [countFor, if_neg hhigh]
        omega
      rw [hc] at hpos hle ⊢
      constructor
      · intro h
        exact .inr (.inr ⟨(clampedNearest_div_iff hf hpos hlt).1 h.counter_nearest,
          (nearest_div_iff hpos).1 h.frequency_nearest⟩)
      · rintro (h | h | ⟨hcount, hfreq⟩)
        · exact absurd h hlow
        · exact absurd h hhigh
        · exact ⟨hpos, hle, (clampedNearest_div_iff hf hpos hlt).2 hcount,
            (nearest_div_iff hpos).2 hfreq⟩

/-- `initialize_PIT_timer` rounds right exactly for these frequencies. -/
theorem pit_rounds_right_iff {f : Nat} (hf : 1 ≤ f) (lapicId : Nat) (vector : BitVec 8) :
    (∃ pit writes, initializePITTimer lapicId f vector = .ok (pit, writes) ∧
        RightlyRounded f (getCounterValueFromFrequency f) pit.interruptFrequency) ↔
      f ≤ 18 ∨ pitFreqHz < f ∨
        2 * (pitFreqHz % f) ≤ f ∧ 2 * (pitFreqHz % (pitFreqHz / f)) ≤ pitFreqHz / f := by
  obtain ⟨hpos, hle⟩ := countFor_bounds hf
  rw [← rightlyRounded_countFor_iff hf, ← getFrequencyHzFromCounterValue_eq hpos hle,
    ← getCounterValueFromFrequency_eq hf]
  constructor
  · rintro ⟨pit, writes, hrun, h⟩
    obtain ⟨rfl, rfl⟩ := Prod.mk.inj (Except.ok.inj hrun)
    exact h
  · exact fun h => ⟨_, _, rfl, h⟩

theorem pit_rounds_right_1000 :
    ∃ pit writes, initializePITTimer 0 1000 0x41 = .ok (pit, writes) ∧
      RightlyRounded 1000 (getCounterValueFromFrequency 1000) pit.interruptFrequency :=
  (pit_rounds_right_iff (by decide) 0 0x41).2 (.inr (.inr (by decide)))

/-- For 600000 Hz the counter value is 1, although 1193182 / 600000 is nearly 2. -/
theorem pit_rounds_600000_wrong :
    getCounterValueFromFrequency 600000 = 1 ∧
      ∀ pit writes, initializePITTimer 0 600000 0x41 = .ok (pit, writes) →
        ¬RightlyRounded 600000 (getCounterValueFromFrequency 600000) pit.interruptFrequency := by
  refine ⟨by decide, fun pit writes _ h => ?_⟩
  have hcount := (clampedNearest_div_iff (by decide) (by decide) (by decide)).1 h.counter_nearest
  exact absurd hcount (by decide)

end GarbageOS
