import GarbageOS.Timer.Pit

/-!
# The 8254 and what the driver writes to it

A control word goes to port 0x43 and programs a channel; the ports from 0x40 take the counter
bytes of the three channels, in the order of the access mode. `pit.c` writes its control word to
port 0x42, where it is a counter byte of channel 2, and the word is 0 besides. So channel 0 keeps
the mode and the access that it had, and the two bytes of the counter value go where these say.
-/

namespace GarbageOS

open Lib

inductive AccessMode where
  | low
  | high
  | lowHigh
deriving DecidableEq

/-- A channel of the device. With `lowHigh`, `highNext` says that the low byte `pendingLow` has
been written and the high byte is awaited. -/
structure PitChannel where
  mode : Nat
  access : AccessMode
  highNext : Bool
  pendingLow : BitVec 8
  reload : Nat

namespace PitChannel

def writeByte (channel : PitChannel) (value : BitVec 8) : PitChannel :=
  match channel.access with
  | .low => { channel with reload := value.toNat }
  | .high => { channel with reload := value.toNat * 2 ^ 8 }
  | .lowHigh =>
    if channel.highNext then
      { channel with highNext := false
                     reload := channel.pendingLow.toNat + value.toNat * 2 ^ 8 }
    else { channel with highNext := true, pendingLow := value }

/-- A control word for the channel. Access mode 0 only latches the count; modes 6 and 7 are 2
and 3. -/
def control (channel : PitChannel) (word : BitVec 8) : PitChannel :=
  let mode := word.toNat / 2 % 8
  let mode := if mode ≥ 6 then mode - 4 else mode
  match word.toNat / 16 % 4 with
  | 1 => { channel with mode, access := .low, highNext := false }
  | 2 => { channel with mode, access := .high, highNext := false }
  | 3 => { channel with mode, access := .lowHigh, highNext := false }
  | _ => channel

end PitChannel

structure Pit8254 where
  channel0 : PitChannel
  channel1 : PitChannel
  channel2 : PitChannel

namespace Pit8254

/-- A byte written to a port; channel 3 in a control word is the read-back command. -/
def write (device : Pit8254) (w : PortWrite) : Pit8254 :=
  match w.port with
  | 0x40 => { device with channel0 := device.channel0.writeByte w.value }
  | 0x41 => { device with channel1 := device.channel1.writeByte w.value }
  | 0x42 => { device with channel2 := device.channel2.writeByte w.value }
  | 0x43 =>
    match w.value.toNat / 64 with
    | 0 => { device with channel0 := device.channel0.control w.value }
    | 1 => { device with channel1 := device.channel1.control w.value }
    | 2 => { device with channel2 := device.channel2.control w.value }
    | _ => device
  | _ => device

def writeAll (device : Pit8254) (writes : List PortWrite) : Pit8254 := writes.foldl write device

end Pit8254

/-- The channel is a rate generator that reloads `count`. -/
structure PitChannel.RateGenerator (channel : PitChannel) (count : Nat) : Prop where
  mode_eq : channel.mode = 2
  access_eq : channel.access = .lowHigh
  reload_eq : channel.reload = count

/-- The state of a channel in which two counter bytes are enough to make it a rate generator: they
are taken as low and high byte, or the low byte is already there and both bytes are equal to it. -/
def PitChannel.Ready (channel : PitChannel) (count : Nat) : Prop :=
  channel.mode = 2 ∧ channel.access = .lowHigh ∧
    (channel.highNext = false ∨ count = 257 * channel.pendingLow.toNat)

namespace PitChannel

theorem writeByte_mode (channel : PitChannel) (value : BitVec 8) :
    (channel.writeByte value).mode = channel.mode ∧
      (channel.writeByte value).access = channel.access := by
  unfold writeByte
  split
  · exact ⟨rfl, rfl⟩
  · exact ⟨rfl, rfl⟩
  · split <;> exact ⟨rfl, rfl⟩

theorem reload_writeByte_writeByte {channel : PitChannel} (haccess : channel.access = .lowHigh)
    (low high : BitVec 8) :
    ((channel.writeByte low).writeByte high).reload =
      if channel.highNext then channel.pendingLow.toNat + low.toNat * 2 ^ 8
      else low.toNat + high.toNat * 2 ^ 8 := by
  cases hnext : channel.highNext with
  | false =>
    have hfirst : channel.writeByte low =
        { channel with highNext := true, pendingLow := low } := by
      simp only [writeByte, haccess, hnext]
      rfl
    rw [hfirst]
    simp only [writeByte, haccess]
    rfl
  | true =>
    have hfirst : channel.writeByte low = { channel with
        highNext := false, reload := channel.pendingLow.toNat + low.toNat * 2 ^ 8 } := by
      simp only [writeByte, haccess, hnext]
      rfl
    rw [hfirst]
    simp only [writeByte, haccess]
    rfl

theorem writeByte_writeByte_iff (channel : PitChannel) {count : Nat} (hcount : count < 2 ^ 16) :
    ((channel.writeByte (BitVec.ofNat 8 count)).writeByte
        (BitVec.ofNat 8 (count / 2 ^ 8))).RateGenerator count ↔ channel.Ready count := by
  have hkeeps : ∀ low high, ((channel.writeByte low).writeByte high).mode = channel.mode ∧
      ((channel.writeByte low).writeByte high).access = channel.access := by
    intro low high
    have h₁ := channel.writeByte_mode low
    have h₂ := (channel.writeByte low).writeByte_mode high
    exact ⟨h₂.1.trans h₁.1, h₂.2.trans h₁.2⟩
  have hreload : channel.access = .lowHigh →
      (((channel.writeByte (BitVec.ofNat 8 count)).writeByte
          (BitVec.ofNat 8 (count / 2 ^ 8))).reload = count ↔
        (channel.highNext = false ∨ count = 257 * channel.pendingLow.toNat)) := by
    intro haccess
    have hpending := channel.pendingLow.isLt
    rw [reload_writeByte_writeByte haccess]
    simp only [BitVec.toNat_ofNat]
    cases channel.highNext with
    | false =>
      refine iff_of_true ?_ (.inl rfl)
      rw [if_neg (by decide)]
      omega
    | true =>
      rw [if_pos rfl]
      constructor
      · intro h
        right
        omega
      · rintro (h | h)
        · cases h
        · omega
  constructor
  · rintro ⟨hmode, haccess, h⟩
    rw [(hkeeps _ _).1] at hmode
    rw [(hkeeps _ _).2] at haccess
    exact ⟨hmode, haccess, (hreload haccess).1 h⟩
  · rintro ⟨hmode, haccess, h⟩
    exact ⟨(hkeeps _ _).1.trans hmode, (hkeeps _ _).2.trans haccess, (hreload haccess).2 h⟩

end PitChannel

/-- The driver never reaches the control register: channel 0 ends as a rate generator with the
counter value exactly if it was one before and takes the two bytes as they are meant. -/
theorem pit_programmed_iff {f : Nat} (hf : 1 ≤ f) (lapicId : Nat) (vector : BitVec 8)
    (device : Pit8254) :
    (∃ pit writes c, initializePITTimer lapicId f vector = .ok (pit, writes) ∧
        c = getCounterValueFromFrequency f ∧
        pit.interruptFrequency = getFrequencyHzFromCounterValue c ∧
        (device.writeAll writes).channel0.RateGenerator c) ↔
      device.channel0.Ready (countFor f) := by
  have hlt : countFor f < 2 ^ 16 := Nat.lt_succ_of_le (countFor_bounds hf).2
  rw [← device.channel0.writeByte_writeByte_iff hlt, ← getCounterValueFromFrequency_eq hf]
  constructor
  · rintro ⟨pit, writes, c, hrun, rfl, -, h⟩
    obtain ⟨rfl, rfl⟩ := Prod.mk.inj (Except.ok.inj hrun)
    exact h
  · intro h
    exact ⟨_, _, _, rfl, rfl, rfl, h⟩

/-- The device as a firmware may leave it: the system timer in mode 3 at 18.2 Hz. -/
def firmwarePit : Pit8254 where
  channel0 := ⟨3, .lowHigh, false, 0, 0⟩
  channel1 := ⟨2, .low, false, 0, 18⟩
  channel2 := ⟨3, .lowHigh, false, 0, 0⟩

/-- The device with channel 0 in mode 2 already. -/
def ratePit : Pit8254 := { firmwarePit with channel0 := ⟨2, .lowHigh, false, 0, 0⟩ }

theorem pit_programmed_ratePit :
    ∃ pit writes c, initializePITTimer 0 1000 0x41 = .ok (pit, writes) ∧
      c = getCounterValueFromFrequency 1000 ∧
      pit.interruptFrequency = getFrequencyHzFromCounterValue c ∧
      (ratePit.writeAll writes).channel0.RateGenerator c :=
  (pit_programmed_iff (by decide) 0 0x41 ratePit).2 ⟨rfl, rfl, .inl rfl⟩

/-- From the state before channel 0 stays in mode 3, and channel 2 has a byte more. -/
theorem pit_not_programmed :
    ∃ pit writes, initializePITTimer 0 1000 0x41 = .ok (pit, writes) ∧
      (firmwarePit.writeAll writes).channel0.mode = 3 ∧
      (firmwarePit.writeAll writes).channel2.highNext = true :=
  ⟨_, _, rfl, rfl, rfl⟩

end GarbageOS
