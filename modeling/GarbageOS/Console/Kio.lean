import GarbageOS.Console.CircularBuffer
import Mathlib.Data.Nat.Digits.Lemmas

/-!
# `kio.c`: the text console

Text is put into a ring of 4096 characters. The ring is drained to the screen by
`kio_flush`, by `putchar` when asked to, and after a printing call that leaves at
least 32 characters in it, but not while a call is printing. The formatting functions are modelled
by the text they put. Drawing is left out: a character handed to
`unsync_write_char` is recorded.
-/

namespace GarbageOS

open Lib

def kioCircularBufferSize : Nat := 4096

abbrev Text := List Char

/-! ## Formatting -/

/-- `fill_digit_buffer`: the digits it stores, the least significant first, in a
buffer with `room` left. -/
def fillDigitBuffer (base : Nat) : (room : Nat) → (n : Nat) → Except Stop (List Nat)
  | 0, n => if n = 0 then .ok [] else .error (.panic .failedAssert)
  | room + 1, n =>
    if n = 0 then .ok []
    else do
      let digits ← fillDigitBuffer base room (n / base)
      return n % base :: digits

/-- The buffer behind the stored digits is zero. -/
def digitBuffer (bufferSize : Nat) (digits : List Nat) : List Nat :=
  digits ++ List.replicate (bufferSize - digits.length) 0

def decDigit (digit : Nat) : Char := Char.ofNat ('0'.toNat + digit)

def hexDigit (digit : Nat) : Char :=
  if digit ≥ 10 then Char.ofNat ('A'.toNat + digit - 10) else Char.ofNat ('0'.toNat + digit)

def printUint64HexText (number : Nat) : Except Stop Text := do
  let digits ← fillDigitBuffer 16 16 number
  return ['0', 'x'] ++ (digitBuffer 16 digits).reverse.map hexDigit

def printUint64DecText (n : Nat) : Except Stop Text := do
  let digits ← fillDigitBuffer 10 128 n
  return (if n = 0 then ['0'] else []) ++ digits.reverse.map decDigit

/-- `unsync_print_uintmax_hex`: the loop runs over the upper `2 * sizeBytes` digits. -/
def printUintmaxHexText (number sizeBytes : Nat) : Except Stop Text :=
  if sizeBytes ≤ 8 ∧ 16 ≥ sizeBytes * 2 then do
    let digits ← fillDigitBuffer 16 16 number
    return ['0', 'x'] ++ ((digitBuffer 16 digits).reverse.take (sizeBytes * 2)).map hexDigit
  else .error (.panic .failedAssert)

def printUintmaxHexNotPaddedText (number sizeBytes : Nat) : Except Stop Text :=
  if sizeBytes ≤ 8 then do
    let digits ← fillDigitBuffer 16 16 number
    return ['0', 'x'] ++ digits.reverse.map hexDigit
  else .error (.panic .failedAssert)

def printUintmaxDecText (n : Nat) : Except Stop Text := do
  let digits ← fillDigitBuffer 10 128 n
  return (if n = 0 then ['0'] else []) ++ digits.reverse.map decDigit

def substrCmp : (string substr : Text) → Bool
  | _, [] => true
  | [], _ :: _ => false
  | c :: string, d :: substr => c == d && substrCmp string substr

/-- The variable arguments: the word in each argument slot, and the string in
memory at an address. -/
structure VaList where
  slot : Nat → Nat
  stringAt : Nat → Text

def VaList.uint64 (va : VaList) (next : Nat) : Nat := va.slot next % 2 ^ 64

def VaList.uint32 (va : VaList) (next : Nat) : Nat := va.slot next % 2 ^ 32

/-- The state of `printf` in a directive: the text put by it, the rest of the
format string and the next argument. -/
structure Directive where
  text : Text
  format : Text
  next : Nat

/-- A conversion that takes the next argument and moves two characters ahead. -/
def Directive.convert (d : Directive) (text : Except Stop Text) : Except Stop Directive := do
  return ⟨d.text ++ (← text), d.format.drop 2, d.next + 1⟩

/-- The 64-bit conversions, the first chain of tests. -/
def Directive.convert64 (va : VaList) (d : Directive) : Except Stop Directive :=
  if substrCmp d.format "u64".toList then d.convert (printUintmaxDecText (va.uint64 d.next))
  else if substrCmp d.format "h64".toList then d.convert (printUintmaxHexText (va.uint64 d.next) 8)
  else if substrCmp d.format "x64".toList then
    d.convert (printUintmaxHexNotPaddedText (va.uint64 d.next) 8)
  else .ok d

/-- The second chain; no `else` joins it to the first, so it is tested on what the
first one leaves. -/
def Directive.convert32 (va : VaList) (d : Directive) : Except Stop Directive :=
  if substrCmp d.format "u32".toList then d.convert (printUintmaxDecText (va.uint32 d.next))
  else if substrCmp d.format "h32".toList then d.convert (printUintmaxHexText (va.uint32 d.next) 4)
  else if substrCmp d.format "x32".toList then
    d.convert (printUintmaxHexNotPaddedText (va.uint32 d.next) 4)
  else if substrCmp d.format "s".toList then
    .ok ⟨d.text ++ va.stringAt (va.uint64 d.next), d.format, d.next + 1⟩
  else .ok d

/-- The loop of `printf`; each round consumes a character of the format. -/
def printfFrom (va : VaList) : (steps : Nat) → (tokenFound : Bool) → (format : Text) →
    (next : Nat) → Except Stop Text
  | _, _, [], _ => .ok []
  | 0, _, _ :: _, _ => .error .loops
  | steps + 1, true, c :: format, next =>
    if c = '%' then do return '%' :: (← printfFrom va steps false format next)
    else do
      let d ← Directive.convert64 va ⟨[], c :: format, next⟩
      let d ← d.convert32 va
      return d.text ++ (← printfFrom va steps false d.format.tail d.next)
  | steps + 1, false, c :: format, next =>
    if c = '%' then printfFrom va steps true format next
    else do return c :: (← printfFrom va steps false format next)

def printfText (va : VaList) (format : Text) : Except Stop Text :=
  printfFrom va format.length false format 0

/-! ## The console -/

/-- `kio_state` as far as text goes, with the characters put and the characters
handed to `unsync_write_char` so far. -/
structure KioState where
  charBuffer : CircularBuffer
  written : Text
  shown : Text

abbrev KioM := EStateM Stop KioState

def initKio (contents : Nat → Char) (oldWriteIdx : Nat) : KioState :=
  { charBuffer := .make kioCircularBufferSize contents oldWriteIdx
    written := []
    shown := [] }

def KioState.show1 (s : KioState) : KioState :=
  { s with charBuffer := s.charBuffer.read.2, shown := s.shown ++ [s.charBuffer.read.1] }

def KioState.put (s : KioState) (c : Char) : KioState :=
  { s with charBuffer := s.charBuffer.write c, written := s.written ++ [c] }

/-- The loop of `unsync_flush`. -/
def drain : (steps : Nat) → KioM Unit
  | 0 => throw .loops
  | steps + 1 => do
    let s ← get
    if s.charBuffer.isEmpty then pure ()
    else do
      modify KioState.show1
      drain steps

def unsyncFlush : KioM Unit := drain kioCircularBufferSize

def unsyncPutchar (c : Char) (flush : Bool) : KioM Unit := do
  modify fun s => s.put c
  onlyIf flush unsyncFlush

def unsyncOptFlush : KioM Unit := do
  let maxChars := 32
  let s ← get
  onlyIf (s.charBuffer.writtenBytes ≥ maxChars) unsyncFlush

def unsyncPrint : (str : Text) → KioM Unit
  | [] => pure ()
  | c :: str => do
    unsyncPutchar c false
    unsyncPrint str

/-- A printing call: put the text it formats, then flush if there is enough of it. -/
def printText (text : Except Stop Text) : KioM Unit := do
  match text with
  | .ok text => do
    unsyncPrint text
    unsyncOptFlush
  | .error e => throw e

inductive KioCall where
  | putchar (c : Char) (flush : Bool)
  | print (str : Text)
  | printf (va : VaList) (format : Text)
  | printUint64Dec (n : BitVec 64)
  | printUint64Hex (n : BitVec 64)
  | kioFlush

namespace KioCall

def text : KioCall → Except Stop Text
  | putchar c _ => .ok [c]
  | print str => .ok str
  | printf va format => printfText va format
  | printUint64Dec n => printUint64DecText n.toNat
  | printUint64Hex n => printUint64HexText n.toNat
  | kioFlush => .ok []

def exec : KioCall → KioM Unit
  | putchar c flush => unsyncPutchar c flush
  | kioFlush => unsyncFlush
  | call => printText call.text

def execAll : List KioCall → KioM Unit
  | [] => pure ()
  | call :: calls => do
    call.exec
    execAll calls

end KioCall

/-! ## Every call has a text -/

theorem fillDigitBuffer_eq_digits {base room n : Nat} (hb : 1 < base) (h : n < base ^ room) :
    fillDigitBuffer base room n = .ok (Nat.digits base n) := by
  induction room generalizing n with
  | zero =>
    obtain rfl : n = 0 := by simpa using h
    simp [fillDigitBuffer]
  | succ room ih =>
    rw [fillDigitBuffer]
    rcases Nat.eq_zero_or_pos n with rfl | hn
    · simp
    · have hlt : n / base < base ^ room := by
        apply Nat.div_lt_of_lt_mul
        rwa [Nat.pow_succ, Nat.mul_comm] at h
      rw [if_neg (Nat.ne_of_gt hn), ih hlt, Nat.digits_def' hb hn]
      rfl

theorem hexDigits_eq {n : Nat} (h : n < 2 ^ 64) : fillDigitBuffer 16 16 n = .ok (Nat.digits 16 n) :=
  fillDigitBuffer_eq_digits (by decide) (Nat.lt_of_lt_of_le h (by decide))

theorem decDigits_eq {n : Nat} (h : n < 2 ^ 64) : fillDigitBuffer 10 128 n = .ok (Nat.digits 10 n) :=
  fillDigitBuffer_eq_digits (by decide) (Nat.lt_of_lt_of_le h (by decide))

theorem printUintmaxDecText_ok {n : Nat} (h : n < 2 ^ 64) :
    ∃ text, printUintmaxDecText n = .ok text := by
  have hd := decDigits_eq h
  exact ⟨_, by rw [printUintmaxDecText, hd]; rfl⟩

theorem printUintmaxHexText_ok {n size : Nat} (h : n < 2 ^ 64) (hs : size ≤ 8) :
    ∃ text, printUintmaxHexText n size = .ok text := by
  have hd := hexDigits_eq h
  exact ⟨_, by rw [printUintmaxHexText, if_pos ⟨hs, by omega⟩, hd]; rfl⟩

theorem printUintmaxHexNotPaddedText_ok {n size : Nat} (h : n < 2 ^ 64) (hs : size ≤ 8) :
    ∃ text, printUintmaxHexNotPaddedText n size = .ok text := by
  have hd := hexDigits_eq h
  exact ⟨_, by rw [printUintmaxHexNotPaddedText, if_pos hs, hd]; rfl⟩

theorem Directive.convert_ok {d : Directive} {text : Except Stop Text} (h : ∃ t, text = .ok t) :
    ∃ d', d.convert text = .ok d' ∧ d'.format.length ≤ d.format.length := by
  obtain ⟨t, rfl⟩ := h
  exact ⟨_, rfl, by simp⟩

theorem VaList.uint64_lt (va : VaList) (next : Nat) : va.uint64 next < 2 ^ 64 :=
  Nat.mod_lt _ (by decide)

theorem VaList.uint32_lt (va : VaList) (next : Nat) : va.uint32 next < 2 ^ 64 :=
  Nat.lt_of_lt_of_le (Nat.mod_lt _ (by decide)) (by decide : 2 ^ 32 ≤ 2 ^ 64)

theorem Directive.convert64_ok (va : VaList) (d : Directive) :
    ∃ d', d.convert64 va = .ok d' ∧ d'.format.length ≤ d.format.length := by
  have hlt := va.uint64_lt d.next
  unfold Directive.convert64
  split
  · exact convert_ok (printUintmaxDecText_ok hlt)
  split
  · exact convert_ok (printUintmaxHexText_ok hlt (by decide))
  split
  · exact convert_ok (printUintmaxHexNotPaddedText_ok hlt (by decide))
  · exact ⟨d, rfl, Nat.le_refl _⟩

theorem Directive.convert32_ok (va : VaList) (d : Directive) :
    ∃ d', d.convert32 va = .ok d' ∧ d'.format.length ≤ d.format.length := by
  have hlt := va.uint32_lt d.next
  unfold Directive.convert32
  split
  · exact convert_ok (printUintmaxDecText_ok hlt)
  split
  · exact convert_ok (printUintmaxHexText_ok hlt (by decide))
  split
  · exact convert_ok (printUintmaxHexNotPaddedText_ok hlt (by decide))
  split
  · exact ⟨_, rfl, Nat.le_refl _⟩
  · exact ⟨d, rfl, Nat.le_refl _⟩

theorem printfFrom_ok (va : VaList) {steps : Nat} (token : Bool) {format : Text} (next : Nat)
    (h : format.length ≤ steps) : ∃ text, printfFrom va steps token format next = .ok text := by
  induction steps generalizing token format next with
  | zero =>
    obtain rfl : format = [] := List.length_eq_zero_iff.1 (by omega)
    exact ⟨[], rfl⟩
  | succ steps ih =>
    cases format with
    | nil => exact ⟨[], by cases token <;> rfl⟩
    | cons c format =>
      have hlen : format.length ≤ steps := by simpa using h
      cases token with
      | false =>
        rw [printfFrom]
        split
        · exact ih true next hlen
        · obtain ⟨text, ht⟩ := ih false next hlen
          exact ⟨c :: text, by rw [ht]; rfl⟩
      | true =>
        rw [printfFrom]
        split
        · obtain ⟨text, ht⟩ := ih false next hlen
          exact ⟨'%' :: text, by rw [ht]; rfl⟩
        · obtain ⟨d₁, h₁, hl₁⟩ := Directive.convert64_ok va ⟨[], c :: format, next⟩
          obtain ⟨d₂, h₂, hl₂⟩ := Directive.convert32_ok va d₁
          have hl : d₂.format.tail.length ≤ steps := by
            simp only [List.length_cons, List.length_tail] at hl₁ ⊢
            omega
          obtain ⟨text, ht⟩ := ih false d₂.next hl
          refine ⟨d₂.text ++ text, ?_⟩
          rw [h₁]
          show (d₁.convert32 va >>= _) = _
          rw [h₂]
          show (printfFrom va steps false d₂.format.tail d₂.next >>= _) = _
          rw [ht]
          rfl

theorem KioCall.text_ok (call : KioCall) : ∃ text, call.text = .ok text := by
  cases call with
  | putchar c flush => exact ⟨[c], rfl⟩
  | print str => exact ⟨str, rfl⟩
  | printf va format => exact printfFrom_ok va false 0 (Nat.le_refl _)
  | printUint64Dec n =>
    have hd := decDigits_eq n.isLt
    exact ⟨_, by rw [text, printUint64DecText, hd]; rfl⟩
  | printUint64Hex n =>
    have hd := hexDigits_eq n.isLt
    exact ⟨_, by rw [text, printUint64HexText, hd]; rfl⟩
  | kioFlush => exact ⟨[], rfl⟩

end GarbageOS
