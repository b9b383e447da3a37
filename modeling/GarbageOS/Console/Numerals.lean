import GarbageOS.Console.Lossless

/-!
# Numbers as text

`fill_digit_buffer` stores the digits of a number, the least significant first, and the printing
loops read them backwards. `Numeral` is what the text has to be: digits of the base, at least one,
with the number as their value.
-/

namespace GarbageOS

open Lib

def digitValue (c : Char) : Option Nat :=
  if '0' ≤ c ∧ c ≤ '9' then some (c.toNat - '0'.toNat)
  else if 'A' ≤ c ∧ c ≤ 'F' then some (c.toNat - 'A'.toNat + 10)
  else none

/-- The text is one digit or more, the most significant first, with the value `n`. -/
def Numeral (base : Nat) (text : Text) (n : Nat) : Prop :=
  text ≠ [] ∧ ∃ ds : List Nat, text.map digitValue = ds.map some ∧ (∀ d ∈ ds, d < base) ∧
    Nat.ofDigits base ds.reverse = n

/-- A decimal numeral without leading zeros. -/
def CanonicalDecimal (text : Text) (n : Nat) : Prop :=
  Numeral 10 text n ∧ (text.head? = some '0' → text = ['0'])

theorem Numeral.unique {base m n : Nat} {text : Text} (hm : Numeral base text m)
    (hn : Numeral base text n) : m = n := by
  obtain ⟨-, ds, hds, -, rfl⟩ := hm
  obtain ⟨-, es, hes, -, rfl⟩ := hn
  have hmap : ds.map some = es.map some := hds.symm.trans hes
  rw [List.map_injective_iff.2 (Option.some_injective Nat) hmap]

theorem digitValue_decDigit : ∀ d < 10, digitValue (decDigit d) = some d := by decide

theorem digitValue_hexDigit : ∀ d < 16, digitValue (hexDigit d) = some d := by decide

section

variable {base n : Nat} {ds : List Nat} {digit : Nat → Char}

theorem numeral_of_digits (hdigit : ∀ d < base, digitValue (digit d) = some d) (hne : ds ≠ [])
    (hlt : ∀ d ∈ ds, d < base) : Numeral base (ds.reverse.map digit) (Nat.ofDigits base ds) := by
  refine ⟨by simpa using hne, ds.reverse, ?_, by simpa using hlt, by rw [List.reverse_reverse]⟩
  rw [List.map_map]
  refine List.map_congr_left fun d hd => ?_
  exact hdigit d (hlt d (List.mem_reverse.1 hd))

theorem numeral_digits (hb : 1 < base) (hdigit : ∀ d < base, digitValue (digit d) = some d)
    (hn : n ≠ 0) : Numeral base ((Nat.digits base n).reverse.map digit) n := by
  have h := numeral_of_digits hdigit (Nat.digits_ne_nil_iff_ne_zero.2 hn)
    fun d hd => Nat.digits_lt_base hb hd
  rwa [Nat.ofDigits_digits] at h

/-! ## Decimal -/

theorem printUintmaxDecText_canonical (h : n < 2 ^ 64) :
    ∃ text, printUintmaxDecText n = .ok text ∧ CanonicalDecimal text n := by
  unfold printUintmaxDecText
  rw [decDigits_eq h]
  rcases Nat.eq_zero_or_pos n with rfl | hn
  · exact ⟨['0'], rfl, ⟨by simp, [0], rfl, by simp, rfl⟩, fun _ => rfl⟩
  · have hne : n ≠ 0 := Nat.ne_of_gt hn
    refine ⟨(Nat.digits 10 n).reverse.map decDigit, ?_,
      numeral_digits (by decide) digitValue_decDigit hne, fun hzero => ?_⟩
    · rw [if_neg hne]
      rfl
    · -- the first character is the last digit stored, which is not 0
      exfalso
      have hlast := Nat.getLast_digit_ne_zero 10 hne
      have hnil := Nat.digits_ne_nil_iff_ne_zero (b := 10).2 hne
      rw [List.head?_map, List.head?_reverse, List.getLast?_eq_some_getLast hnil,
        Option.map_some, Option.some.injEq] at hzero
      have hvalue := digitValue_decDigit _ (Nat.digits_lt_base (by decide) (List.getLast_mem hnil))
      rw [hzero] at hvalue
      exact hlast (Option.some.inj hvalue).symm

/-! ## Hexadecimal -/

theorem length_digitBuffer {size : Nat} (h : ds.length ≤ size) :
    (digitBuffer size ds).length = size := by
  rw [digitBuffer, List.length_append, List.length_replicate]
  omega

theorem length_hexDigits (h : n < 2 ^ 64) : (Nat.digits 16 n).length ≤ 16 :=
  (Nat.digits_length_le_iff (by decide) n).2 (Nat.lt_of_lt_of_le h (by decide))

theorem numeral_digitBuffer (h : n < 2 ^ 64) :
    ((digitBuffer 16 (Nat.digits 16 n)).reverse.map hexDigit).length = 16 ∧
      Numeral 16 ((digitBuffer 16 (Nat.digits 16 n)).reverse.map hexDigit) n := by
  have hlen := length_digitBuffer (length_hexDigits h)
  have hne : digitBuffer 16 (Nat.digits 16 n) ≠ [] := by
    intro he
    rw [he] at hlen
    cases hlen
  have hlt : ∀ d ∈ digitBuffer 16 (Nat.digits 16 n), d < 16 := by
    intro d hd
    rcases List.mem_append.1 hd with hd | hd
    · exact Nat.digits_lt_base (by decide) hd
    · rw [List.eq_of_mem_replicate hd]
      decide
  have hnum := numeral_of_digits digitValue_hexDigit hne hlt
  rw [digitBuffer, Nat.ofDigits_append_replicate_zero, Nat.ofDigits_digits] at hnum
  exact ⟨by simpa using hlen, hnum⟩

end

/-- Decimal numbers are printed as canonical numerals, hexadecimal ones with all 16 digits; the
buffers are large enough for every 64-bit number. -/
theorem numbers_printed (n : BitVec 64) :
    (∃ text, (KioCall.printUint64Dec n).text = .ok text ∧ CanonicalDecimal text n.toNat) ∧
      (∃ text, printUintmaxDecText n.toNat = .ok text ∧ CanonicalDecimal text n.toNat) ∧
      ∃ text, (KioCall.printUint64Hex n).text = .ok ('0' :: 'x' :: text) ∧ text.length = 16 ∧
        Numeral 16 text n.toNat := by
  have hdec := printUintmaxDecText_canonical n.isLt
  refine ⟨hdec, hdec, _, ?_, numeral_digitBuffer n.isLt⟩
  show printUint64HexText n.toNat = _
  rw [printUint64HexText, hexDigits_eq n.isLt]
  rfl

end GarbageOS
