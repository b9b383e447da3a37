import GarbageOS.Console.Numerals

/-!
# The format strings of `printf`

A format string is ordinary characters, `%%` and directives. After a 64-bit directive the second
chain of tests of `printf` runs on the `4` that the first one stops at, and none of its names
begins with that. So each directive takes one argument and puts what its formatter puts.
-/

namespace GarbageOS

open Lib

/-! ## The grammar -/

inductive Width where
  | w64
  | w32
deriving DecidableEq

namespace Width

def name : Width → Text
  | w64 => ['6', '4']
  | w32 => ['3', '2']

def bytes : Width → Nat
  | w64 => 8
  | w32 => 4

/-- The argument that `va_arg` takes with a type of the width. -/
def argument (va : VaList) (next : Nat) : Width → Nat
  | w64 => va.uint64 next
  | w32 => va.uint32 next

theorem argument_lt_word (width : Width) (va : VaList) (next : Nat) :
    width.argument va next < 2 ^ 64 := by
  cases width with
  | w64 => exact va.uint64_lt next
  | w32 => exact va.uint32_lt next

end Width

/-- The directives listed in `kio.h`. -/
inductive Conversion where
  | dec (width : Width)
  | hex (width : Width) (padded : Bool)
  | string

namespace Conversion

def name : Conversion → Text
  | dec width => 'u' :: width.name
  | hex width true => 'h' :: width.name
  | hex width false => 'x' :: width.name
  | string => ['s']

def width : Conversion → Option Width
  | dec width => some width
  | hex width _ => some width
  | string => none

/-- The formatter of a directive, applied to the argument at `next`. -/
def formatter (va : VaList) (next : Nat) : Conversion → Except Stop Text
  | dec width => printUintmaxDecText (width.argument va next)
  | hex width true => printUintmaxHexText (width.argument va next) width.bytes
  | hex width false => printUintmaxHexNotPaddedText (width.argument va next) width.bytes
  | string => .ok (va.stringAt (va.uint64 next))

end Conversion

inductive FormatItem where
  | ordinary (c : Char) (hpercent : c ≠ '%') (hnul : c ≠ '\x00')
  | percent
  | directive (conversion : Conversion)

namespace FormatItem

def source : FormatItem → Text
  | ordinary c _ _ => [c]
  | percent => ['%', '%']
  | directive conversion => '%' :: conversion.name

/-- What the items have to print, with the arguments from `next` on: one for each directive, in
order. -/
def textOf (va : VaList) : (items : List FormatItem) → (next : Nat) → Except Stop Text
  | [], _ => .ok []
  | ordinary c _ _ :: items, next => do return c :: (← textOf va items next)
  | percent :: items, next => do return '%' :: (← textOf va items next)
  | directive conversion :: items, next => do
    return (← conversion.formatter va next) ++ (← textOf va items (next + 1))

end FormatItem

/-! ## The two chains of tests -/

theorem Conversion.formatter_ok (conversion : Conversion) (va : VaList) (next : Nat) :
    ∃ text, conversion.formatter va next = .ok text := by
  cases conversion with
  | dec width => exact printUintmaxDecText_ok (width.argument_lt_word va next)
  | hex width padded =>
    have hlt := width.argument_lt_word va next
    have hsize : width.bytes ≤ 8 := by cases width <;> decide
    cases padded with
    | true => exact printUintmaxHexText_ok hlt hsize
    | false => exact printUintmaxHexNotPaddedText_ok hlt hsize
  | string => exact ⟨_, rfl⟩

theorem Directive.convert_of_ok {d : Directive} {text : Except Stop Text} {t : Text}
    (h : text = .ok t) : d.convert text = .ok ⟨d.text ++ t, d.format.drop 2, d.next + 1⟩ := by
  rw [h]
  rfl

section

variable {va : VaList} {next : Nat} {text rest : Text} {conversion : Conversion}

/-- The first chain handles the 64-bit directives and stops at their `4`. -/
theorem Directive.convert64_wide (hw : conversion.width = some .w64)
    (h : conversion.formatter va next = .ok text) :
    convert64 va ⟨[], conversion.name ++ rest, next⟩ = .ok ⟨text, '4' :: rest, next + 1⟩ := by
  have hchain : convert64 va ⟨[], conversion.name ++ rest, next⟩ =
      convert ⟨[], conversion.name ++ rest, next⟩ (conversion.formatter va next) ∧
        (conversion.name ++ rest).drop 2 = '4' :: rest := by
    cases conversion with
    | dec width =>
      obtain rfl := Option.some.inj hw
      exact ⟨by simp [convert64, substrCmp, Conversion.name, Width.name]; rfl, rfl⟩
    | hex width padded =>
      obtain rfl := Option.some.inj hw
      cases padded <;>
        exact ⟨by simp [convert64, substrCmp, Conversion.name, Width.name]; rfl, rfl⟩
    | string => cases hw
  rw [hchain.1, convert_of_ok h, hchain.2]
  rfl

/-- The others pass the first chain, and the second one leaves their last character. -/
theorem Directive.convert32_narrow (hw : conversion.width ≠ some .w64)
    (h : conversion.formatter va next = .ok text) :
    convert64 va ⟨[], conversion.name ++ rest, next⟩ = .ok ⟨[], conversion.name ++ rest, next⟩ ∧
      ∃ c, convert32 va ⟨[], conversion.name ++ rest, next⟩ = .ok ⟨text, c :: rest, next + 1⟩ := by
  cases conversion with
  | dec width =>
    cases width with
    | w64 => exact absurd rfl hw
    | w32 =>
      have hchain : convert32 va ⟨[], (Conversion.dec .w32).name ++ rest, next⟩ =
          convert ⟨[], (Conversion.dec .w32).name ++ rest, next⟩
            ((Conversion.dec .w32).formatter va next) := by
        simp [convert32, substrCmp, Conversion.name, Width.name]
        rfl
      refine ⟨rfl, '2', ?_⟩
      rw [hchain, convert_of_ok h]
      rfl
  | hex width padded =>
    cases width with
    | w64 => exact absurd rfl hw
    | w32 =>
      have hchain : convert32 va ⟨[], (Conversion.hex .w32 padded).name ++ rest, next⟩ =
          convert ⟨[], (Conversion.hex .w32 padded).name ++ rest, next⟩
            ((Conversion.hex .w32 padded).formatter va next) := by
        cases padded <;> simp [convert32, substrCmp, Conversion.name, Width.name] <;> rfl
      refine ⟨by cases padded <;> rfl, '2', ?_⟩
      rw [hchain, convert_of_ok h]
      cases padded <;> rfl
  | string =>
    obtain rfl := Except.ok.inj h
    exact ⟨rfl, 's', by simp [convert32, substrCmp, Conversion.name]⟩

/-- Together the chains handle a directive once, whatever follows it. -/
theorem Directive.convert_name (h : conversion.formatter va next = .ok text) (rest : Text) :
    ∃ d c, convert64 va ⟨[], conversion.name ++ rest, next⟩ = .ok d ∧
      d.convert32 va = .ok ⟨text, c :: rest, next + 1⟩ := by
  by_cases hw : conversion.width = some .w64
  · -- no name of the second chain begins with the 4 that is left
    exact ⟨_, '4', convert64_wide hw h, rfl⟩
  · obtain ⟨h₁, c, h₂⟩ := convert32_narrow hw h
    exact ⟨_, c, h₁, h₂⟩

end

/-! ## The loop -/

section

variable {va : VaList} {next steps : Nat} {text rest out : Text} {conversion : Conversion}

theorem printfFrom_ordinary {c : Char} (hc : c ≠ '%')
    (h : printfFrom va steps false rest next = .ok out) :
    printfFrom va (steps + 1) false (c :: rest) next = .ok (c :: out) := by
  rw [printfFrom, if_neg hc, h]
  rfl

theorem printfFrom_percent (h : printfFrom va steps false rest next = .ok out) :
    printfFrom va (steps + 2) false ('%' :: '%' :: rest) next = .ok ('%' :: out) := by
  rw [printfFrom, if_pos rfl, printfFrom, if_pos rfl, h]
  rfl

theorem Conversion.exists_name_eq_cons (conversion : Conversion) :
    ∃ c name, conversion.name = c :: name ∧ c ≠ '%' := by
  cases conversion with
  | dec width => exact ⟨'u', width.name, rfl, by decide⟩
  | hex width padded =>
    cases padded with
    | true => exact ⟨'h', width.name, rfl, by decide⟩
    | false => exact ⟨'x', width.name, rfl, by decide⟩
  | string => exact ⟨'s', [], rfl, by decide⟩

theorem printfFrom_directive (htext : conversion.formatter va next = .ok text)
    (h : printfFrom va steps false rest (next + 1) = .ok out) :
    printfFrom va (steps + 2) false ('%' :: (conversion.name ++ rest)) next =
      .ok (text ++ out) := by
  obtain ⟨d, last, h₁, h₂⟩ := Directive.convert_name htext rest
  obtain ⟨c, name, hname, hc⟩ := conversion.exists_name_eq_cons
  rw [hname, List.cons_append] at h₁ ⊢
  rw [printfFrom, if_pos rfl, printfFrom, if_neg hc, h₁]
  show (d.convert32 va >>= _) = _
  rw [h₂]
  show (printfFrom va steps false rest (next + 1) >>= _) = _
  rw [h]
  rfl

end

theorem FormatItem.textOf_ok (va : VaList) (items : List FormatItem) (next : Nat) :
    ∃ text, textOf va items next = .ok text := by
  induction items generalizing next with
  | nil => exact ⟨[], rfl⟩
  | cons item items ih =>
    cases item with
    | ordinary c hpercent hnul =>
      obtain ⟨text, h⟩ := ih next
      exact ⟨c :: text, by rw [textOf, h]; rfl⟩
    | percent =>
      obtain ⟨text, h⟩ := ih next
      exact ⟨'%' :: text, by rw [textOf, h]; rfl⟩
    | directive conversion =>
      obtain ⟨first, hfirst⟩ := conversion.formatter_ok va next
      obtain ⟨text, h⟩ := ih (next + 1)
      exact ⟨first ++ text, by rw [textOf, hfirst, h]; rfl⟩

/-- The loop prints the items, if it may take a step for each character. -/
theorem printfFrom_source (va : VaList) {items : List FormatItem} (next : Nat) {steps : Nat}
    (hsteps : (items.flatMap FormatItem.source).length ≤ steps) :
    printfFrom va steps false (items.flatMap FormatItem.source) next =
      FormatItem.textOf va items next := by
  induction items generalizing next steps with
  | nil => cases steps <;> rfl
  | cons item items ih =>
    rw [List.flatMap_cons] at hsteps ⊢
    rw [List.length_append] at hsteps
    cases item with
    | ordinary c hpercent hnul =>
      have hlen : (FormatItem.ordinary c hpercent hnul).source.length = 1 := rfl
      obtain ⟨n, rfl⟩ : ∃ n, steps = n + 1 := Nat.exists_eq_add_of_le' (by omega)
      obtain ⟨text, h⟩ := FormatItem.textOf_ok va items next
      have hrest : printfFrom va n false _ next = _ := ih next (by omega)
      rw [FormatItem.textOf, h]
      exact printfFrom_ordinary hpercent (hrest.trans h)
    | percent =>
      have hlen : FormatItem.percent.source.length = 2 := rfl
      obtain ⟨n, rfl⟩ : ∃ n, steps = n + 2 := Nat.exists_eq_add_of_le' (by omega)
      obtain ⟨text, h⟩ := FormatItem.textOf_ok va items next
      have hrest : printfFrom va n false _ next = _ := ih next (by omega)
      rw [FormatItem.textOf, h]
      exact printfFrom_percent (hrest.trans h)
    | directive conversion =>
      -- a directive has two characters or more and takes two rounds of the loop
      have hlen : 2 ≤ (FormatItem.directive conversion).source.length := by
        obtain ⟨c, name, hname, -⟩ := conversion.exists_name_eq_cons
        rw [FormatItem.source, hname]
        simp
      obtain ⟨n, rfl⟩ : ∃ n, steps = n + 2 := Nat.exists_eq_add_of_le' (by omega)
      obtain ⟨first, hfirst⟩ := conversion.formatter_ok va next
      obtain ⟨text, h⟩ := FormatItem.textOf_ok va items (next + 1)
      have hrest : printfFrom va n false _ (next + 1) = _ := ih (next + 1) (by omega)
      rw [FormatItem.textOf, hfirst, h]
      exact printfFrom_directive hfirst (hrest.trans h)

/-! ## On the console -/

theorem KioState.WellFormed.run_printText {s : KioState} (h : s.WellFormed) (text : Text) :
    ∃ s', (printText (.ok text)).run s = .ok () s' ∧ s'.WellFormed ∧
      s'.written = s.written ++ text := by
  have hput : (s.putAll text).WellFormed ∧ (s.putAll text).written = s.written ++ text := by
    induction text generalizing s with
    | nil => exact ⟨h, (List.append_nil _).symm⟩
    | cons c text ih =>
      obtain ⟨hwf, hwritten⟩ := ih (h.put c)
      refine ⟨hwf, hwritten.trans ?_⟩
      show (s.written ++ [c]) ++ text = _
      rw [List.append_assoc, List.singleton_append]
  rw [KioState.run_printText, unsyncOptFlush, run_get_bind]
  by_cases hw : (s.putAll text).charBuffer.writtenBytes ≥ 32
  · obtain ⟨s', hrun, hwf, -, -, hwritten⟩ := hput.1.run_flush
    exact ⟨s', by rw [onlyIf_pos hw, hrun], hwf, hwritten.trans hput.2⟩
  · exact ⟨_, by rw [onlyIf_neg hw, EStateM.run_pure], hput⟩

/-- The call puts exactly `text`. -/
def KioCall.Puts (call : KioCall) (s : KioState) (text : Text) : Prop :=
  ∃ s', call.exec.run s = .ok () s' ∧ s'.written = s.written ++ text

theorem KioCall.puts_printf_iff {s : KioState} (hs : s.WellFormed) {va : VaList}
    {format text : Text} :
    (KioCall.printf va format).Puts s text ↔ printfText va format = .ok text := by
  obtain ⟨t, ht⟩ := (KioCall.printf va format).text_ok
  obtain ⟨s', hrun, -, hwritten⟩ := hs.run_printText t
  have hexec : (KioCall.printf va format).exec.run s = .ok () s' := by
    show (printText (KioCall.printf va format).text).run s = _
    rw [ht, hrun]
  change printfText va format = _ at ht
  constructor
  · rintro ⟨s₂, hrun₂, hwritten₂⟩
    obtain rfl : s' = s₂ := by
      rw [hexec] at hrun₂
      injection hrun₂
    rw [ht, List.append_cancel_left (hwritten.symm.trans hwritten₂)]
  · intro h
    obtain rfl : t = text := Except.ok.inj (ht.symm.trans h)
    exact ⟨s', hexec, hwritten⟩

/-- `printf` puts the text of its items: it takes one argument for each directive, in order. -/
theorem printf_follows_grammar {s : KioState} (hs : s.WellFormed) (va : VaList)
    (items : List FormatItem) :
    ∃ text, FormatItem.textOf va items 0 = .ok text ∧
      (KioCall.printf va (items.flatMap FormatItem.source)).Puts s text := by
  obtain ⟨text, h⟩ := FormatItem.textOf_ok va items 0
  refine ⟨text, h, (KioCall.puts_printf_iff hs).2 ?_⟩
  rw [printfText, printfFrom_source va 0 (Nat.le_refl _), h]

theorem printf_follows_grammar_adjacent :
    ∃ text, FormatItem.textOf ⟨fun i => i + 7, fun _ => ['u', '3', '2']⟩
        [.directive (.dec .w64), .percent, .directive .string, .directive (.hex .w32 false)] 0 =
          .ok text ∧
      (KioCall.printf ⟨fun i => i + 7, fun _ => ['u', '3', '2']⟩ "%u64%%%s%x32".toList).Puts
        (initKio (fun _ => ' ') 0) text :=
  printf_follows_grammar (KioState.initKio_complete _ 0).toWellFormed _
    [.directive (.dec .w64), .percent, .directive .string, .directive (.hex .w32 false)]

/-! ## Hexadecimal directives -/

/-- `0x` and a hexadecimal numeral, with all the digits of the width in the padded form. -/
def HexText (width : Width) (padded : Bool) (text : Text) (value : Nat) : Prop :=
  ∃ digits, text = '0' :: 'x' :: digits ∧ Numeral 16 digits value ∧
    (padded = true → digits.length = 2 * width.bytes)

section

variable {width : Width} {padded : Bool} {digits : Text} {n value : Nat}

theorem hexText_cons_iff :
    HexText width padded ('0' :: 'x' :: digits) value ↔
      Numeral 16 digits value ∧ (padded = true → digits.length = 2 * width.bytes) := by
  constructor
  · rintro ⟨digits', h, hrest⟩
    obtain rfl : digits = digits' := by injection h with _ h; injection h
    exact hrest
  · exact fun h => ⟨digits, rfl, h⟩

theorem printUintmaxHexText_wide (h : n < 2 ^ 64) :
    printUintmaxHexText n 8 =
      .ok ('0' :: 'x' :: (digitBuffer 16 (Nat.digits 16 n)).reverse.map hexDigit) := by
  have hlen : (digitBuffer 16 (Nat.digits 16 n)).reverse.length = 8 * 2 := by
    rw [List.length_reverse, length_digitBuffer (length_hexDigits h)]
  rw [printUintmaxHexText, if_pos (by decide), hexDigits_eq h]
  show Except.ok (['0', 'x'] ++ (List.take (8 * 2) _).map hexDigit) = _
  rw [List.take_of_length_le (Nat.le_of_eq hlen)]
  rfl

/-- The upper half of the buffer holds no digit of a 32-bit number. -/
theorem printUintmaxHexText_narrow (h : n < 2 ^ 32) :
    printUintmaxHexText n 4 = .ok ('0' :: 'x' :: List.replicate 8 '0') := by
  have hlen : (Nat.digits 16 n).length ≤ 8 :=
    (Nat.digits_length_le_iff (by decide) n).2 (Nat.lt_of_lt_of_le h (by decide))
  rw [printUintmaxHexText, if_pos (by decide),
    hexDigits_eq (Nat.lt_of_lt_of_le h (by decide : 2 ^ 32 ≤ 2 ^ 64))]
  show Except.ok (['0', 'x'] ++ (List.take 8 (digitBuffer 16 _).reverse).map hexDigit) = _
  rw [digitBuffer, List.reverse_append, List.reverse_replicate,
    List.take_append_of_le_length (by rw [List.length_replicate]; omega), List.take_replicate,
    Nat.min_eq_left (by omega)]
  rfl

theorem printUintmaxHexNotPaddedText_eq (h : n < 2 ^ 64) (hsize : width.bytes ≤ 8) :
    printUintmaxHexNotPaddedText n width.bytes =
      .ok ('0' :: 'x' :: (Nat.digits 16 n).reverse.map hexDigit) := by
  rw [printUintmaxHexNotPaddedText, if_pos hsize, hexDigits_eq h]
  rfl

end

/-- The arguments for which a hexadecimal directive is right. -/
def HexRight (width : Width) (padded : Bool) (value : Nat) : Prop :=
  if padded then width = .w64 ∨ value = 0 else value ≠ 0

theorem Conversion.hexText_iff (width : Width) (padded : Bool) (va : VaList) (next : Nat)
    {text : Text} (h : (Conversion.hex width padded).formatter va next = .ok text) :
    HexText width padded text (width.argument va next) ↔
      HexRight width padded (width.argument va next) := by
  cases padded with
  | true =>
    change printUintmaxHexText _ _ = _ at h
    cases width with
    | w64 =>
      have hlt : Width.w64.argument va next < 2 ^ 64 := va.uint64_lt next
      rw [Width.bytes, printUintmaxHexText_wide hlt] at h
      obtain rfl := Except.ok.inj h
      obtain ⟨hlen, hnum⟩ := numeral_digitBuffer hlt
      exact iff_of_true (hexText_cons_iff.2 ⟨hnum, fun _ => hlen⟩) (.inl rfl)
    | w32 =>
      have hlt : Width.w32.argument va next < 2 ^ 32 := Nat.mod_lt _ (by decide)
      rw [Width.bytes, printUintmaxHexText_narrow hlt] at h
      obtain rfl := Except.ok.inj h
      have hzero : Numeral 16 (List.replicate 8 '0') 0 :=
        ⟨by decide, List.replicate 8 0, rfl, by simp, by decide⟩
      rw [hexText_cons_iff]
      constructor
      · exact fun hnum => .inr (hnum.1.unique hzero)
      · rintro (hw | hv)
        · cases hw
        · rw [hv]
          exact ⟨hzero, fun _ => rfl⟩
  | false =>
    change printUintmaxHexNotPaddedText _ _ = _ at h
    rw [printUintmaxHexNotPaddedText_eq (width.argument_lt_word va next)
      (by cases width <;> decide)] at h
    obtain rfl := Except.ok.inj h
    rw [hexText_cons_iff]
    constructor
    · rintro ⟨⟨hne, -⟩, -⟩ hv
      rw [hv] at hne
      exact hne (by simp)
    · intro hv
      exact ⟨numeral_digits (by decide) digitValue_hexDigit hv, fun hp => absurd hp (by decide)⟩

/-- A hexadecimal directive denotes its argument, except that `%h32` prints the digits of the
upper half and the unpadded forms print no digit for 0. -/
theorem printf_hex_iff {s : KioState} (hs : s.WellFormed) (width : Width) (padded : Bool)
    (va : VaList) :
    (∃ text, (KioCall.printf va ('%' :: (Conversion.hex width padded).name)).Puts s text ∧
        HexText width padded text (width.argument va 0)) ↔
      HexRight width padded (width.argument va 0) := by
  obtain ⟨text, h⟩ := (Conversion.hex width padded).formatter_ok va 0
  have hprint : printfText va ('%' :: (Conversion.hex width padded).name) = .ok text := by
    have hrest : FormatItem.textOf va [.directive (.hex width padded)] 0 = .ok text := by
      rw [FormatItem.textOf, h]
      show Except.ok (text ++ []) = _
      rw [List.append_nil]
    have hsource : [FormatItem.directive (.hex width padded)].flatMap FormatItem.source =
        '%' :: (Conversion.hex width padded).name := List.flatMap_singleton _ _
    rw [← hsource, printfText, printfFrom_source va 0 (Nat.le_refl _), hrest]
  rw [← Conversion.hexText_iff width padded va 0 h]
  constructor
  · rintro ⟨t, hputs, ht⟩
    obtain rfl : text = t := Except.ok.inj (hprint.symm.trans ((KioCall.puts_printf_iff hs).1 hputs))
    exact ht
  · exact fun ht => ⟨text, (KioCall.puts_printf_iff hs).2 hprint, ht⟩

theorem printf_hex_iff_word :
    ∃ text, (KioCall.printf ⟨fun _ => 0xBEEF, fun _ => []⟩ "%x64".toList).Puts
      (initKio (fun _ => ' ') 0) text ∧ HexText .w64 false text 0xBEEF :=
  (printf_hex_iff (KioState.initKio_complete _ 0).toWellFormed .w64 false
    ⟨fun _ => 0xBEEF, fun _ => []⟩).2 (show 0xBEEF ≠ 0 by decide)

/-- `%h32` of 255 is eight zeros, and `%x64` of 0 is `0x`. -/
theorem hex_directives_misprint :
    (KioCall.printf ⟨fun _ => 255, fun _ => []⟩ "%h32".toList).text = .ok "0x00000000".toList ∧
      ¬HexText .w32 true "0x00000000".toList 255 ∧
      (KioCall.printf ⟨fun _ => 0, fun _ => []⟩ "%x64".toList).text = .ok "0x".toList ∧
      ¬HexText .w64 false "0x".toList 0 := by
  have hzero : Numeral 16 "00000000".toList 0 :=
    ⟨by decide, List.replicate 8 0, by decide, by decide, by decide⟩
  refine ⟨by decide, fun h => ?_, by decide, fun h => ?_⟩
  · exact absurd ((hexText_cons_iff.1 h).1.unique hzero) (by decide)
  · exact (hexText_cons_iff.1 h).1.1 rfl

end GarbageOS
