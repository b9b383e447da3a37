import GarbageOS.Console.Kio

/-!
# What the console loses

While fewer than 4096 characters wait in the ring, the characters put are those
shown followed by those that wait. A call that puts one more is the first to lose
text: from then on fewer characters are shown and waiting than were put, whatever
follows. So whether a sequence of calls loses text can be read off from how much
each call prints.
-/

namespace GarbageOS

open Lib

/-- The ring of the console is as `init_kio` makes it. -/
structure KioState.WellFormed (s : KioState) : Prop where
  ring : s.charBuffer.WellFormed
  size : s.charBuffer.bufferSize = kioCircularBufferSize

/-- Nothing has been lost and `n` characters wait. -/
structure KioState.Complete (s : KioState) (n : Nat) : Prop extends s.WellFormed where
  written_eq : s.written = s.shown ++ s.charBuffer.unread
  waiting_eq : s.charBuffer.count = n

structure KioState.Lossy (s : KioState) : Prop extends s.WellFormed where
  length_lt : s.shown.length + s.charBuffer.count < s.written.length

namespace KioState

variable {s s' : KioState} {n : Nat}

theorem initKio_complete (contents : Nat → Char) (old : Nat) : (initKio contents old).Complete 0 :=
  { ring := .make (by decide) contents old
    size := rfl
    written_eq := rfl
    waiting_eq := rfl }

/-! ## Putting -/

theorem WellFormed.put (h : s.WellFormed) (c : Char) : (s.put c).WellFormed :=
  ⟨h.ring.write c, h.size⟩

theorem Complete.put (h : s.Complete n) (c : Char) (hn : n + 1 < kioCircularBufferSize) :
    (s.put c).Complete (n + 1) := by
  have hlt : s.charBuffer.count + 1 < s.charBuffer.bufferSize := by rw [h.waiting_eq, h.size]; exact hn
  refine { toWellFormed := h.toWellFormed.put c, written_eq := ?_, waiting_eq := ?_ }
  · show s.written ++ [c] = s.shown ++ (s.charBuffer.write c).unread
    rw [h.ring.unread_write c hlt, h.written_eq, List.append_assoc]
  · show (s.charBuffer.write c).count = n + 1
    rw [h.ring.count_write, if_neg (by omega), h.waiting_eq]

theorem Complete.put_full (h : s.Complete n) (c : Char) (hn : n + 1 = kioCircularBufferSize) :
    (s.put c).Lossy := by
  have hfull : s.charBuffer.count + 1 = s.charBuffer.bufferSize := by rw [h.waiting_eq, h.size, hn]
  refine { toWellFormed := h.toWellFormed.put c, length_lt := ?_ }
  show s.shown.length + (s.charBuffer.write c).count < (s.written ++ [c]).length
  rw [h.ring.count_write, if_pos hfull, h.written_eq]
  simp only [List.length_append, CircularBuffer.length_unread, List.length_singleton]
  omega

theorem Lossy.put (h : s.Lossy) (c : Char) : (s.put c).Lossy := by
  refine { toWellFormed := h.toWellFormed.put c, length_lt := ?_ }
  show s.shown.length + (s.charBuffer.write c).count < (s.written ++ [c]).length
  have hlt := h.length_lt
  rw [h.ring.count_write, List.length_append, List.length_singleton]
  split <;> omega

def putAll (s : KioState) (text : Text) : KioState := text.foldl put s

theorem Lossy.putAll {text : Text} (h : s.Lossy) : (s.putAll text).Lossy := by
  induction text generalizing s with
  | nil => exact h
  | cons c text ih => exact ih (h.put c)

theorem Complete.putAll {text : Text} (h : s.Complete n)
    (hn : n + text.length < kioCircularBufferSize) : (s.putAll text).Complete (n + text.length) := by
  induction text generalizing s n with
  | nil => exact h
  | cons c text ih =>
    rw [List.length_cons] at hn ⊢
    have := ih (h.put c (by omega)) (by omega)
    rwa [Nat.add_assoc, Nat.add_comm 1] at this

theorem Complete.putAll_lossy {text : Text} (h : s.Complete n) (hlt : n < kioCircularBufferSize)
    (hn : kioCircularBufferSize ≤ n + text.length) : (s.putAll text).Lossy := by
  induction text generalizing s n with
  | nil => rw [List.length_nil] at hn; omega
  | cons c text ih =>
    rw [List.length_cons] at hn
    by_cases hfull : n + 1 = kioCircularBufferSize
    · exact (h.put_full c hfull).putAll
    · exact ih (h.put c (by omega)) (by omega) (by omega)

/-! ## Flushing -/

theorem run_drain {steps : Nat} (h : s.charBuffer.WellFormed) (hsteps : s.charBuffer.count < steps) :
    ∃ s', (drain steps).run s = .ok () s' ∧ s'.charBuffer.WellFormed ∧
      s'.charBuffer.bufferSize = s.charBuffer.bufferSize ∧ s'.charBuffer.count = 0 ∧
      s'.shown = s.shown ++ s.charBuffer.unread ∧ s'.written = s.written := by
  induction steps generalizing s with
  | zero => omega
  | succ steps ih =>
    rw [drain, run_get_bind]
    by_cases he : s.charBuffer.isEmpty = true
    · have hz := h.isEmpty_iff.1 he
      have hu : s.charBuffer.unread = [] := List.length_eq_zero_iff.1 (by simpa using hz)
      refine ⟨s, ?_, h, rfl, hz, by rw [hu, List.append_nil], rfl⟩
      rw [if_pos he, EStateM.run_pure]
    · have hz : s.charBuffer.count ≠ 0 := fun hz => he (h.isEmpty_iff.2 hz)
      have hread := h.unread_read hz
      have hcount : s.charBuffer.count = s.charBuffer.read.2.count + 1 := by
        simpa using congrArg List.length hread
      obtain ⟨s', hrun, hwf, hsize, hempty, hshown, hwritten⟩ :=
        ih (s := s.show1) h.read (show s.charBuffer.read.2.count < steps by omega)
      refine ⟨s', ?_, hwf, hsize, hempty, ?_, hwritten⟩
      · rw [if_neg he, run_modify_bind, hrun]
      · rw [hshown, hread]
        show (s.shown ++ [s.charBuffer.read.1]) ++ s.charBuffer.read.2.unread = _
        rw [List.append_assoc, List.singleton_append]

theorem WellFormed.run_flush (h : s.WellFormed) :
    ∃ s', unsyncFlush.run s = .ok () s' ∧ s'.WellFormed ∧ s'.charBuffer.count = 0 ∧
      s'.shown = s.shown ++ s.charBuffer.unread ∧ s'.written = s.written := by
  have hlt := h.ring.count_lt
  rw [h.size] at hlt
  obtain ⟨s', hrun, hwf, hsize, hrest⟩ := run_drain h.ring hlt
  exact ⟨s', hrun, ⟨hwf, hsize.trans h.size⟩, hrest⟩

theorem Complete.run_flush (h : s.Complete n) :
    ∃ s', unsyncFlush.run s = .ok () s' ∧ s'.Complete 0 := by
  obtain ⟨s', hrun, hwf, hz, hshown, hwritten⟩ := h.toWellFormed.run_flush
  refine ⟨s', hrun, { toWellFormed := hwf, written_eq := ?_, waiting_eq := hz }⟩
  have hu : s'.charBuffer.unread = [] := List.length_eq_zero_iff.1 (by simpa using hz)
  rw [hwritten, hshown, hu, List.append_nil, h.written_eq]

theorem Lossy.run_flush (h : s.Lossy) : ∃ s', unsyncFlush.run s = .ok () s' ∧ s'.Lossy := by
  obtain ⟨s', hrun, hwf, hz, hshown, hwritten⟩ := h.toWellFormed.run_flush
  refine ⟨s', hrun, { toWellFormed := hwf, length_lt := ?_ }⟩
  have hlt := h.length_lt
  rw [hwritten, hshown, hz, List.length_append, CircularBuffer.length_unread]
  omega

/-- The size of the ring counts as waiting text when nothing waits; the flush that
follows does nothing then. -/
theorem Complete.run_optFlush (h : s.Complete n) :
    ∃ s', unsyncOptFlush.run s = .ok () s' ∧ s'.Complete (if n ≥ 32 then 0 else n) := by
  have hbytes := h.ring.writtenBytes_eq
  rw [h.waiting_eq, h.size] at hbytes
  rw [unsyncOptFlush, run_get_bind]
  by_cases hw : s.charBuffer.writtenBytes ≥ 32
  · obtain ⟨s', hrun, hc⟩ := h.run_flush
    refine ⟨s', by rw [onlyIf_pos hw, hrun], ?_⟩
    split
    · exact hc
    · rename_i hn
      obtain rfl : n = 0 := by
        by_contra hne
        rw [if_neg hne] at hbytes
        omega
      exact hc
  · refine ⟨s, by rw [onlyIf_neg hw, EStateM.run_pure], ?_⟩
    have hne : n ≠ 0 := by
      rintro rfl
      rw [if_pos rfl] at hbytes
      rw [hbytes] at hw
      exact hw (by decide)
    rw [if_neg hne] at hbytes
    rw [if_neg (by omega)]
    exact h

theorem Lossy.run_optFlush (h : s.Lossy) : ∃ s', unsyncOptFlush.run s = .ok () s' ∧ s'.Lossy := by
  rw [unsyncOptFlush, run_get_bind]
  by_cases hw : s.charBuffer.writtenBytes ≥ 32
  · rw [onlyIf_pos hw]
    exact h.run_flush
  · exact ⟨s, by rw [onlyIf_neg hw, EStateM.run_pure], h⟩

theorem run_unsyncPrint (text : Text) : (unsyncPrint text).run s = .ok () (s.putAll text) := by
  induction text generalizing s with
  | nil => rfl
  | cons c text ih =>
    have hput : (unsyncPutchar c false).run s = .ok () (s.put c) := by
      rw [unsyncPutchar, run_modify_bind, onlyIf_neg (by decide), EStateM.run_pure]
    rw [unsyncPrint, run_ok_bind hput, ih]
    rfl

theorem run_printText {t : Text} : (printText (.ok t)).run s = unsyncOptFlush.run (s.putAll t) := by
  show (unsyncPrint t >>= fun _ => unsyncOptFlush).run s = _
  rw [run_ok_bind (run_unsyncPrint t)]

end KioState

/-! ## Calls -/

namespace KioCall

variable {s s' : KioState} {n : Nat}

def length (call : KioCall) : Nat :=
  match call.text with
  | .ok text => text.length
  | .error _ => 0

theorem length_of_text {call : KioCall} {text : Text} (h : call.text = .ok text) :
    call.length = text.length := by
  rw [length, h]

/-- How many characters wait after a call if nothing is lost. -/
def waitingAfter (n : Nat) : KioCall → Nat
  | putchar _ flush => if flush then 0 else n + 1
  | kioFlush => 0
  | call => if n + call.length ≥ 32 then 0 else n + call.length

theorem waitingAfter_lt (call : KioCall) (h : n + call.length < kioCircularBufferSize) :
    waitingAfter n call < kioCircularBufferSize := by
  have hpos : 0 < kioCircularBufferSize := by decide
  cases call with
  | putchar c flush => cases flush with
    | false => exact h
    | true => exact hpos
  | kioFlush => exact hpos
  | _ =>
    show (if _ then 0 else _) < _
    split
    · exact hpos
    · exact h

theorem exec_complete (call : KioCall) (h : s.Complete n)
    (hfit : n + call.length < kioCircularBufferSize) :
    ∃ s', call.exec.run s = .ok () s' ∧ s'.Complete (waitingAfter n call) := by
  obtain ⟨text, ht⟩ := call.text_ok
  have hlen := length_of_text ht
  have hprint : ∃ s', (printText call.text).run s = .ok () s' ∧
      s'.Complete (if n + call.length ≥ 32 then 0 else n + call.length) := by
    rw [ht, KioState.run_printText, hlen]
    exact (h.putAll (by rw [← hlen]; exact hfit)).run_optFlush
  cases call with
  | putchar c flush =>
    have hput := h.put c hfit
    show ∃ s', (unsyncPutchar c flush).run s = _ ∧ _
    rw [unsyncPutchar, run_modify_bind]
    cases flush with
    | false => exact ⟨_, by rw [onlyIf_neg (by decide), EStateM.run_pure], hput⟩
    | true => rw [onlyIf_pos rfl]; exact hput.run_flush
  | kioFlush => exact h.run_flush
  | _ => exact hprint

theorem exec_of_lossy_text (call : KioCall)
    (hput : ∀ text, call.text = .ok text → (s.putAll text).Lossy) :
    ∃ s', call.exec.run s = .ok () s' ∧ s'.Lossy := by
  obtain ⟨text, ht⟩ := call.text_ok
  have hl := hput text ht
  have hprint : ∃ s', (printText call.text).run s = .ok () s' ∧ s'.Lossy := by
    rw [ht, KioState.run_printText]
    exact hl.run_optFlush
  cases call with
  | putchar c flush =>
    cases ht
    show ∃ s', (unsyncPutchar c flush).run s = _ ∧ _
    rw [unsyncPutchar, run_modify_bind]
    cases flush with
    | false => exact ⟨s.put c, by rw [onlyIf_neg (by decide), EStateM.run_pure], hl⟩
    | true => rw [onlyIf_pos rfl]; exact hl.run_flush
  | kioFlush => cases ht; exact hl.run_flush
  | _ => exact hprint

theorem exec_lossy (call : KioCall) (h : s.Lossy) : ∃ s', call.exec.run s = .ok () s' ∧ s'.Lossy :=
  call.exec_of_lossy_text fun _ _ => h.putAll

theorem exec_overflow (call : KioCall) (h : s.Complete n) (hlt : n < kioCircularBufferSize)
    (hover : kioCircularBufferSize ≤ n + call.length) :
    ∃ s', call.exec.run s = .ok () s' ∧ s'.Lossy := by
  apply call.exec_of_lossy_text
  intro text ht
  rw [length_of_text ht] at hover
  exact h.putAll_lossy hlt hover

/-- Every call of a sequence finds room for its text when `n` characters wait before it. -/
def FitAll : (n : Nat) → List KioCall → Prop
  | _, [] => True
  | n, call :: calls => n + call.length < kioCircularBufferSize ∧ FitAll (waitingAfter n call) calls

theorem execAll_lossy (calls : List KioCall) (h : s.Lossy) :
    ∃ s', (execAll calls).run s = .ok () s' ∧ s'.Lossy := by
  induction calls generalizing s with
  | nil => exact ⟨s, rfl, h⟩
  | cons call calls ih =>
    obtain ⟨s₁, hrun, h₁⟩ := call.exec_lossy h
    obtain ⟨s₂, hrun₂, h₂⟩ := ih h₁
    exact ⟨s₂, by rw [execAll, run_ok_bind hrun, hrun₂], h₂⟩

/-- A sequence of calls ends in a complete or in a lossy state, as its texts fit or not. -/
theorem execAll_cases (calls : List KioCall) (h : s.Complete n) (hlt : n < kioCircularBufferSize) :
    ∃ s', (execAll calls).run s = .ok () s' ∧
      ((FitAll n calls ∧ ∃ m, s'.Complete m) ∨ (¬ FitAll n calls ∧ s'.Lossy)) := by
  induction calls generalizing s n with
  | nil => exact ⟨s, rfl, .inl ⟨trivial, n, h⟩⟩
  | cons call calls ih =>
    by_cases hfit : n + call.length < kioCircularBufferSize
    · obtain ⟨s₁, hrun, h₁⟩ := call.exec_complete h hfit
      obtain ⟨s₂, hrun₂, h₂⟩ := ih h₁ (call.waitingAfter_lt hfit)
      refine ⟨s₂, by rw [execAll, run_ok_bind hrun, hrun₂], ?_⟩
      rcases h₂ with ⟨hall, hc⟩ | ⟨hnot, hl⟩
      · exact .inl ⟨⟨hfit, hall⟩, hc⟩
      · exact .inr ⟨fun hall => hnot hall.2, hl⟩
    · obtain ⟨s₁, hrun, h₁⟩ := call.exec_overflow h hlt (by omega)
      obtain ⟨s₂, hrun₂, h₂⟩ := execAll_lossy calls h₁
      exact ⟨s₂, by rw [execAll, run_ok_bind hrun, hrun₂], .inr ⟨fun hall => hfit hall.1, h₂⟩⟩

/-- After a final `kio_flush` the characters shown are the characters put exactly
when every call found room in the ring for its text. -/
theorem shown_eq_written_iff (contents : Nat → Char) (oldWriteIdx : Nat) (calls : List KioCall) :
    ∃ s', (do execAll calls; kioFlush.exec).run (initKio contents oldWriteIdx) = .ok () s' ∧
      (s'.shown = s'.written ↔ FitAll 0 calls) := by
  obtain ⟨s₁, hrun, h₁⟩ :=
    execAll_cases calls (KioState.initKio_complete contents oldWriteIdx) (by decide)
  rcases h₁ with ⟨hall, m, hc⟩ | ⟨hnot, hl⟩
  · obtain ⟨s₂, hrun₂, h₂⟩ := hc.run_flush
    refine ⟨s₂, by rw [run_ok_bind hrun]; exact hrun₂, iff_of_true ?_ hall⟩
    have hu : s₂.charBuffer.unread = [] := List.length_eq_zero_iff.1 (by simpa using h₂.waiting_eq)
    rw [h₂.written_eq, hu, List.append_nil]
  · obtain ⟨s₂, hrun₂, h₂⟩ := hl.run_flush
    refine ⟨s₂, by rw [run_ok_bind hrun]; exact hrun₂, iff_of_false ?_ hnot⟩
    intro heq
    have hlt := h₂.length_lt
    rw [heq] at hlt
    omega

/-- A text of 4096 characters is lost as a whole. -/
theorem exists_lost_text : ∃ (calls : List KioCall) (s' : KioState),
    (do execAll calls; kioFlush.exec).run (initKio (fun _ => ' ') 0) = .ok () s' ∧
      s'.shown ≠ s'.written := by
  have hinit := KioState.initKio_complete (fun _ => ' ') 0
  have hlen : (print (List.replicate 4096 'a')).length = 4096 := List.length_replicate
  obtain ⟨s₁, hrun, h₁⟩ := (print (List.replicate 4096 'a')).exec_overflow hinit (by decide)
    (by rw [hlen]; decide)
  obtain ⟨s₂, hrun₂, h₂⟩ := h₁.run_flush
  refine ⟨[print (List.replicate 4096 'a')], s₂, ?_, ?_⟩
  · have hall : (execAll [print (List.replicate 4096 'a')]).run (initKio (fun _ => ' ') 0) =
        .ok () s₁ := by rw [execAll, run_ok_bind hrun, execAll, EStateM.run_pure]
    rw [run_ok_bind hall]
    exact hrun₂
  · intro heq
    have hlt := h₂.length_lt
    rw [heq] at hlt
    omega

end KioCall

end GarbageOS
