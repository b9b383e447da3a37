import GarbageOS.Shootdown.Interleave

/-!
# What the handler deletes

The handler tests whether a range is null and then deletes the null ranges, which
have no pages, instead of the others. So no handler ever deletes a page from a
translation cache, and a shootdown is effective only when there is no CPU to reach.
-/

namespace GarbageOS

open Lib

namespace ShootdownSys

variable {s t : ShootdownSys}

/-- The last shootdown with a state did its work: every other CPU whose queue was
active when it was called, and so ever since, has deleted each page of the range
after the range was pushed to its queue. -/
def Effective (s : ShootdownSys) (p : Nat) : Prop :=
  ∀ j < s.queuesCount, j ≠ s.owner p → (s.record p).active j = true →
    ∀ page ∈ pagesOf (s.record p).range, ∃ e, (j, e) ∈ s.pushed ∧ e.state = p ∧
      (s.record p).since ≤ e.stamp ∧ ∃ time, e.stamp < time ∧ (page, time) ∈ s.flushed j

theorem pagesOf_null {range : VMMCacheShootdownRange}
    (h : isVmmcacheShootdownRangeNull range = true) : pagesOf range = [] := by
  have hsize : range.sizeInPages = 0 := by
    simp only [isVmmcacheShootdownRangeNull, Bool.and_eq_true, beq_iff_eq] at h
    exact h.2
  rw [pagesOf, hsize]
  rfl

theorem StepTo.flushed_eq {a : Act} (h : StepTo s a t) : t.flushed = s.flushed := by
  cases h with
  | @handlerDelete c e _ =>
    show (s.deleteRange c e.range).flushed = s.flushed
    unfold deleteRange
    split
    · rename_i hnull
      show Function.update s.flushed c _ = s.flushed
      rw [pagesOf_null hnull]
      exact Function.update_eq_self ..
    · rfl
  | handlerSignal _ => unfold signal; split <;> rfl
  | _ => rfl

/-- No handler ever deletes a page. -/
theorem flushed_of_reaches {Allowed : ShootdownSys → Act → Prop} {n : Nat} {owner : Nat → Nat}
    (hrun : Reaches Allowed (init n owner) s) (j : Nat) : s.flushed j = [] := by
  have hall : s.flushed = fun _ => [] := by
    refine @invariant_of_steps _ _ (fun s => s.flushed = fun _ => []) ?_ _ _ hrun rfl
    rintro s t ⟨a, -, hstep⟩ hs
    exact (StepTo.of_step hstep).flushed_eq.trans hs
  rw [hall]

theorem pagesOf_ne_nil {range : VMMCacheShootdownRange} (h : range.sizeInPages ≠ 0) :
    ∃ page, page ∈ pagesOf range :=
  ⟨shootdownPage range 0, List.mem_map.2 ⟨0, List.mem_range.2 (Nat.pos_of_ne_zero h), rfl⟩⟩

/-- When a wait for the shootdown of a nonempty range returns, the shootdown was
effective exactly when no queue but the caller's own was active at the call. -/
theorem effective_iff {n : Nat} {owner : Nat → Nat} {s t : ShootdownSys} {c p : Nat}
    (hrun : Reaches (fun _ _ => True) (init n owner) s) (_hc : s.call c = .waiting p)
    (_hret : s.step (.waitReturn c) = some t) (hsize : (s.record p).range.sizeInPages ≠ 0) :
    s.Effective p ↔ ∀ j < s.queuesCount, j ≠ s.owner p → (s.record p).active j = false := by
  constructor
  · intro heff j hj hne
    by_contra hact
    obtain ⟨page, hpage⟩ := pagesOf_ne_nil hsize
    obtain ⟨e, -, -, -, time, -, hmem⟩ := heff j hj hne (by simpa using hact) page hpage
    rw [flushed_of_reaches hrun] at hmem
    cases hmem
  · intro hnone j hj hne hact
    rw [hnone j hj hne] at hact
    cases hact

def shootAlone : List Act :=
  [.start 0 ⟨⟨4096, 1⟩, 8⟩, .count 0, .count 0, .count 0, .test 0, .test 0, .test 0, .wait 0 8]

def shootOther : List Act :=
  [.activate 1, .deleteAll 1, .start 0 ⟨⟨4096, 1⟩, 8⟩, .count 0, .count 0, .count 0, .test 0,
    .test 0, .push 0, .test 0, .wait 0 8, .interrupt 1, .handlerTest 1, .handlerPop 1,
    .handlerDelete 1, .handlerSignal 1]

theorem effective_shootAlone : ∃ s : ShootdownSys, s.call 0 = .waiting 8 ∧ s.Effective 8 := by
  have hcheck : (((init 2 fun _ => 0).steps shootAlone).any fun s =>
      s.waitEnds && s.queuesCount == 2 && s.owner 8 == 0 && !(s.record 8).active 1 &&
        (s.record 8).range.sizeInPages != 0) = true := by decide
  obtain ⟨s, hs, htest⟩ := steps_check hcheck
  simp only [Bool.and_eq_true, Bool.not_eq_true', beq_iff_eq, bne_iff_ne] at htest
  obtain ⟨⟨⟨⟨hends, hcount⟩, howner⟩, hact⟩, hsize⟩ := htest
  obtain ⟨hwait, t, ht⟩ := of_waitEnds hends
  refine ⟨s, hwait, (effective_iff (.of_steps (fun _ _ _ => trivial) hs) hwait ht hsize).2 ?_⟩
  intro j hj hne
  rwa [show j = 1 by omega]

/-- The wait returns although the active CPU has deleted nothing. -/
theorem exists_ineffective : ∃ s t c p, Reaches (fun _ _ => True) (init 2 fun _ => 0) s ∧
    s.call c = .waiting p ∧ s.step (.waitReturn c) = some t ∧
      (s.record p).range.sizeInPages ≠ 0 ∧ ¬ s.Effective p := by
  have hcheck : (((init 2 fun _ => 0).steps shootOther).any fun s =>
      s.waitEnds && s.queuesCount == 2 && s.owner 8 == 0 && (s.record 8).range == ⟨4096, 1⟩ &&
        (s.record 8).active 1) = true := by decide
  obtain ⟨s, hs, htest⟩ := steps_check hcheck
  simp only [Bool.and_eq_true, beq_iff_eq] at htest
  obtain ⟨⟨⟨⟨hends, hcount⟩, howner⟩, hrange⟩, hact⟩ := htest
  obtain ⟨hwait, t, ht⟩ := of_waitEnds hends
  have hrun : Reaches (fun _ _ => True) (init 2 fun _ => 0) s := .of_steps (fun _ _ _ => trivial) hs
  refine ⟨s, t, 0, 8, hrun, hwait, ht, by rw [hrange]; decide, fun heff => ?_⟩
  obtain ⟨e, -, -, -, time, -, hmem⟩ := heff 1 (by omega) (by omega) hact 4096
    (by rw [hrange]; decide)
  rw [flushed_of_reaches hrun] at hmem
  cases hmem

end ShootdownSys

end GarbageOS
