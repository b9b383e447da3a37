import GarbageOS.Shootdown.Effective

/-!
# Late activation

`activate_this_cpu_vmmcache_shootdown` marks the queue as active and deletes the whole
translation cache afterwards. A CPU that changes a page table and then goes through the
queues may find this queue not active yet. It was not marked then, so its CPU deletes the
cache after the change. If it finds the queue active, it pushes the range; but the handler
deletes null ranges only, so what that CPU had cached before the change stays cached.
-/

namespace GarbageOS

open Function

/-- In an enqueue call that has not come past queue `d` yet. -/
def CallPc.Ahead (job : EnqueueJob) (d : Nat) : CallPc → Prop
  | .counting j _ _ => j = job
  | .testing j i | .pushing j i => j = job ∧ i ≤ d
  | _ => False

namespace ShootdownSys

variable {s s' t : ShootdownSys} {a : Act} {acts acts' : List Act} {c d : Nat} {job : EnqueueJob}

theorem steps_append :
    s.steps (acts ++ acts') = some t ↔ ∃ u, s.steps acts = some u ∧ u.steps acts' = some t := by
  induction acts generalizing s with
  | nil => exact ⟨fun h => ⟨s, rfl, h⟩, fun ⟨_, hu, h⟩ => by cases hu; exact h⟩
  | cons a acts ih =>
    constructor
    · intro h
      obtain ⟨s₁, hstep, h⟩ := Option.bind_eq_some_iff.1 h
      obtain ⟨u, hu, h⟩ := ih.1 h
      exact ⟨u, Option.bind_eq_some_iff.2 ⟨s₁, hstep, hu⟩, h⟩
    · rintro ⟨u, hu, h⟩
      obtain ⟨s₁, hstep, hu⟩ := Option.bind_eq_some_iff.1 hu
      exact Option.bind_eq_some_iff.2 ⟨s₁, hstep, ih.2 ⟨u, hu, h⟩⟩

/-! ## An activation -/

/-- A CPU that is between the two steps of its activation has an active queue. -/
def Marked (s : ShootdownSys) (d : Nat) : Prop :=
  s.call d = .activated → s.active d = true

theorem StepTo.active_mono (h : StepTo s a s') (hd : s.active d = true) : s'.active d = true := by
  cases h with
  | @activate c _ _ =>
    show update s.active c true d = true
    by_cases hcd : d = c
    · rw [hcd, update_self]
    · rw [update_of_ne hcd, hd]
  | handlerDelete _ => unfold deleteRange; split <;> exact hd
  | handlerSignal _ => unfold signal; split <;> exact hd
  | _ => exact hd

theorem steps_active (h : s.steps acts = some t) (hd : s.active d = true) :
    t.active d = true ∧ t.queuesCount = s.queuesCount := by
  induction acts generalizing s with
  | nil => cases h; exact ⟨hd, rfl⟩
  | cons a acts ih =>
    obtain ⟨s₁, hstep, h⟩ := Option.bind_eq_some_iff.1 h
    have hto := StepTo.of_step hstep
    obtain ⟨hactive, hcount⟩ := ih h (hto.active_mono hd)
    exact ⟨hactive, hcount.trans hto.queuesCount_eq⟩

theorem Marked.setCall {pc : CallPc} (h : s.Marked d) (hpc : pc ≠ .activated) :
    (s.setCall c pc).Marked d := by
  intro hd
  by_cases hcd : d = c
  · rw [hcd] at hd
    exact absurd ((update_self ..).symm.trans hd) hpc
  · exact h ((update_of_ne hcd _ _).symm.trans hd)

theorem Marked.step (h : s.Marked d) (hstep : StepTo s a s') : s'.Marked d := by
  cases hstep with
  | @activate c _ _ =>
    intro hd
    show update s.active c true d = true
    by_cases hcd : d = c
    · rw [hcd, update_self]
    · rw [update_of_ne hcd]
      exact h ((update_of_ne hcd _ _).symm.trans hd)
  | startState _ _ _ _ _ => exact Marked.setCall (s := s.beginCall _) h nofun
  | countEnd _ _ _ => exact Marked.setCall (s := s.setState _ _) h nofun
  | push _ _ => exact Marked.setCall (s := s.pushElem _ _) h nofun
  | waitReturn _ _ _ =>
    exact Marked.setCall (s := { s with pending := update s.pending _ false }) h nofun
  | deleteAll _ _ | startNull _ _ _ | countNext _ _ _ | testActive _ _ _ _ _ | testSkip _ _ _ _
  | testEnd _ _ _ | wait _ _ _ _ => exact h.setCall nofun
  | handlerDelete _ => unfold deleteRange; split <;> exact h
  | handlerSignal _ => unfold signal; split <;> exact h
  | _ => exact h

theorem active_of_deleteAll (hm : s.Marked d) (h : s.steps acts = some t)
    (hd : .deleteAll d ∈ acts) : t.active d = true ∧ d < t.queuesCount := by
  induction acts generalizing s with
  | nil => cases hd
  | cons a acts ih =>
    obtain ⟨s₁, hstep, h⟩ := Option.bind_eq_some_iff.1 h
    have hto := StepTo.of_step hstep
    rcases List.mem_cons.1 hd with rfl | hd
    · cases hto with
      | deleteAll hruns hcall =>
        obtain ⟨hactive, hcount⟩ := steps_active h (hm hcall)
        rw [hcount]
        exact ⟨hactive, of_decide_eq_true (Bool.and_eq_true_iff.1 hruns).1⟩
    · exact ih (hm.step hto) h hd

/-! ## Going through the queues -/

/-- Until it has pushed to an active queue, the call does not come past it. -/
theorem StepTo.ahead (h : StepTo s a s') (hne : d ≠ c) (hlt : d < s.queuesCount)
    (hactive : s.active d = true) (hahead : CallPc.Ahead job d (s.call c)) :
    (a = .push c ∧ s.call c = .pushing job d) ∨ CallPc.Ahead job d (s'.call c) := by
  have hother {c' : Nat} {pc : CallPc} (hc : c ≠ c') :
      CallPc.Ahead job d (update s.call c' pc c) := by
    rw [update_of_ne hc]
    exact hahead
  have hself {pc : CallPc} (hpc : pc.Ahead job d) :
      CallPc.Ahead job d (update s.call c pc c) := by
    rw [update_self]
    exact hpc
  cases h with
  | @activate c' _ hc' | @deleteAll c' _ hc' | @startNull c' _ _ hc' _ | @startState c' _ _ hc' _ _ _
  | @wait c' _ _ hc' _ _ | @waitReturn c' _ _ hc' _ =>
    -- the CPU that makes the step is in no enqueue call
    right
    by_cases hc : c = c'
    · subst hc
      rw [hc'] at hahead
      exact hahead.elim
    · exact hother hc
  | @countNext c' j _ _ _ hc' _ | @countEnd c' j _ _ _ hc' _ =>
    right
    by_cases hc : c = c'
    · subst hc
      rw [hc'] at hahead
      first | exact hself hahead | exact hself ⟨hahead, Nat.zero_le d⟩
    · exact hother hc
  | @testActive c' j i _ hc' _ _ _ =>
    right
    by_cases hc : c = c'
    · subst hc
      rw [hc'] at hahead
      exact hself hahead
    · exact hother hc
  | @testSkip c' j i _ hc' _ hskip =>
    right
    by_cases hc : c = c'
    · subst hc
      rw [hc'] at hahead
      refine hself ⟨hahead.1, ?_⟩
      -- queue `d` itself is not skipped
      have hid : i ≠ d := fun hid => hskip (hid ▸ ⟨hactive, hne⟩)
      have := hahead.2
      omega
    · exact hother hc
  | @testEnd c' j i _ hc' hend =>
    right
    by_cases hc : c = c'
    · subst hc
      rw [hc'] at hahead
      have := hahead.2
      omega
    · exact hother hc
  | @push c' j i _ hc' =>
    by_cases hc : c = c'
    · subst hc
      rw [hc'] at hahead
      obtain ⟨rfl, hi⟩ := hahead
      rcases Nat.eq_or_lt_of_le hi with rfl | hlt'
      · exact .inl ⟨rfl, hc'⟩
      · exact .inr (hself ⟨rfl, hlt'⟩)
    · exact .inr (hother hc)
  | handlerDelete _ => unfold deleteRange; split <;> exact .inr hahead
  | handlerSignal _ => unfold signal; split <;> exact .inr hahead
  | _ => exact .inr hahead

/-- Among the steps, CPU `c` puts what it was called with at the head of queue `d`. -/
def PushedTo (s : ShootdownSys) (c d : Nat) (job : EnqueueJob) (acts : List Act) : Prop :=
  ∃ pre post u u', acts = pre ++ .push c :: post ∧ s.steps pre = some u ∧
    u.step (.push c) = some u' ∧ u'.queue d = ⟨job.range, job.state, u.clock⟩ :: u.queue d

theorem PushedTo.cons (hstep : s.step a = some s') (h : s'.PushedTo c d job acts) :
    s.PushedTo c d job (a :: acts) := by
  obtain ⟨pre, post, u, u', rfl, hpre, hpush⟩ := h
  exact ⟨a :: pre, post, u, u', rfl, Option.bind_eq_some_iff.2 ⟨s', hstep, hpre⟩, hpush⟩

theorem PushedTo.append_left (hsteps : s.steps acts = some s') (h : s'.PushedTo c d job acts') :
    s.PushedTo c d job (acts ++ acts') := by
  obtain ⟨pre, post, u, u', rfl, hpre, hpush⟩ := h
  exact ⟨acts ++ pre, post, u, u', by simp, steps_append.2 ⟨s', hsteps, hpre⟩, hpush⟩

theorem PushedTo.append_right (h : s.PushedTo c d job acts) (acts' : List Act) :
    s.PushedTo c d job (acts ++ acts') := by
  obtain ⟨pre, post, u, u', rfl, hpush⟩ := h
  exact ⟨pre, post ++ acts', u, u', by simp, hpush⟩

theorem StepTo.queue_of_push (h : StepTo s (.push c) s') (hcall : s.call c = .pushing job d) :
    s'.queue d = ⟨job.range, job.state, s.clock⟩ :: s.queue d := by
  cases h with
  | push _ hc =>
    rw [hcall] at hc
    cases hc
    exact update_self ..

/-- An enqueue call that returned has pushed to every queue that was active all along. -/
theorem pushedTo_of_returned (hne : d ≠ c) (hlt : d < s.queuesCount) (hactive : s.active d = true)
    (hahead : CallPc.Ahead job d (s.call c)) (h : s.steps acts = some t) (ht : t.call c = .idle) :
    s.PushedTo c d job acts := by
  induction acts generalizing s with
  | nil =>
    cases h
    rw [ht] at hahead
    exact hahead.elim
  | cons a acts ih =>
    obtain ⟨s₁, hstep, h⟩ := Option.bind_eq_some_iff.1 h
    have hto := StepTo.of_step hstep
    rcases hto.ahead hne hlt hactive hahead with ⟨rfl, hcall⟩ | hahead
    · exact ⟨[], acts, s, s₁, rfl, rfl, hstep, hto.queue_of_push hcall⟩
    · exact (ih (hto.queuesCount_eq ▸ hlt) (hto.active_mono hactive) hahead h).cons hstep

theorem ahead_of_start (h : s.step (.start c job) = some s') : CallPc.Ahead job d (s'.call c) := by
  cases StepTo.of_step h with
  | startNull _ _ _ =>
    show CallPc.Ahead job d (update s.call c _ c)
    rw [update_self]
    exact ⟨rfl, Nat.zero_le d⟩
  | startState _ _ _ _ _ =>
    show CallPc.Ahead job d (update s.call c _ c)
    rw [update_self]
    exact rfl

/-! ## The translation cache -/

/-- What a step leaves of the pages that CPU `d` has cached. -/
def cacheLeft (s : ShootdownSys) (d : Nat) (cache : List Nat) : Act → List Nat
  | .deleteAll c => if c = d then [] else cache
  | .handlerDelete c =>
    match s.handler c with
    | .processing e =>
      if c = d ∧ isVmmcacheShootdownRangeNull e.range then cache.filter (· ∉ pagesOf e.range)
      else cache
    | _ => cache
  | _ => cache

/-- What the steps leave of the pages that CPU `d` had cached before them. -/
def cachedAfter (d : Nat) : ShootdownSys → List Nat → List Act → List Nat
  | _, cache, [] => cache
  | s, cache, a :: acts =>
    match s.step a with
    | some s' => cachedAfter d s' (s.cacheLeft d cache a) acts
    | none => cache

theorem cacheLeft_eq (cache : List Nat) :
    s.cacheLeft d cache a = if a = .deleteAll d then [] else cache := by
  cases a with
  | deleteAll c => simp [cacheLeft]
  | handlerDelete c =>
    rw [if_neg nofun, cacheLeft]
    split
    · split
      · -- a null range has no pages
        rw [pagesOf_null (And.right ‹_›)]
        simp
      · rfl
    · rfl
  | _ => rfl

/-- Only the activation deletes what was cached. -/
theorem cachedAfter_eq (cache : List Nat) (h : s.steps acts = some t) :
    s.cachedAfter d cache acts = if .deleteAll d ∈ acts then [] else cache := by
  induction acts generalizing s cache with
  | nil => rfl
  | cons a acts ih =>
    obtain ⟨s₁, hstep, h⟩ := Option.bind_eq_some_iff.1 h
    rw [cachedAfter, hstep]
    show s₁.cachedAfter d (s.cacheLeft d cache a) acts = _
    rw [ih _ h, cacheLeft_eq]
    by_cases ha : a = .deleteAll d <;> simp [ha, Ne.symm]

/-- An interleaving of a page-table change and the enqueue call after it on CPU `c` with an
activation on CPU `d`. The change is made in state `s`, after the steps `before` and before
the steps `after`. -/
structure ChangeAndActivation (n : Nat) (owner : Nat → Nat) (c d : Nat) (job : EnqueueJob)
    (before after : List Act) (s : ShootdownSys) : Prop where
  run : (init n owner).steps before = some s
  /-- The enqueue call starts after the change, and it returns. -/
  enqueue : ∃ acts₁ acts₂ acts₃ s₁ s₂ s₃ t, after = acts₁ ++ .start c job :: acts₂ ++ acts₃ ∧
    s.steps acts₁ = some s₁ ∧ s₁.step (.start c job) = some s₂ ∧ s₂.steps acts₂ = some s₃ ∧
    s₃.call c = .idle ∧ s₃.steps acts₃ = some t
  activation : .deleteAll d ∈ before ++ after

theorem ChangeAndActivation.steps {n : Nat} {owner : Nat → Nat} {before after : List Act}
    (h : ChangeAndActivation n owner c d job before after s) : ∃ t, s.steps after = some t := by
  obtain ⟨acts₁, acts₂, acts₃, s₁, s₂, s₃, t, rfl, hchange, hstart, henqueue, -, hrest⟩ := h.enqueue
  exact ⟨t, steps_append.2 ⟨s₃, steps_append.2 ⟨s₁, hchange,
    Option.bind_eq_some_iff.2 ⟨s₂, hstart, henqueue⟩⟩, hrest⟩⟩

/-- The range was pushed to the queue of the activated CPU, or that CPU deletes its whole
cache after the change. No page of the range that it had cached at the change stays cached
exactly if it deletes its cache after the change or had none of these pages cached. -/
theorem translations_deleted_iff {n : Nat} {owner : Nat → Nat} {c d : Nat} {job : EnqueueJob}
    {before after : List Act} {s : ShootdownSys} (cache : List Nat) (hne : d ≠ c)
    (h : ChangeAndActivation n owner c d job before after s) :
    (s.PushedTo c d job after ∨ .deleteAll d ∈ after) ∧
      ((∀ page ∈ pagesOf job.range, page ∉ s.cachedAfter d cache after) ↔
        .deleteAll d ∈ after ∨ ∀ page ∈ pagesOf job.range, page ∉ cache) := by
  constructor
  · obtain ⟨acts₁, acts₂, acts₃, s₁, s₂, s₃, t, rfl, hchange, hstart, henqueue, hreturned, -⟩ :=
      h.enqueue
    rcases List.mem_append.1 h.activation with hd | hd
    · -- `d` was activated before the change, so its queue was active all along
      left
      obtain ⟨hactive, hlt⟩ := active_of_deleteAll (fun h => by cases h) h.run hd
      obtain ⟨hactive₁, hcount₁⟩ := steps_active hchange hactive
      have hto := StepTo.of_step hstart
      have hpushed := pushedTo_of_returned hne (by rw [hto.queuesCount_eq, hcount₁]; exact hlt)
        (hto.active_mono hactive₁) (ahead_of_start hstart) henqueue hreturned
      exact (PushedTo.append_left hchange (hpushed.cons hstart)).append_right acts₃
    · exact .inr hd
  · obtain ⟨t, hsteps⟩ := h.steps
    rw [cachedAfter_eq cache hsteps]
    by_cases hd : .deleteAll d ∈ after
    · simp [hd]
    · simp [hd]

/-- CPU 1 marks its queue after CPU 0 has found it not active, and deletes its cache. -/
theorem translations_deleted_twoCpus :
    4096 ∉ (init 2 fun _ => 0).cachedAfter 1 [4096, 8192]
      [.start 0 ⟨⟨4096, 1⟩, 0⟩, .test 0, .test 0, .activate 1, .test 0, .deleteAll 1] :=
  (@translations_deleted_iff 2 (fun _ => 0) 0 1 ⟨⟨4096, 1⟩, 0⟩ [] _ _ [4096, 8192] (by decide)
    { run := rfl
      enqueue := ⟨[], [.test 0, .test 0, .activate 1, .test 0], [.deleteAll 1], _, _, _, _, rfl,
        rfl, rfl, rfl, by decide, rfl⟩
      activation := by decide }).2.2 (.inl (by decide)) 4096 (by decide)

/-- CPU 1 was activated before the change. The range is pushed to its queue and its handler
takes it from there, but the page stays in its cache. -/
theorem exists_translation_kept :
    ∃ before after s t, ChangeAndActivation 2 (fun _ => 0) 0 1 ⟨⟨4096, 1⟩, 0⟩ before after s ∧
      s.steps after = some t ∧ t.queue 1 = [] ∧ t.handler 1 = .off ∧
        4096 ∈ s.cachedAfter 1 [4096] after := by
  let enqueue : List Act := [.test 0, .test 0, .push 0, .test 0]
  let handle : List Act := [.interrupt 1, .handlerTest 1, .handlerPop 1, .handlerDelete 1,
    .handlerSignal 1, .handlerTest 1]
  exact ⟨[.activate 1, .deleteAll 1], .start 0 ⟨⟨4096, 1⟩, 0⟩ :: enqueue ++ handle, _, _,
    { run := rfl
      enqueue := ⟨[], enqueue, handle, _, _, _, _, rfl, rfl, rfl, rfl, by decide, rfl⟩
      activation := by decide }, rfl, by decide, by decide, by decide⟩

end ShootdownSys

end GarbageOS
