import XFast.Base.ChannelThreads

/-! # Pops that wait forever

    `pop_front(t, -1)` waits at most once, and not at all where the number of
    elements is not 0.  The number may be ahead of the queue, and when the wait
    is over the queue may be empty: another consumer was faster, `clear` came
    between, or the wait ended for no reason.  In each of these cases the pop
    returns `false`. -/

namespace XFast

open Steps

/-- The call waits forever, and `signal` has not been called while it waits. -/
def PopCall.Unsignalled (call : PopCall) : Prop :=
  call.millsecond = PopCall.forever ∧ call.signalled = false

instance (call : PopCall) : Decidable call.Unsignalled := inferInstanceAs (Decidable (_ ∧ _))

/-- A pop that waits forever was signalled, or it has taken an element. -/
def PopReturn.Waited {τ : Type} (r : PopReturn τ) : Prop :=
  r.call.millsecond = PopCall.forever →
    r.result = false ∧ r.call.signalled = true ∨ r.result = true ∧ ∃ t, r.removed = [t]

namespace ChanState

variable {τ : Type}

/-! ## Section 1: What is to be shown -/

/-- Every pop that waits forever has waited for its element. -/
def PopsWait (s : ChanState τ) : Prop := ∀ r ∈ s.returns, r.Waited

/-- A pop that waits forever finds an element in the queue, when it sees that
    the number is not 0, and when its wait ends without a signal. -/
def FindsElement (s : ChanState τ) : ChanLabel τ → Prop
  | .next =>
      match s.holder with
      | some (.testSize call) => call.Unsignalled → s.size ≠ 0 → s.queue_ ≠ []
      | _ => True
  | .wake i =>
      match s.waiters[i]? with
      | some call => call.Unsignalled → s.queue_ ≠ []
      | none => True
  | .incr _ _ | .enqueue _ | .lockForPop _ | .lockForClear | .waitThrows _ | .signal => True

instance [DecidableEq τ] (s : ChanState τ) (l : ChanLabel τ) : Decidable (s.FindsElement l) := by
  unfold FindsElement
  split
  · split <;> infer_instance
  · split <;> infer_instance
  all_goals exact isTrue trivial

/-! ## Section 2: The invariant -/

/-- A pop that waits forever and looks at the queue finds it as it was told. -/
structure Waiting (s : ChanState τ) : Prop where
  kept : s.PopsWait
  found : s.HasFound → s.queue_ ≠ []
  tested : ∀ call, s.holder = some (.testEmpty call) → call.Unsignalled → s.queue_ ≠ []

theorem waiting_initial : (initial : ChanState τ).Waiting :=
  ⟨fun _ hr => absurd hr List.not_mem_nil, fun hfound => absurd hfound (not_hasFound_of_free rfl),
    nofun⟩

/-- A step to a state in which no pop has looked at the queue. -/
theorem Waiting.of_kept {s' : ChanState τ} (hkept : s'.PopsWait) (hfound : ¬ s'.HasFound)
    (htest : ∀ call, s'.holder ≠ some (.testEmpty call)) : s'.Waiting :=
  ⟨hkept, fun h => absurd h hfound, fun call h => absurd h (htest call)⟩

/-- One more pop has returned. -/
theorem PopsWait.append {s s' : ChanState τ} (h : s.PopsWait) {r : PopReturn τ}
    (hreturns : s'.returns = s.returns ++ [r]) (hr : r.Waited) : s'.PopsWait := by
  intro r' hmem
  rw [hreturns] at hmem
  rcases List.mem_append.mp hmem with hold | hnew
  · exact h r' hold
  · rw [List.mem_singleton.mp hnew]
    exact hr

theorem Waiting.refuse {s : ChanState τ} (h : s.Waiting) {call : PopCall}
    (hcall : call.millsecond = PopCall.forever → call.signalled = true) :
    (s.refuse call).Waiting := by
  refine Waiting.of_kept (h.kept.append rfl ?_) (not_hasFound_of_free rfl) nofun
  intro hforever
  exact Or.inl ⟨rfl, hcall hforever⟩

theorem Waiting.next {s : ChanState τ} (h : s.Waiting) {holder : LockHolder}
    (hholder : s.holder = some holder) (hgood : s.FindsElement .next) :
    (s.next holder).Waiting := by
  cases holder with
  | testSize call =>
    have hgood : call.Unsignalled → s.size ≠ 0 → s.queue_ ≠ [] := by
      simpa only [FindsElement, hholder] using hgood
    dsimp only [ChanState.next]
    split
    · split
      · -- this pop does not wait at all
        rename_i hzero
        apply h.refuse
        intro hforever
        rw [hzero] at hforever
        exact absurd hforever (by decide)
      · exact Waiting.of_kept h.kept (not_hasFound_of_free rfl) nofun
    · rename_i hsize
      refine ⟨h.kept, ?_, ?_⟩
      · rintro ⟨_, h | h | h⟩ <;> cases h
      · intro _ heq hcall
        cases heq
        exact hgood hcall hsize
  | testEmpty call =>
    dsimp only [ChanState.next]
    split
    · rename_i hempty
      apply h.refuse
      intro hforever
      -- it would have found an element
      by_contra hsignalled
      exact h.tested call hholder ⟨hforever, Bool.eq_false_iff.mpr hsignalled⟩ hempty
    · rename_i hne
      exact ⟨h.kept, fun _ => hne, nofun⟩
  | assertSize call =>
    have hne : s.queue_ ≠ [] := h.found ⟨call, Or.inl hholder⟩
    dsimp only [ChanState.next]
    split
    · exact ⟨h.kept, fun _ => hne, nofun⟩
    · exact ⟨h.kept, fun _ => hne, h.tested⟩
  | decrement call =>
    have hne : s.queue_ ≠ [] := h.found ⟨call, Or.inr (Or.inl hholder)⟩
    exact ⟨h.kept, fun _ => hne, nofun⟩
  | take call =>
    have hne : s.queue_ ≠ [] := h.found ⟨call, Or.inr (Or.inr hholder)⟩
    obtain ⟨t, rest, hqueue⟩ := List.exists_cons_of_ne_nil hne
    refine Waiting.of_kept (h.kept.append rfl ?_) (not_hasFound_of_free rfl) nofun
    intro _
    refine Or.inr ⟨rfl, t, ?_⟩
    show s.queue_.take 1 = [t]
    rw [hqueue]
    rfl
  | resetSize =>
    refine Waiting.of_kept h.kept ?_ nofun
    rintro ⟨_, h | h | h⟩ <;> cases h
  | clearQueue => exact Waiting.of_kept h.kept (not_hasFound_of_free rfl) nofun

theorem waiting_step (s : ChanState τ) (l : ChanLabel τ) (s' : ChanState τ) (h : s.Waiting)
    (hgood : s.FindsElement l) (hstep : s.step l = some s') : s'.Waiting := by
  obtain ⟨_, hto⟩ := step_cases hstep
  cases hto with
  | incr pushEnd t => exact ⟨h.kept, h.found, h.tested⟩
  | enqueue i push hfree hpush =>
    -- nobody holds the lock, so nobody is between looking and taking
    exact ⟨h.kept, fun _ => push.enqueue_ne_nil _, fun _ _ _ => push.enqueue_ne_nil _⟩
  | lockForPop millsecond hfree =>
    refine Waiting.of_kept h.kept ?_ nofun
    rintro ⟨_, h | h | h⟩ <;> cases h
  | lockForClear hfree =>
    refine Waiting.of_kept h.kept ?_ nofun
    rintro ⟨_, h | h | h⟩ <;> cases h
  | next holder hholder => exact h.next hholder hgood
  | wake i call hfree hcall =>
    have hgood : call.Unsignalled → s.queue_ ≠ [] := by
      simpa only [FindsElement, hcall] using hgood
    refine ⟨h.kept, ?_, ?_⟩
    · rintro ⟨_, h | h | h⟩ <;> cases h
    · intro _ heq
      cases heq
      exact hgood
  | waitThrows i hfree => exact ⟨h.kept, h.found, h.tested⟩
  | signal hfree => exact ⟨h.kept, h.found, h.tested⟩

/-! ## Section 3: Pops that do not wait -/

/-- Steps of the kind that is allowed lead to a pop that has not waited. -/
def LeadsAway (s : ChanState τ) : Prop := Reaches step FindsElement (¬ ·.PopsWait) s

/-- The next step of this pop returns `false`. -/
theorem leadsAway_of_testEmpty {s : ChanState τ} {call : PopCall} (hrunning : s.failed = false)
    (hholder : s.holder = some (.testEmpty call)) (hcall : call.Unsignalled)
    (hempty : s.queue_ = []) : s.LeadsAway := by
  have hgood : s.FindsElement .next := by
    simp only [FindsElement, hholder]
  refine Reaches.of_step (step_next hrunning hholder) hgood (Reaches.here ?_)
  dsimp only [ChanState.next]
  rw [if_pos hempty]
  intro hwait
  have hmem : ⟨call, false, []⟩ ∈ (s.refuse call).returns :=
    List.mem_append_right _ (List.mem_singleton.mpr rfl)
  rcases hwait _ hmem hcall.1 with ⟨_, hsignalled⟩ | ⟨htrue, _⟩
  · rw [hcall.2] at hsignalled
    cases hsignalled
  · cases htrue

theorem leadsAway_of_not_findsElement {s s₁ : ChanState τ} {l : ChanLabel τ}
    (hstep : s.step l = some s₁) (hbad : ¬ s.FindsElement l) : s₁.LeadsAway := by
  obtain ⟨hrunning, hto⟩ := step_cases hstep
  cases hto with
  | next holder hholder =>
    cases holder with
    | testSize call =>
      -- the number is ahead of the queue: on to `queue_.empty()`
      simp only [FindsElement, hholder, Classical.not_imp, not_not] at hbad
      obtain ⟨hcall, hsize, hempty⟩ := hbad
      dsimp only [ChanState.next]
      rw [if_neg hsize]
      exact leadsAway_of_testEmpty hrunning rfl hcall hempty
    | _ =>
      apply absurd _ hbad
      simp only [FindsElement, hholder]
  | wake i call hfree hcall =>
    simp only [FindsElement, hcall, Classical.not_imp, not_not] at hbad
    exact leadsAway_of_testEmpty hrunning rfl hbad.1 hbad.2
  | _ => exact absurd trivial hbad

/-! ## Section 4: Runs -/

/-- **Waiting.**  In every run of pushes, pops, `clear` and `signal` by any
    number of threads, with wake-ups at any time: if a pop that waits forever
    finds an element whenever it sees that the number is not 0 and whenever its
    wait ends without a signal, then every such pop that returns `false` was
    signalled while it waited, and every other has taken an element.  Of the
    steps that are possible then, exactly those of this kind can never lead to
    anything else. -/
theorem pops_wait_iff {ls : List (ChanLabel τ)} {s : ChanState τ}
    (hgood : AllSteps step FindsElement initial ls) (hrun : run step initial ls = some s) :
    s.PopsWait ∧ ∀ l s₁, s.step l = some s₁ →
      (s.FindsElement l ↔ ∀ ls' s', AllSteps step FindsElement s₁ ls' →
        run step s₁ ls' = some s' → s'.PopsWait) := by
  apply keeps_and_exact waiting_initial waiting_step (fun _ h => h.kept) _ hgood hrun
  exact fun _ _ _ _ hstep hbad => leadsAway_of_not_findsElement hstep hbad

/-- Two pops that wait forever: the first one gets the element that is pushed,
    the second one is signalled. -/
theorem pops_wait_iff_two : ∃ s : ChanState Nat, run step initial
      [.lockForPop PopCall.forever, .next, .lockForPop PopCall.forever, .next, .incr .back 7,
        .enqueue 0, .wake 0, .next, .next, .next, .next, .signal, .wake 0, .next] = some s ∧
    s.returns = [⟨⟨PopCall.forever, false⟩, true, [7]⟩, ⟨⟨PopCall.forever, true⟩, false, []⟩] ∧
    s.PopsWait := by
  refine ⟨⟨0, [], [], none, [],
    [⟨⟨PopCall.forever, false⟩, true, [7]⟩, ⟨⟨PopCall.forever, true⟩, false, []⟩], false⟩,
    by decide +kernel, rfl, ?_⟩
  refine (pops_wait_iff ?_ (by decide +kernel : run step (initial : ChanState Nat)
      [.lockForPop PopCall.forever, .next, .lockForPop PopCall.forever, .next, .incr .back 7,
        .enqueue 0, .wake 0, .next, .next, .next, .next, .signal, .wake 0, .next] = some _)).1
  decide +kernel

/-- A pop that waits forever returns `false`: at once, between the two steps of
    a push; and after its wait, when another pop has taken the element. -/
theorem pop_forever_refused :
    (∃ s : ChanState Nat, run step initial
        [.incr .back 7, .lockForPop PopCall.forever, .next, .next] = some s ∧
      s.returns = [⟨⟨PopCall.forever, false⟩, false, []⟩] ∧ ¬ s.PopsWait) ∧
    ∃ s : ChanState Nat, run step initial
        [.lockForPop PopCall.forever, .next, .incr .back 7, .enqueue 0, .lockForPop 0, .next,
          .next, .next, .next, .next, .wake 0, .next] = some s ∧
      s.returns = [⟨⟨0, false⟩, true, [7]⟩, ⟨⟨PopCall.forever, false⟩, false, []⟩] ∧
      ¬ s.PopsWait := by
  have hnot : ¬ (⟨⟨PopCall.forever, false⟩, false, []⟩ : PopReturn Nat).Waited := by
    intro hwaited
    rcases hwaited rfl with ⟨_, hsignalled⟩ | ⟨htrue, _⟩
    · cases hsignalled
    · cases htrue
  refine ⟨?_, ?_⟩
  · refine ⟨⟨1, [], [⟨.back, 7⟩], none, [], [⟨⟨PopCall.forever, false⟩, false, []⟩], false⟩,
      by decide +kernel, rfl, ?_⟩
    exact fun hwait => hnot (hwait _ (List.mem_singleton.mpr rfl))
  · refine ⟨⟨0, [], [], none, [], [⟨⟨0, false⟩, true, [7]⟩,
      ⟨⟨PopCall.forever, false⟩, false, []⟩], false⟩, by decide +kernel, rfl, ?_⟩
    exact fun hwait => hnot (hwait _ (List.mem_cons_of_mem _ (List.mem_singleton.mpr rfl)))

end ChanState

end XFast
