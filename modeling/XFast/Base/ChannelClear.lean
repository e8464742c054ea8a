import XFast.Base.ChannelThreads

/-! # The number of elements and clear

    `clear` sets the number of elements to 0 and empties the queue, both under
    the lock.  A push increments the number before it takes the lock: if it
    has incremented when `clear` sets the number to 0, and enqueues afterwards,
    its element is never counted.

    What is counted is `due`: the elements that will be in the queue when the
    operations in progress are over. -/

namespace XFast

open Steps

namespace ChanState

variable {τ : Type}

/-! ## Section 1: What is to be shown -/

/-- `pop_front` takes the lock and is run to its end. -/
def popAlone (millsecond : Nat) : List (ChanLabel τ) :=
  [.lockForPop millsecond, .next, .next, .next, .next, .next]

/-- `size` and `empty` are exact, and what is in the queue can be popped. -/
structure Exact (s : ChanState τ) : Prop where
  counted : s.size_ = s.queue_.length
  size : s.size = s.queue_.length
  empty : s.empty = true ↔ s.queue_ = []
  pops : ∀ (millsecond : Nat) (t : τ) (rest : List τ), s.queue_ = t :: rest →
    ∃ s', run step s (popAlone millsecond) = some s' ∧ s'.queue_ = rest ∧
      s'.returns = s.returns ++ [⟨⟨millsecond, false⟩, true, [t]⟩]

/-- The assertion has not failed; and when no push, pop or `clear` is between
    two of its steps, the number is exact.  Pops that wait may be there. -/
def CounterSurvives (s : ChanState τ) : Prop :=
  s.failed = false ∧ (s.holder = none → s.pending = [] → s.Exact)

/-- The elements that will be in the queue when the operations in progress are
    over; nothing while `clear` is about to set the number to 0. -/
def due (s : ChanState τ) : Nat :=
  match s.holder with
  | some .resetSize => 0
  | some .clearQueue => s.pending.length
  | some (.decrement _) | some (.take _) => s.queue_.length - 1 + s.pending.length
  | _ => s.queue_.length + s.pending.length

/-- No push is between its increment and its enqueue when `clear` sets the
    number to 0, and there are fewer than 2^31 elements. -/
def ClearAlone (s : ChanState τ) : ChanLabel τ → Prop
  | .incr _ _ => s.due + 1 < 2 ^ 31
  | .next => s.holder = some .resetSize → s.pending = []
  | .enqueue _ | .lockForPop _ | .lockForClear | .wake _ | .waitThrows _ | .signal => True

instance [DecidableEq τ] (s : ChanState τ) : ∀ l, Decidable (s.ClearAlone l)
  | .incr _ _ => inferInstanceAs (Decidable (_ < _))
  | .next => inferInstanceAs (Decidable (_ → _))
  | .enqueue _ | .lockForPop _ | .lockForClear | .wake _ | .waitThrows _ | .signal => isTrue trivial

/-! ## Section 2: The invariant -/

/-- A pop that has passed its assertion and has not decremented. -/
def decrementing (s : ChanState τ) : Nat :=
  match s.holder with
  | some (.decrement _) => 1
  | _ => 0

/-- The number is right, up to overflow, except while `clear` is about to set
    it. -/
structure Tallied (s : ChanState τ) : Prop where
  count : s.holder ≠ some .resetSize → s.size_ = toInt32 (s.due + s.decrementing)
  found : s.HasFound → s.queue_ ≠ []
  passed : s.failed = false

/-- And there is no overflow. -/
structure Counted (s : ChanState τ) : Prop extends Tallied s where
  bound : s.due < 2 ^ 31

theorem Counted.size_eq {s : ChanState τ} (h : s.Counted) (hreset : s.holder ≠ some .resetSize)
    (hdecrement : s.decrementing = 0) : s.size_ = s.due := by
  have hbound := h.bound
  rw [h.count hreset, hdecrement, toInt32_of_range (by omega) (by omega)]
  rfl

theorem counted_initial : (initial : ChanState τ).Counted where
  count := fun _ => (toInt32_of_range (Int.neg_nonpos_of_nonneg (Int.natCast_nonneg _))
    (Int.natCast_pos.mpr (Nat.two_pow_pos 31))).symm
  found := by
    rintro ⟨call, h | h | h⟩ <;> cases h
  passed := rfl
  bound := Nat.two_pow_pos 31

/-! ## Section 3: A channel that is at rest -/

/-- A pop that takes the lock while the number and the queue agree that there
    is an element. -/
theorem run_popAlone {s : ChanState τ} {millsecond : Nat} {t : τ} {rest : List τ}
    (hrunning : s.failed = false) (hfree : s.holder = none) (hsize : s.size ≠ 0)
    (hpos : 0 < s.size_) (hqueue : s.queue_ = t :: rest) :
    ∃ s', run step s (popAlone millsecond) = some s' ∧ s'.queue_ = rest ∧
      s'.returns = s.returns ++ [⟨⟨millsecond, false⟩, true, [t]⟩] := by
  let call : PopCall := ⟨millsecond, false⟩
  have hlock : s.step (.lockForPop millsecond) = some { s with holder := some (.testSize call) } := by
    unfold step
    rw [if_neg (Bool.eq_false_iff.mp hrunning), hfree]
  have htest : next { s with holder := some (.testSize call) } (.testSize call) =
      { s with holder := some (.testEmpty call) } := if_neg hsize
  have hempty : next { s with holder := some (.testEmpty call) } (.testEmpty call) =
      { s with holder := some (.assertSize call) } := by
    have hne : s.queue_ ≠ [] := by simp [hqueue]
    exact if_neg hne
  have hassert : next { s with holder := some (.assertSize call) } (.assertSize call) =
      { s with holder := some (.decrement call) } := if_pos hpos
  refine ⟨{ s with
    size_ := toInt32 (s.size_ - 1)
    queue_ := s.queue_.tail
    holder := none
    returns := s.returns ++ [⟨call, true, s.queue_.take 1⟩] }, ?_, ?_, ?_⟩
  · refine run_cons_of_step hlock ?_
    refine run_cons_of_step (step_next hrunning rfl) ?_
    rw [htest]
    refine run_cons_of_step (step_next hrunning rfl) ?_
    rw [hempty]
    refine run_cons_of_step (step_next hrunning rfl) ?_
    rw [hassert]
    refine run_cons_of_step (step_next hrunning rfl) ?_
    exact run_cons_of_step (step_next hrunning rfl) rfl
  · show s.queue_.tail = rest
    rw [hqueue, List.tail_cons]
  · show s.returns ++ [⟨call, true, s.queue_.take 1⟩] = _
    rw [hqueue, List.take_one, List.head?_cons]
    rfl

theorem Counted.exact {s : ChanState τ} (h : s.Counted) (hfree : s.holder = none)
    (hpending : s.pending = []) : s.Exact := by
  have hdue : s.due = s.queue_.length := by
    unfold due
    rw [hfree, hpending]
    rfl
  have hbound := h.bound
  have hsize : s.size_ = s.queue_.length := by
    rw [h.size_eq (by simp [hfree]) (by simp [decrementing, hfree]), hdue]
  have hexact : s.size = s.queue_.length := by
    have hmod : (sizeModulus : Int) = 2 ^ 64 := by decide
    rw [size, hsize, toSize_of_nonneg (by omega) (by omega)]
    rfl
  refine ⟨hsize, hexact, ?_, ?_⟩
  · rw [empty, decide_eq_true_eq, hsize, ← List.length_eq_zero_iff]
    omega
  · intro millsecond t rest hqueue
    have hlength : s.queue_.length = rest.length + 1 := by
      rw [hqueue]
      rfl
    have hne : s.size ≠ 0 := by omega
    have hpos : 0 < s.size_ := by omega
    exact run_popAlone h.passed hfree hne hpos hqueue

/-! ## Section 4: Steps -/

theorem toInt32_toInt32_add (a b : Int) : toInt32 (toInt32 a + b) = toInt32 (a + b) :=
  Int.bmod_add_bmod

/-- A step that changes neither the number nor what is due. -/
theorem Tallied.congr {s s' : ChanState τ} (h : s.Tallied) (hreset : s.holder ≠ some .resetSize)
    (hsize : s'.size_ = s.size_) (hdue : s'.due + s'.decrementing = s.due + s.decrementing)
    (hfound : s'.HasFound → s'.queue_ ≠ []) (hfailed : s'.failed = s.failed) : s'.Tallied where
  count := by
    intro _
    rw [hsize, h.count hreset]
    apply congrArg toInt32
    omega
  found := hfound
  passed := hfailed.trans h.passed

/-- A step under the lock that leaves the number alone, taken away from the two places that
change it. -/
theorem Tallied.locked {s : ChanState τ} (h : s.Tallied) {holder : LockHolder}
    (hholder : s.holder = some holder) (hreset : holder ≠ .resetSize)
    (hdecrement : ∀ call, holder ≠ .decrement call) {s' : ChanState τ} (hsize : s'.size_ = s.size_)
    (hdue : s'.due = s.due) (hnone : s'.decrementing = 0)
    (hfound : s'.HasFound → s'.queue_ ≠ []) (hfailed : s'.failed = s.failed) : s'.Tallied := by
  have hstart : s.holder ≠ some .resetSize := by
    rw [hholder]
    intro heq
    exact hreset (Option.some.inj heq)
  have hbefore : s.decrementing = 0 := by
    cases holder with
    | decrement call => exact absurd rfl (hdecrement call)
    | _ => simp only [decrementing, hholder]
  exact h.congr hstart hsize (by rw [hdue, hnone, hbefore]) hfound hfailed

/-- One more element, outside the lock. -/
theorem due_incr {s : ChanState τ} (hreset : s.holder ≠ some .resetSize) (size : Int)
    (push : PendingPush τ) :
    due { s with size_ := size, pending := s.pending ++ [push] } = s.due + 1 := by
  unfold due
  cases hholder : s.holder with
  | none =>
    simp only [List.length_append, List.length_singleton]
    omega
  | some holder =>
    cases holder with
    | resetSize => exact absurd hholder hreset
    | _ => simp only [List.length_append, List.length_singleton, Nat.add_assoc]

theorem Tallied.incr {s : ChanState τ} (h : s.Tallied) (push : PendingPush τ) :
    Tallied { s with size_ := toInt32 (s.size_ + 1), pending := s.pending ++ [push] } where
  count := by
    intro hreset
    have hreset : s.holder ≠ some .resetSize := hreset
    rw [due_incr hreset]
    show toInt32 (s.size_ + 1) = toInt32 (((s.due + 1 : Nat) : Int) + s.decrementing)
    rw [h.count hreset, toInt32_toInt32_add]
    apply congrArg toInt32
    omega
  found := h.found
  passed := h.passed

/-- Only a pop that passes its assertion changes what is due. -/
theorem due_next {s : ChanState τ} {holder : LockHolder} (hholder : s.holder = some holder)
    (hclear : holder = .resetSize → s.pending = [])
    (hassert : ∀ call, holder ≠ .assertSize call) : (s.next holder).due = s.due := by
  cases holder with
  | testSize call =>
    dsimp only [next]
    split
    · split <;> simp only [due, refuse, hholder]
    · simp only [due, hholder]
  | testEmpty call =>
    dsimp only [next]
    split <;> simp only [due, refuse, hholder]
  | assertSize call => exact absurd rfl (hassert call)
  | decrement call => simp only [next, due, hholder]
  | take call => simp only [next, due, hholder, List.length_tail]
  | resetSize => simp only [next, due, hholder, hclear rfl, List.length_nil]
  | clearQueue => simp only [next, due, hholder, List.length_nil, Nat.zero_add]

theorem Tallied.next {s : ChanState τ} (h : s.Tallied) {holder : LockHolder}
    (hholder : s.holder = some holder) (hclear : holder = .resetSize → s.pending = [])
    (hassert : ∀ call, holder ≠ .assertSize call) : (s.next holder).Tallied := by
  have hdue := due_next hholder hclear hassert
  cases holder with
  | testSize call =>
    have hnone : (s.next (.testSize call)).decrementing = 0 ∧
        (s.next (.testSize call)).size_ = s.size_ ∧ (s.next (.testSize call)).failed = s.failed ∧
        ¬ (s.next (.testSize call)).HasFound := by
      dsimp only [ChanState.next]
      split
      · split <;> simp [decrementing, refuse, HasFound]
      · simp [decrementing, HasFound]
    obtain ⟨hdec, hsize, hfailed, hnot⟩ := hnone
    refine h.locked hholder ?_ ?_ hsize hdue hdec (fun hfound => absurd hfound hnot) hfailed
    · simp
    · simp
  | testEmpty call =>
    have hnone : (s.next (.testEmpty call)).decrementing = 0 ∧
        (s.next (.testEmpty call)).size_ = s.size_ ∧ (s.next (.testEmpty call)).failed = s.failed ∧
        ((s.next (.testEmpty call)).HasFound → (s.next (.testEmpty call)).queue_ ≠ []) := by
      dsimp only [ChanState.next]
      split
      · simp [decrementing, refuse, HasFound]
      · rename_i hne
        exact ⟨rfl, rfl, rfl, fun _ => hne⟩
    obtain ⟨hdec, hsize, hfailed, hfound⟩ := hnone
    refine h.locked hholder ?_ ?_ hsize hdue hdec hfound hfailed
    · simp
    · simp
  | assertSize call => exact absurd rfl (hassert call)
  | decrement call =>
    -- the number follows what is due, which went down at the assertion
    have hreset : s.holder ≠ some .resetSize := by simp [hholder]
    have hdecrement : s.decrementing = 1 := by simp [decrementing, hholder]
    have hfound : s.queue_ ≠ [] := h.found ⟨call, Or.inr (Or.inl hholder)⟩
    refine ⟨?_, fun _ => hfound, h.passed⟩
    intro _
    rw [hdue]
    show toInt32 (s.size_ - 1) = toInt32 (s.due + 0)
    rw [h.count hreset, hdecrement, Int.sub_eq_add_neg, toInt32_toInt32_add]
    apply congrArg toInt32
    omega
  | take call =>
    have hnot : ¬ (s.next (.take call)).HasFound := not_hasFound_of_free rfl
    refine h.locked hholder ?_ ?_ rfl hdue rfl (fun hfound => absurd hfound hnot) rfl
    · simp
    · simp
  | resetSize =>
    -- no push is caught between its steps, so 0 is the right number
    refine ⟨?_, ?_, h.passed⟩
    · intro _
      have hnone : (s.next .resetSize).decrementing = 0 := rfl
      have hzero : s.due = 0 := by simp [due, hholder]
      rw [hdue, hnone, hzero, toInt32_of_range (by omega) (by omega)]
      rfl
    · rintro ⟨call, h | h | h⟩ <;> cases h
  | clearQueue =>
    have hnot : ¬ (s.next .clearQueue).HasFound := not_hasFound_of_free rfl
    refine h.locked hholder ?_ ?_ rfl hdue rfl (fun hfound => absurd hfound hnot) rfl
    · simp
    · simp

/-- The assertion holds, and the pop goes on. -/
theorem Counted.assertSize {s : ChanState τ} (h : s.Counted) {call : PopCall}
    (hholder : s.holder = some (.assertSize call)) : (s.next (.assertSize call)).Counted := by
  have hfound : s.queue_ ≠ [] := h.found ⟨call, Or.inl hholder⟩
  have hlength := List.length_pos_of_ne_nil hfound
  have hdue : s.due = s.queue_.length + s.pending.length := by simp [due, hholder]
  have hbound := h.bound
  have hsize : s.size_ = s.due :=
    h.size_eq (by simp [hholder]) (by simp [decrementing, hholder])
  have hpos : 0 < s.size_ := by omega
  have hless : due { s with holder := some (.decrement call) } =
      s.queue_.length - 1 + s.pending.length := rfl
  dsimp only [ChanState.next]
  rw [if_pos hpos]
  refine ⟨⟨?_, fun _ => hfound, h.passed⟩, by omega⟩
  intro _
  have hone : decrementing { s with holder := some (.decrement call) } = 1 := rfl
  rw [hone, toInt32_of_range (by omega) (by omega), hless]
  show s.size_ = _
  omega

theorem Counted.next {s : ChanState τ} (h : s.Counted) {holder : LockHolder}
    (hholder : s.holder = some holder) (hclear : holder = .resetSize → s.pending = []) :
    (s.next holder).Counted := by
  by_cases hassert : ∃ call, holder = .assertSize call
  · obtain ⟨call, rfl⟩ := hassert
    exact h.assertSize hholder
  · have hassert : ∀ call, holder ≠ .assertSize call := fun call heq => hassert ⟨call, heq⟩
    refine ⟨h.toTallied.next hholder hclear hassert, ?_⟩
    rw [due_next hholder hclear hassert]
    exact h.bound

/-- A step that takes the free lock, or leaves it free, and moves no element. -/
theorem Counted.of_free {s s' : ChanState τ} (h : s.Counted) (hfree : s.holder = none)
    (hsize : s'.size_ = s.size_) (hdue : s'.due = s.due) (hdecrement : s'.decrementing = 0)
    (hfound : ¬ s'.HasFound) (hfailed : s'.failed = s.failed) : s'.Counted := by
  have hnone : s.decrementing = 0 := by simp [decrementing, hfree]
  refine ⟨h.congr (by simp [hfree]) hsize (by omega) (fun hhas => absurd hhas hfound) hfailed, ?_⟩
  rw [hdue]
  exact h.bound

theorem counted_step (s : ChanState τ) (l : ChanLabel τ) (s' : ChanState τ) (h : s.Counted)
    (hgood : s.ClearAlone l) (hstep : s.step l = some s') : s'.Counted := by
  obtain ⟨_, hto⟩ := step_cases hstep
  cases hto with
  | incr pushEnd t =>
    refine ⟨h.toTallied.incr ⟨pushEnd, t⟩, ?_⟩
    have hgood : s.due + 1 < 2 ^ 31 := hgood
    by_cases hreset : s.holder = some .resetSize
    · -- the number will be set to 0 whatever it is
      unfold due
      dsimp only
      rw [hreset]
      exact Nat.two_pow_pos 31
    · rw [due_incr hreset]
      exact hgood
  | enqueue i push hfree hpush =>
    obtain ⟨hlt, _⟩ := List.getElem?_eq_some_iff.mp hpush
    refine h.of_free hfree rfl ?_ (by simp [decrementing, hfree]) (not_hasFound_of_free hfree) rfl
    simp only [due, hfree, push.length_enqueue, List.length_eraseIdx_of_lt hlt]
    omega
  | lockForPop millsecond hfree =>
    refine h.of_free hfree rfl ?_ rfl ?_ rfl
    · simp only [due, hfree]
    · rintro ⟨call, h | h | h⟩ <;> cases h
  | lockForClear hfree =>
    refine ⟨⟨fun hreset => absurd rfl hreset, ?_, h.passed⟩, Nat.two_pow_pos 31⟩
    rintro ⟨call, h | h | h⟩ <;> cases h
  | next holder hholder => exact h.next hholder fun heq => hgood (heq ▸ hholder)
  | wake i call hfree hcall =>
    refine h.of_free hfree rfl ?_ rfl ?_ rfl
    · simp only [due, hfree]
    · rintro ⟨call, h | h | h⟩ <;> cases h
  | waitThrows i hfree =>
    refine h.of_free hfree rfl ?_ (by simp [decrementing, hfree]) (not_hasFound_of_free hfree) rfl
    simp only [due, hfree]
  | signal hfree =>
    refine h.of_free hfree rfl ?_ (by simp [decrementing, hfree]) (not_hasFound_of_free hfree) rfl
    simp only [due, hfree]

theorem Counted.survives {s : ChanState τ} (h : s.Counted) : s.CounterSurvives :=
  ⟨h.passed, h.exact⟩

/-! ## Section 5: Where the number is wrong -/

/-- Steps of the kind that is allowed lead to a channel whose number is wrong. -/
def LeadsAstray (s : ChanState τ) : Prop := Reaches step ClearAlone (¬ ·.CounterSurvives) s

theorem LeadsAstray.of_next {s : ChanState τ} {holder : LockHolder} (hrunning : s.failed = false)
    (hholder : s.holder = some holder) (hreset : holder ≠ .resetSize)
    (h : (s.next holder).LeadsAstray) : s.LeadsAstray := by
  refine Reaches.of_step (step_next hrunning hholder) ?_ h
  intro heq
  rw [hholder] at heq
  exact absurd (Option.some.inj heq) hreset

/-- Nothing is in progress but pushes, and the number is not that of all
    elements: when the pushes are over, it is still not.  Induction on the
    pending pushes. -/
theorem leadsAstray_of_free : ∀ (pending : List (PendingPush τ)) (s : ChanState τ),
    s.pending = pending → s.failed = false → s.holder = none →
      s.size_ ≠ ((s.queue_.length + pending.length : Nat) : Int) → s.LeadsAstray := by
  intro pending
  induction pending with
  | nil =>
    intro s hpending _ hfree hsize
    apply Reaches.here
    intro hsurvives
    exact hsize (hsurvives.2 hfree hpending).counted
  | cons push pending ih =>
    intro s hpending hrunning hfree hsize
    have hstep : s.step (.enqueue 0) =
        some { s with queue_ := push.enqueue s.queue_, pending := pending } := by
      unfold step
      rw [if_neg (Bool.eq_false_iff.mp hrunning), hfree, hpending]
      rfl
    refine Reaches.of_step hstep trivial ?_
    refine ih _ rfl hrunning hfree ?_
    show s.size_ ≠ (((push.enqueue s.queue_).length + pending.length : Nat) : Int)
    rw [List.length_cons] at hsize
    rw [push.length_enqueue]
    omega

/-- `clear` has set the number to 0, and a push that was counted is still to
    come. -/
theorem leadsAstray_of_reset {s : ChanState τ} (hrunning : s.failed = false)
    (hpending : s.pending ≠ []) : (s.next .resetSize).LeadsAstray := by
  refine LeadsAstray.of_next hrunning rfl nofun ?_
  refine leadsAstray_of_free s.pending _ rfl hrunning rfl ?_
  have hlength := List.length_pos_of_ne_nil hpending
  show (0 : Int) ≠ ((([] : List τ).length + s.pending.length : Nat) : Int)
  rw [List.length_nil]
  omega

/-- The number has overflowed. -/
structure Overflown (s : ChanState τ) : Prop extends Tallied s where
  due_eq : s.due = 2 ^ 31
  reset : s.holder ≠ some .resetSize

theorem Overflown.size_neg {s : ChanState τ} (h : s.Overflown) (hdecrement : s.decrementing = 0) :
    s.size_ = - 2 ^ 31 := by
  rw [h.count h.reset, h.due_eq, hdecrement]
  decide

theorem Overflown.leadsAstray_of_free {s : ChanState τ} (h : s.Overflown)
    (hfree : s.holder = none) : s.LeadsAstray := by
  have hdue : s.due = s.queue_.length + s.pending.length := by simp [due, hfree]
  have hsize := h.size_neg (by simp [decrementing, hfree])
  apply ChanState.leadsAstray_of_free s.pending s rfl h.passed hfree
  rw [← hdue, h.due_eq, hsize]
  decide

/-- Unless it is at its assertion, the thread that holds the lock goes on. -/
theorem Overflown.next {s : ChanState τ} (h : s.Overflown) {holder : LockHolder}
    (hholder : s.holder = some holder) (hassert : ∀ call, holder ≠ .assertSize call) :
    (s.next holder).Overflown := by
  have hclear : holder = .resetSize → s.pending = [] := by
    intro heq
    rw [heq] at hholder
    exact absurd hholder h.reset
  refine ⟨h.toTallied.next hholder hclear hassert, (due_next hholder hclear hassert).trans h.due_eq,
    ?_⟩
  cases holder with
  | testSize call =>
    dsimp only [ChanState.next]
    split
    · split <;> simp [refuse]
    · simp
  | testEmpty call =>
    dsimp only [ChanState.next]
    split <;> simp [refuse]
  | assertSize call => exact absurd rfl (hassert call)
  | decrement call => simp [ChanState.next]
  | take call => simp [ChanState.next]
  | resetSize => exact absurd hholder h.reset
  | clearQueue => simp [ChanState.next]

/-- The assertion fails. -/
theorem Overflown.leadsAstray_of_assertSize {s : ChanState τ} (h : s.Overflown) {call : PopCall}
    (hholder : s.holder = some (.assertSize call)) : s.LeadsAstray := by
  have hsize := h.size_neg (by simp [decrementing, hholder])
  have hnot : ¬ 0 < s.size_ := by omega
  refine LeadsAstray.of_next h.passed hholder nofun ?_
  apply Reaches.here
  intro hsurvives
  have hfailed : (s.next (.assertSize call)).failed = true := by
    dsimp only [ChanState.next]
    rw [if_neg hnot]
  rw [hsurvives.1] at hfailed
  cases hfailed

theorem Overflown.leadsAstray_of_testEmpty {s : ChanState τ} (h : s.Overflown) {call : PopCall}
    (hholder : s.holder = some (.testEmpty call)) : s.LeadsAstray := by
  have hnext := h.next hholder nofun
  refine LeadsAstray.of_next h.passed hholder nofun ?_
  by_cases hempty : s.queue_ = []
  · apply hnext.leadsAstray_of_free
    dsimp only [ChanState.next]
    rw [if_pos hempty]
    rfl
  · have hafter : (s.next (.testEmpty call)).holder = some (.assertSize call) := by
      dsimp only [ChanState.next]
      rw [if_neg hempty]
    exact hnext.leadsAstray_of_assertSize hafter

/-- Whoever holds the lock, in the end the number is seen to be wrong. -/
theorem Overflown.leadsAstray {s : ChanState τ} (h : s.Overflown) : s.LeadsAstray := by
  cases hholder : s.holder with
  | none => exact h.leadsAstray_of_free hholder
  | some holder =>
    cases holder with
    | testSize call =>
      have hnext := h.next hholder nofun
      refine LeadsAstray.of_next h.passed hholder nofun ?_
      have hne : s.size ≠ 0 := by
        rw [size, h.size_neg (by simp [decrementing, hholder])]
        decide
      have hafter : (s.next (.testSize call)).holder = some (.testEmpty call) := by
        dsimp only [ChanState.next]
        rw [if_neg hne]
      exact hnext.leadsAstray_of_testEmpty hafter
    | testEmpty call => exact h.leadsAstray_of_testEmpty hholder
    | assertSize call => exact h.leadsAstray_of_assertSize hholder
    | decrement call =>
      -- the decrement wraps around as well, but the number stays too small
      have hnext := h.next hholder nofun
      have hlast : ((s.next (.decrement call)).next (.take call)).Overflown := hnext.next rfl nofun
      refine LeadsAstray.of_next h.passed hholder nofun ?_
      refine LeadsAstray.of_next hnext.passed rfl nofun ?_
      exact hlast.leadsAstray_of_free rfl
    | take call =>
      have hnext := h.next hholder nofun
      refine LeadsAstray.of_next h.passed hholder nofun ?_
      exact hnext.leadsAstray_of_free rfl
    | resetSize => exact absurd hholder h.reset
    | clearQueue =>
      have hnext := h.next hholder nofun
      refine LeadsAstray.of_next h.passed hholder nofun ?_
      exact hnext.leadsAstray_of_free rfl

/-- A step that is not of the kind that is allowed leads astray. -/
theorem leadsAstray_of_not_clearAlone {s s₁ : ChanState τ} {l : ChanLabel τ} (h : s.Counted)
    (hstep : s.step l = some s₁) (hbad : ¬ s.ClearAlone l) : s₁.LeadsAstray := by
  obtain ⟨_, hto⟩ := step_cases hstep
  cases hto with
  | incr pushEnd t =>
    have hbad : ¬ s.due + 1 < 2 ^ 31 := hbad
    have hbound := h.bound
    have hreset : s.holder ≠ some .resetSize := by
      intro hreset
      have hzero : s.due = 0 := by simp [due, hreset]
      omega
    -- one more than 2^31 - 1
    apply Overflown.leadsAstray
    refine ⟨h.toTallied.incr ⟨pushEnd, t⟩, ?_, hreset⟩
    rw [due_incr hreset]
    omega
  | next holder hholder =>
    obtain ⟨hreset, hpending⟩ := Classical.not_imp.mp hbad
    rw [hholder] at hreset
    cases hreset
    exact leadsAstray_of_reset h.passed hpending
  | _ => exact absurd trivial hbad

/-! ## Section 6: Runs -/

/-- **The number of elements.**  In every run of pushes at both ends, pops,
    `clear` and `signal` by any number of threads: if no push is between its
    increment and its enqueue whenever `clear` sets the number to 0, and fewer
    than 2^31 elements are there at a time, then the assertion does not fail,
    and whenever no operation is between two of its steps the number is that
    of the elements in the queue, and they can be popped.  Of the steps that
    are possible then, exactly those of this kind can never lead to anything
    else. -/
theorem counter_survives_iff {ls : List (ChanLabel τ)} {s : ChanState τ}
    (hgood : AllSteps step ClearAlone initial ls) (hrun : run step initial ls = some s) :
    s.CounterSurvives ∧ ∀ l s₁, s.step l = some s₁ →
      (s.ClearAlone l ↔ ∀ ls' s', AllSteps step ClearAlone s₁ ls' →
        run step s₁ ls' = some s' → s'.CounterSurvives) := by
  apply keeps_and_exact counted_initial counted_step (fun _ h => h.survives) _ hgood hrun
  exact fun _ _ _ h hstep hbad => leadsAstray_of_not_clearAlone h hstep hbad

/-- A `clear` between two pushes, and two pushes that enqueue at both ends. -/
theorem counter_survives_iff_three : ∃ s : ChanState Nat, run step initial
      [.incr .back 7, .enqueue 0, .lockForClear, .next, .next, .incr .front 8, .incr .back 9,
        .enqueue 1, .enqueue 0, .lockForPop 0, .next, .next, .next, .next, .next] = some s ∧
    s.returns = [⟨⟨0, false⟩, true, [8]⟩] ∧ s.queue_ = [9] ∧ s.CounterSurvives := by
  refine ⟨⟨1, [9], [], none, [], [⟨⟨0, false⟩, true, [8]⟩], false⟩, by decide +kernel, rfl, rfl, ?_⟩
  refine (counter_survives_iff ?_ (by decide +kernel : run step (initial : ChanState Nat)
      [.incr .back 7, .enqueue 0, .lockForClear, .next, .next, .incr .front 8, .incr .back 9,
        .enqueue 1, .enqueue 0, .lockForPop 0, .next, .next, .next, .next, .next] = some _)).1
  decide +kernel

/-- `clear` between the two steps of a push: nothing is in progress, one
    element is in the queue, the number is 0, and a pop that does not wait gets
    nothing.  A pop that waits finds the element and fails its assertion. -/
theorem clear_between_steps_of_push :
    (∃ s : ChanState Nat, run step initial
        [.incr .back 7, .lockForClear, .next, .next, .enqueue 0] = some s ∧
      s.holder = none ∧ s.pending = [] ∧ s.waiters = [] ∧ s.size = 0 ∧ s.queue_ = [7] ∧
      ¬ s.CounterSurvives ∧
      ∃ s', run step s [.lockForPop 0, .next] = some s' ∧
        s'.returns = [⟨⟨0, false⟩, false, []⟩]) ∧
    ∃ s : ChanState Nat, run step initial
        [.lockForPop 10, .next, .incr .back 7, .lockForClear, .next, .next, .enqueue 0, .wake 0,
          .next, .next] = some s ∧
      s.failed = true ∧ ¬ s.CounterSurvives := by
  refine ⟨?_, ?_⟩
  · refine ⟨⟨0, [7], [], none, [], [], false⟩, by decide +kernel, rfl, rfl, rfl, by decide, rfl, ?_,
      ⟨0, [7], [], none, [], [⟨⟨0, false⟩, false, []⟩], false⟩, by decide +kernel, rfl⟩
    intro hsurvives
    exact absurd (hsurvives.2 rfl rfl).counted (by decide)
  · refine ⟨⟨0, [7], [], some (.assertSize ⟨10, false⟩), [], [], true⟩, by decide +kernel, rfl, ?_⟩
    intro hsurvives
    exact absurd hsurvives.1 (by decide)

end ChanState

end XFast
