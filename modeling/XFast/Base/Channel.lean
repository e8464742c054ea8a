import Mathlib.Data.List.Nodup
import Mathlib.Data.List.Perm.Basic
import Mathlib.Data.List.Range
import XFast.Base.Machine
import XFast.Framework.Steps

/-! # xChan: a queue between threads

    Model of `push_back` and `pop_front` in `base/include/channel.h`.  The
    number of elements is kept in an atomic of its own.  A push increments it
    before it takes the lock, so the number may be ahead of the queue; a pop
    looks at the number first, and at the queue afterwards.

    A push that has incremented the number and has not yet enqueued is
    pending; there may be any number of them, one for each producer.  A pop
    holds the lock from its first step to its return, except while it waits;
    meanwhile the producers can do nothing but increment.  The elements are
    kept together with their numbers in the order of the increments. -/

namespace XFast

open Steps

/-! ## Section 1: The steps -/

/-- Where the pop is that holds the lock. -/
inductive PopPhase where
  /-- Before `size() == 0`. -/
  | testSize (millsecond : Nat)
  /-- Before `queue_.empty()`. -/
  | testEmpty
  /-- Before `assert(size_.get() > 0)`. -/
  | assertSize
  /-- Before `size_.decr()`. -/
  | decrement
  /-- Before `t = queue_.front(); queue_.pop_front()`. -/
  | take
  deriving DecidableEq, Repr

/-- The channel, the threads in it, and the history: what was pushed in the
    order of the increments, what was enqueued and popped, and `queue_` at
    each return of `false`.  `failed` says that the `assert` has failed. -/
structure XChan (τ : Type) where
  size_ : Int
  queue_ : List (Nat × τ)
  pending : List (Nat × τ)
  pop : Option PopPhase
  waiters : Nat
  pushed : List (Nat × τ)
  enqueued : List (Nat × τ)
  popped : List (Nat × τ)
  refusals : List (List (Nat × τ))
  failed : Bool
  deriving DecidableEq, Repr

inductive ChanStep (τ : Type) where
  /-- A producer calls `push_back(t)`: `size_.incr()`. -/
  | incr (t : τ)
  /-- The `i`-th of the pending pushes enqueues, under the lock. -/
  | enqueue (i : Nat)
  /-- A consumer calls `pop_front(t, millsecond)` and takes the lock. -/
  | lockForPop (millsecond : Nat)
  /-- The pop that holds the lock goes on. -/
  | popNext
  /-- A pop that waits takes the lock again: it was woken, its time is over, or
      it wakes for no reason. -/
  | wake
  /-- The wait of a pop fails with an exception. -/
  | waitThrows
  deriving DecidableEq, Repr

namespace XChan

variable {τ : Type}

def initial : XChan τ := ⟨0, [], [], none, 0, [], [], [], [], false⟩

/-- `pop_front` returns `false`, and the lock is released. -/
def refuse (s : XChan τ) : XChan τ := { s with pop := none, refusals := s.refusals ++ [s.queue_] }

/-- The next step of the pop that holds the lock. -/
def popNext (s : XChan τ) : PopPhase → XChan τ
  | .testSize millsecond =>
      if toSize s.size_ = 0 then
        -- `wait` and `timedWait` release the lock
        if millsecond = 0 then s.refuse else { s with pop := none, waiters := s.waiters + 1 }
      else { s with pop := some .testEmpty }
  | .testEmpty =>
      if s.queue_ = [] then s.refuse else { s with pop := some .assertSize }
  | .assertSize =>
      if 0 < s.size_ then { s with pop := some .decrement } else { s with failed := true }
  | .decrement => { s with size_ := toInt32 (s.size_ - 1), pop := some .take }
  | .take =>
      { s with queue_ := s.queue_.tail, pop := none, popped := s.popped ++ s.queue_.take 1 }

/-- No step is taken after the `assert` has failed. -/
def step (s : XChan τ) (l : ChanStep τ) : Option (XChan τ) :=
  if s.failed then none
  else
    match l with
    | .incr t =>
        let elem := (s.pushed.length, t)
        some { s with
          size_ := toInt32 (s.size_ + 1)
          pending := s.pending ++ [elem]
          pushed := s.pushed ++ [elem] }
    | .enqueue i =>
        match s.pop, s.pending[i]? with
        | none, some elem =>
            some { s with
              queue_ := s.queue_ ++ [elem]
              pending := s.pending.eraseIdx i
              enqueued := s.enqueued ++ [elem] }
        | _, _ => none
    | .lockForPop millsecond =>
        match s.pop with
        | none => some { s with pop := some (.testSize millsecond) }
        | some _ => none
    | .popNext => s.pop.map s.popNext
    | .wake =>
        if s.pop = none ∧ 0 < s.waiters then
          some { s with pop := some .testEmpty, waiters := s.waiters - 1 }
        else none
    | .waitThrows =>
        if s.pop = none ∧ 0 < s.waiters then some { s with waiters := s.waiters - 1 } else none

/-- What each step can do, with its guard. -/
inductive StepTo (s : XChan τ) : ChanStep τ → XChan τ → Prop where
  | incr (t : τ) :
      StepTo s (.incr t)
        { s with
          size_ := toInt32 (s.size_ + 1)
          pending := s.pending ++ [(s.pushed.length, t)]
          pushed := s.pushed ++ [(s.pushed.length, t)] }
  | enqueue (i : Nat) (elem : Nat × τ) (hpop : s.pop = none) (helem : s.pending[i]? = some elem) :
      StepTo s (.enqueue i)
        { s with
          queue_ := s.queue_ ++ [elem]
          pending := s.pending.eraseIdx i
          enqueued := s.enqueued ++ [elem] }
  | lockForPop (millsecond : Nat) (hpop : s.pop = none) :
      StepTo s (.lockForPop millsecond) { s with pop := some (.testSize millsecond) }
  | popNext (phase : PopPhase) (hpop : s.pop = some phase) : StepTo s .popNext (s.popNext phase)
  | wake (hpop : s.pop = none) :
      StepTo s .wake { s with pop := some .testEmpty, waiters := s.waiters - 1 }
  | waitThrows (hpop : s.pop = none) :
      StepTo s .waitThrows { s with waiters := s.waiters - 1 }

theorem step_cases {s s' : XChan τ} {l : ChanStep τ} (h : s.step l = some s') :
    s.failed = false ∧ StepTo s l s' := by
  unfold step at h
  split at h
  · cases h
  · rename_i hfailed
    refine ⟨Bool.eq_false_iff.mpr hfailed, ?_⟩
    cases l with
    | incr t =>
      cases h
      exact .incr t
    | enqueue i =>
      dsimp only at h
      split at h
      · rename_i elem hpop helem
        cases h
        exact .enqueue i elem hpop helem
      · cases h
    | lockForPop millsecond =>
      dsimp only at h
      split at h
      · rename_i hpop
        cases h
        exact .lockForPop millsecond hpop
      · cases h
    | popNext =>
      obtain ⟨phase, hpop, rfl⟩ := Option.map_eq_some_iff.mp h
      exact .popNext phase hpop
    | wake =>
      dsimp only at h
      split at h
      · rename_i hguard
        cases h
        exact .wake hguard.1
      · cases h
    | waitThrows =>
      dsimp only at h
      split at h
      · rename_i hguard
        cases h
        exact .waitThrows hguard.1
      · cases h

/-- Only `take` changes the queue. -/
theorem popNext_queue (s : XChan τ) {phase : PopPhase} (h : phase ≠ .take) :
    (s.popNext phase).queue_ = s.queue_ := by
  cases phase with
  | testSize millsecond =>
    dsimp only [popNext]
    split
    · split <;> rfl
    · rfl
  | testEmpty =>
    dsimp only [popNext]
    split <;> rfl
  | assertSize =>
    dsimp only [popNext]
    split <;> rfl
  | decrement => rfl
  | take => exact absurd rfl h

theorem popNext_pending (s : XChan τ) (phase : PopPhase) :
    (s.popNext phase).pending = s.pending := by
  cases phase with
  | testSize millsecond =>
    dsimp only [popNext]
    split
    · split <;> rfl
    · rfl
  | testEmpty =>
    dsimp only [popNext]
    split <;> rfl
  | assertSize =>
    dsimp only [popNext]
    split <;> rfl
  | decrement => rfl
  | take => rfl

/-! ## Section 2: Order

    None of this depends on the number of elements. -/

/-- The history agrees with the queue and the pending pushes. -/
structure Ordered (s : XChan τ) : Prop where
  numbered : s.pushed.map Prod.fst = List.range s.pushed.length
  arrived : s.pushed.Perm (s.enqueued ++ s.pending)
  fifo : s.enqueued = s.popped ++ s.queue_

theorem ordered_initial : (initial : XChan τ).Ordered where
  numbered := rfl
  arrived := List.Perm.refl _
  fifo := rfl

/-- A step that changes none of the lists. -/
theorem Ordered.congr {s s' : XChan τ} (h : s.Ordered) (hpushed : s'.pushed = s.pushed)
    (hpending : s'.pending = s.pending) (henqueued : s'.enqueued = s.enqueued)
    (hpopped : s'.popped = s.popped) (hqueue : s'.queue_ = s.queue_) : s'.Ordered where
  numbered := by rw [hpushed]; exact h.numbered
  arrived := by rw [hpushed, hpending, henqueued]; exact h.arrived
  fifo := by rw [henqueued, hpopped, hqueue]; exact h.fifo

theorem ordered_popNext {s : XChan τ} (h : s.Ordered) (phase : PopPhase) :
    (s.popNext phase).Ordered := by
  cases phase with
  | testSize millsecond =>
    dsimp only [popNext]
    split
    · split <;> exact h.congr rfl rfl rfl rfl rfl
    · exact h.congr rfl rfl rfl rfl rfl
  | testEmpty =>
    dsimp only [popNext]
    split <;> exact h.congr rfl rfl rfl rfl rfl
  | assertSize =>
    dsimp only [popNext]
    split <;> exact h.congr rfl rfl rfl rfl rfl
  | decrement => exact h.congr rfl rfl rfl rfl rfl
  | take =>
    refine ⟨h.numbered, h.arrived, ?_⟩
    show s.enqueued = s.popped ++ s.queue_.take 1 ++ s.queue_.tail
    rw [List.append_assoc, ← List.drop_one, List.take_append_drop]
    exact h.fifo

theorem ordered_step (s : XChan τ) (l : ChanStep τ) (s' : XChan τ) (h : s.Ordered)
    (hstep : s.step l = some s') : s'.Ordered := by
  obtain ⟨_, hto⟩ := step_cases hstep
  cases hto with
  | incr t =>
    refine ⟨?_, ?_, h.fifo⟩
    · simp only [List.map_append, List.map_cons, List.map_nil, List.length_append,
        List.length_singleton, List.range_succ, h.numbered]
    · show (s.pushed ++ [_]).Perm (s.enqueued ++ (s.pending ++ [_]))
      rw [← List.append_assoc]
      exact h.arrived.append_right _
  | enqueue i elem hpop helem =>
    obtain ⟨hlt, rfl⟩ := List.getElem?_eq_some_iff.mp helem
    refine ⟨h.numbered, ?_, ?_⟩
    · -- the element moves from the pending pushes to the end of the queue
      have hmove : s.pending.Perm (s.pending[i] :: s.pending.eraseIdx i) :=
        (List.getElem_cons_eraseIdx_perm hlt).symm
      calc s.pushed.Perm (s.enqueued ++ s.pending) := h.arrived
        _ |>.Perm (s.enqueued ++ (s.pending[i] :: s.pending.eraseIdx i)) :=
          hmove.append_left _
        _ = s.enqueued ++ [s.pending[i]] ++ s.pending.eraseIdx i := by
          rw [List.append_assoc, List.singleton_append]
    · show s.enqueued ++ [_] = s.popped ++ (s.queue_ ++ [_])
      rw [h.fifo, List.append_assoc]
  | lockForPop millsecond hpop => exact h.congr rfl rfl rfl rfl rfl
  | popNext phase hpop => exact ordered_popNext h phase
  | wake hpop => exact h.congr rfl rfl rfl rfl rfl
  | waitThrows hpop => exact h.congr rfl rfl rfl rfl rfl

/-! ## Section 3: The number of elements -/

/-- How many elements have been pushed and not yet popped. -/
def outstanding (s : XChan τ) : Nat := s.pushed.length - s.popped.length

/-- There are fewer than 2^31 elements in the channel, also after the step. -/
def Bounded (s : XChan τ) : ChanStep τ → Prop
  | .incr _ => s.outstanding + 1 < 2 ^ 31
  | _ => True

instance (s : XChan τ) : ∀ l, Decidable (s.Bounded l)
  | .incr _ => inferInstanceAs (Decidable (_ < _))
  | .enqueue _ | .lockForPop _ | .popNext | .wake | .waitThrows => isTrue trivial

theorem Ordered.outstanding_eq {s : XChan τ} (h : s.Ordered) :
    s.outstanding = s.queue_.length + s.pending.length := by
  have hlength := h.arrived.length_eq
  rw [h.fifo, List.length_append, List.length_append] at hlength
  unfold outstanding
  omega

/-- The pop has decremented the number, and has not yet taken the element. -/
def taking (s : XChan τ) : Nat := if s.pop = some .take then 1 else 0

/-- The number counts the queue and the pending pushes; a pop that has found
    an element still finds it. -/
structure Counted (s : XChan τ) : Prop extends Ordered s where
  count : s.size_ + s.taking = s.outstanding
  bound : s.outstanding < 2 ^ 31
  found : s.pop = some .assertSize ∨ s.pop = some .decrement ∨ s.pop = some .take →
    s.queue_ ≠ []
  passed : s.failed = false
  refused : ∀ queue ∈ s.refusals, queue = []

theorem counted_initial : (initial : XChan τ).Counted where
  toOrdered := ordered_initial
  count := rfl
  bound := Nat.two_pow_pos 31
  found := by
    intro h
    rcases h with h | h | h <;> cases h
  passed := rfl
  refused := by
    intro queue h
    cases h

/-- A step that changes only where the pop is, and not to or from `take`. -/
theorem Counted.goto {s : XChan τ} (h : s.Counted) (hnot : s.pop ≠ some .take)
    (pop : Option PopPhase) (waiters : Nat) (hpop : pop ≠ some .take)
    (hfound : pop = some .assertSize ∨ pop = some .decrement → s.queue_ ≠ []) :
    Counted { s with pop := pop, waiters := waiters } where
  toOrdered := h.congr rfl rfl rfl rfl rfl
  count := by
    have hcount := h.count
    unfold taking at hcount ⊢
    rw [if_neg hnot] at hcount
    rw [if_neg hpop]
    exact hcount
  bound := h.bound
  found := by
    intro hphase
    rcases hphase with h₁ | h₁ | h₁
    · exact hfound (Or.inl h₁)
    · exact hfound (Or.inr h₁)
    · exact absurd h₁ hpop
  passed := h.passed
  refused := h.refused

theorem Counted.refuse {s : XChan τ} (h : s.Counted) (hnot : s.pop ≠ some .take)
    (hempty : s.queue_ = []) : s.refuse.Counted := by
  have hgoto : Counted { s with pop := none } :=
    h.goto hnot none s.waiters (by simp) (by simp)
  refine ⟨hgoto.congr rfl rfl rfl rfl rfl, hgoto.count, hgoto.bound, hgoto.found, hgoto.passed, ?_⟩
  intro queue hmem
  rcases List.mem_append.mp hmem with hold | hnew
  · exact h.refused queue hold
  · rw [List.mem_singleton] at hnew
    rw [hnew]
    exact hempty

/-- Without a pop in progress the number is that of the elements. -/
theorem Counted.size_eq {s : XChan τ} (h : s.Counted) (hnot : s.pop ≠ some .take) :
    s.size_ = s.queue_.length + s.pending.length := by
  have hcount := h.count
  unfold taking at hcount
  rw [if_neg hnot, h.outstanding_eq] at hcount
  push_cast at hcount
  omega

theorem counted_popNext {s : XChan τ} (h : s.Counted) {phase : PopPhase}
    (hpop : s.pop = some phase) : (s.popNext phase).Counted := by
  cases phase with
  | testSize millsecond =>
    have hnot : s.pop ≠ some .take := by rw [hpop]; simp
    have hsize := h.size_eq hnot
    have hbound := h.bound
    rw [h.outstanding_eq] at hbound
    have hcast : toSize s.size_ = s.size_.toNat := by
      have hmod : (sizeModulus : Int) = 2 ^ 64 := by decide
      exact toSize_of_nonneg (by omega) (by omega)
    dsimp only [popNext]
    split
    · rename_i hzero
      split
      · -- the number is 0, so nothing is in the queue either
        apply h.refuse hnot
        rw [hcast] at hzero
        exact List.length_eq_zero_iff.mp (by omega)
      · exact h.goto hnot none (s.waiters + 1) (by simp) (by simp)
    · exact h.goto hnot (some .testEmpty) s.waiters (by simp) (by simp)
  | testEmpty =>
    have hnot : s.pop ≠ some .take := by rw [hpop]; simp
    dsimp only [popNext]
    -- the number may be ahead of the queue, so this is tested again
    split
    · rename_i hempty
      exact h.refuse hnot hempty
    · rename_i hne
      exact h.goto hnot (some .assertSize) s.waiters (by simp) fun _ => hne
  | assertSize =>
    have hnot : s.pop ≠ some .take := by rw [hpop]; simp
    have hne := h.found (Or.inl hpop)
    have hpos : 0 < s.size_ := by
      have hlength := List.length_pos_of_ne_nil hne
      have hsize := h.size_eq hnot
      omega
    dsimp only [popNext]
    rw [if_pos hpos]
    exact h.goto hnot (some .decrement) s.waiters (by simp) fun _ => hne
  | decrement =>
    have hnot : s.pop ≠ some .take := by rw [hpop]; simp
    have hne := h.found (Or.inr (Or.inl hpop))
    refine ⟨h.congr rfl rfl rfl rfl rfl, ?_, h.bound, fun _ => hne, h.passed, h.refused⟩
    have hlength := List.length_pos_of_ne_nil hne
    have hsize := h.size_eq hnot
    have hout := h.outstanding_eq
    have hbound := h.bound
    show toInt32 (s.size_ - 1) + ((if some PopPhase.take = some .take then 1 else 0 : Nat) : Int) =
      s.outstanding
    rw [if_pos rfl, toInt32_of_range (by omega) (by omega)]
    push_cast
    omega
  | take =>
    -- the number has gone down already, and now the queue follows
    have hne := h.found (Or.inr (Or.inr hpop))
    have hordered := ordered_popNext h.toOrdered .take
    have hcount := h.count
    have hout := h.outstanding_eq
    have hbound := h.bound
    have hlength := List.length_pos_of_ne_nil hne
    unfold taking at hcount
    rw [if_pos hpop] at hcount
    have hout' : (s.popNext .take).outstanding = s.queue_.length - 1 + s.pending.length := by
      rw [hordered.outstanding_eq]
      simp only [popNext, List.length_tail]
    refine ⟨hordered, ?_, ?_, ?_, h.passed, h.refused⟩
    · rw [hout']
      show s.size_ + ((if none = some PopPhase.take then 1 else 0 : Nat) : Int) = _
      rw [if_neg (by simp)]
      push_cast at hcount ⊢
      omega
    · rw [hout']
      omega
    · intro hphase
      rcases hphase with h₁ | h₁ | h₁ <;> cases h₁

theorem counted_step (s : XChan τ) (l : ChanStep τ) (s' : XChan τ) (h : s.Counted)
    (hgood : s.Bounded l) (hstep : s.step l = some s') : s'.Counted := by
  have hordered := ordered_step s l s' h.toOrdered hstep
  obtain ⟨_, hto⟩ := step_cases hstep
  cases hto with
  | incr t =>
    have hgood : s.outstanding + 1 < 2 ^ 31 := hgood
    have hout := h.outstanding_eq
    have hout' := hordered.outstanding_eq
    have hcount := h.count
    simp only [List.length_append, List.length_singleton] at hout'
    have htaking : s.taking ≤ 1 := by
      unfold taking
      split <;> omega
    have hsize : toInt32 (s.size_ + 1) = s.size_ + 1 := toInt32_of_range (by omega) (by omega)
    refine ⟨hordered, ?_, by omega, h.found, h.passed, h.refused⟩
    show toInt32 (s.size_ + 1) + (s.taking : Int) = _
    rw [hout', hsize]
    push_cast
    omega
  | enqueue i elem hpop helem =>
    obtain ⟨hlt, rfl⟩ := List.getElem?_eq_some_iff.mp helem
    have hout' := hordered.outstanding_eq
    have hout := h.outstanding_eq
    simp only [List.length_append, List.length_singleton, List.length_eraseIdx_of_lt hlt] at hout'
    have hsame : XChan.outstanding { s with
        queue_ := s.queue_ ++ [s.pending[i]]
        pending := s.pending.eraseIdx i
        enqueued := s.enqueued ++ [s.pending[i]] } = s.outstanding := by
      rw [hout', hout]
      omega
    refine ⟨hordered, ?_, ?_, ?_, h.passed, h.refused⟩
    · rw [hsame]
      exact h.count
    · rw [hsame]
      exact h.bound
    · intro _
      simp
  | lockForPop millsecond hpop =>
    exact h.goto (by rw [hpop]; simp) _ s.waiters (by simp) (by simp)
  | popNext phase hpop => exact counted_popNext h hpop
  | wake hpop => exact h.goto (by rw [hpop]; simp) _ (s.waiters - 1) (by simp) (by simp)
  | waitThrows hpop =>
    exact h.goto (by rw [hpop]; simp) s.pop (s.waiters - 1) (by rw [hpop]; simp)
      (by rw [hpop]; simp)

/-- **Delivery.**  With any number of producers and consumers, any timeouts and
    any interleaving, and fewer than 2^31 elements at a time: what was pushed
    is, each element once, what was popped, what is in the queue and what is
    pending; the elements are popped in the order in which they were
    enqueued; the assertion has not failed; and whenever `pop_front` returned
    `false`, the queue was empty. -/
theorem delivered_once_in_order (ls : List (ChanStep τ)) (s : XChan τ)
    (hbound : AllSteps step Bounded initial ls) (hrun : run step initial ls = some s) :
    s.pushed.Perm (s.popped ++ s.queue_ ++ s.pending) ∧ (s.pushed.map Prod.fst).Nodup ∧
      s.enqueued = s.popped ++ s.queue_ ∧ s.failed = false ∧
      ∀ queue ∈ s.refusals, queue = [] := by
  have h : s.Counted := run_of_allSteps counted_step ls initial s counted_initial hbound hrun
  refine ⟨?_, ?_, h.fifo, h.passed, h.refused⟩
  · rw [← h.fifo]
    exact h.arrived
  · rw [h.numbered]
    exact List.nodup_range

/-- Two producers and a pop between their increments and their enqueues: the
    pop is refused though the number is 2, and the second push enters the
    queue first. -/
theorem delivered_once_in_order_two : ∃ s : XChan Nat,
    run step initial [.incr 7, .incr 8, .lockForPop 0, .popNext, .popNext, .enqueue 1, .enqueue 0,
      .lockForPop 10, .popNext, .popNext, .popNext, .popNext, .popNext] = some s ∧
    s.popped = [(1, 8)] ∧ s.queue_ = [(0, 7)] ∧ s.refusals = [[]] ∧ s.failed = false := by
  refine ⟨⟨1, [(0, 7)], [], none, 0, [(0, 7), (1, 8)], [(1, 8), (0, 7)], [(1, 8)], [[]], false⟩,
    by decide +kernel, rfl, rfl, rfl, ?_⟩
  exact (delivered_once_in_order [.incr 7, .incr 8, .lockForPop 0, .popNext, .popNext, .enqueue 1,
    .enqueue 0, .lockForPop 10, .popNext, .popNext, .popNext, .popNext, .popNext] _
    (by decide +kernel) (by decide +kernel)).2.2.2.1

end XChan

end XFast
