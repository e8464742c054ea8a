import XFast.Base.Channel

/-! # xChan with all its operations

    The channel of `Channel` with everything that its threads can call:
    `push_back`, `push_front`, `pop_front`, `clear` and `signal`.  Each of them
    is cut at its atomic steps.  A push increments the number of elements
    before it takes the lock; everything else is done under the lock, one
    thread at a time, except that a pop gives it back while it waits.

    Every run of `Channel` is a run of this channel.  `returns`, and in each
    call of `pop_front` whether `signal` was called while it waits, are
    history. -/

namespace XFast

open Steps

/-! ## Section 1: The steps -/

/-- `push_back` or `push_front`. -/
inductive PushEnd where
  | back
  | front
  deriving DecidableEq, Repr

/-- A push that has incremented the number and has not yet taken the lock. -/
structure PendingPush (τ : Type) where
  pushEnd : PushEnd
  elem : τ
  deriving DecidableEq, Repr

def PendingPush.enqueue {τ : Type} (push : PendingPush τ) (queue : List τ) : List τ :=
  match push.pushEnd with
  | .back => queue ++ [push.elem]
  | .front => push.elem :: queue

theorem PendingPush.length_enqueue {τ : Type} (push : PendingPush τ) (queue : List τ) :
    (push.enqueue queue).length = queue.length + 1 := by
  unfold PendingPush.enqueue
  split
  · exact List.length_append
  · rfl

theorem PendingPush.enqueue_ne_nil {τ : Type} (push : PendingPush τ) (queue : List τ) :
    push.enqueue queue ≠ [] := by
  intro hnil
  have hlength := push.length_enqueue queue
  rw [hnil] at hlength
  exact absurd hlength (Nat.succ_ne_zero _).symm

/-- A call of `pop_front`, and whether `signal` was called while it waits. -/
structure PopCall where
  millsecond : Nat
  signalled : Bool
  deriving DecidableEq, Repr

/-- The argument `-1`, which waits forever. -/
def PopCall.forever : Nat := toSize (-1)

/-- A call of `pop_front` that has returned, with what it took off the queue. -/
structure PopReturn (τ : Type) where
  call : PopCall
  result : Bool
  removed : List τ
  deriving DecidableEq, Repr

/-- Where the thread is that holds the lock. -/
inductive LockHolder where
  /-- `pop_front`, before `size() == 0`. -/
  | testSize (call : PopCall)
  /-- Before `queue_.empty()`. -/
  | testEmpty (call : PopCall)
  /-- Before `assert(size_.get() > 0)`. -/
  | assertSize (call : PopCall)
  /-- Before `size_.decr()`. -/
  | decrement (call : PopCall)
  /-- Before `t = queue_.front(); queue_.pop_front()`. -/
  | take (call : PopCall)
  /-- `clear`, before `size_.getAndSet(0)`. -/
  | resetSize
  /-- Before `queue_.clear()`. -/
  | clearQueue
  deriving DecidableEq, Repr

/-- The channel, the threads in it, and the returns so far.  `failed` says that
    the `assert` has failed. -/
structure ChanState (τ : Type) where
  size_ : Int
  queue_ : List τ
  pending : List (PendingPush τ)
  holder : Option LockHolder
  waiters : List PopCall
  returns : List (PopReturn τ)
  failed : Bool
  deriving DecidableEq, Repr

inductive ChanLabel (τ : Type) where
  /-- A producer calls `push_back(t)` or `push_front(t)`: `size_.incr()`. -/
  | incr (pushEnd : PushEnd) (t : τ)
  /-- The `i`-th of the pending pushes takes the lock, enqueues and wakes the
      waiting pops. -/
  | enqueue (i : Nat)
  /-- A consumer calls `pop_front(t, millsecond)` and takes the lock. -/
  | lockForPop (millsecond : Nat)
  /-- A thread calls `clear` and takes the lock. -/
  | lockForClear
  /-- The thread that holds the lock goes on. -/
  | next
  /-- The `i`-th of the waiting pops takes the lock again: it was woken, its
      time is over, or it wakes for no reason. -/
  | wake (i : Nat)
  /-- The wait of a pop fails with an exception. -/
  | waitThrows (i : Nat)
  /-- A thread calls `signal`. -/
  | signal
  deriving DecidableEq, Repr

namespace ChanState

variable {τ : Type}

def initial : ChanState τ := ⟨0, [], [], none, [], [], false⟩

/-- `xChan::size`. -/
def size (s : ChanState τ) : Nat := toSize s.size_

/-- `xChan::empty`. -/
def empty (s : ChanState τ) : Bool := s.size_ = 0

/-- `pop_front` returns `false`, and the lock is released. -/
def refuse (s : ChanState τ) (call : PopCall) : ChanState τ :=
  { s with holder := none, returns := s.returns ++ [⟨call, false, []⟩] }

/-- The next step of the thread that holds the lock. -/
def next (s : ChanState τ) : LockHolder → ChanState τ
  | .testSize call =>
      if s.size = 0 then
        -- `wait` and `timedWait` release the lock
        if call.millsecond = 0 then s.refuse call
        else { s with holder := none, waiters := s.waiters ++ [call] }
      else { s with holder := some (.testEmpty call) }
  | .testEmpty call =>
      if s.queue_ = [] then s.refuse call else { s with holder := some (.assertSize call) }
  | .assertSize call =>
      if 0 < s.size_ then { s with holder := some (.decrement call) }
      else { s with failed := true }
  | .decrement call =>
      { s with size_ := toInt32 (s.size_ - 1), holder := some (.take call) }
  | .take call =>
      { s with
        queue_ := s.queue_.tail
        holder := none
        returns := s.returns ++ [⟨call, true, s.queue_.take 1⟩] }
  | .resetSize => { s with size_ := 0, holder := some .clearQueue }
  | .clearQueue => { s with queue_ := [], holder := none }

/-- No step is taken after the `assert` has failed. -/
def step (s : ChanState τ) (l : ChanLabel τ) : Option (ChanState τ) :=
  if s.failed then none
  else
    match l with
    | .incr pushEnd t =>
        -- whoever holds the lock
        some { s with
          size_ := toInt32 (s.size_ + 1)
          pending := s.pending ++ [⟨pushEnd, t⟩] }
    | .enqueue i =>
        match s.holder, s.pending[i]? with
        | none, some push =>
            some { s with
              queue_ := push.enqueue s.queue_
              pending := s.pending.eraseIdx i }
        | _, _ => none
    | .lockForPop millsecond =>
        match s.holder with
        | none => some { s with holder := some (.testSize ⟨millsecond, false⟩) }
        | some _ => none
    | .lockForClear =>
        match s.holder with
        | none => some { s with holder := some .resetSize }
        | some _ => none
    | .next => s.holder.map s.next
    | .wake i =>
        match s.holder, s.waiters[i]? with
        | none, some call =>
            -- the wait is not repeated: next is `queue_.empty()`
            some { s with holder := some (.testEmpty call), waiters := s.waiters.eraseIdx i }
        | _, _ => none
    | .waitThrows i =>
        match s.holder, s.waiters[i]? with
        | none, some _ => some { s with waiters := s.waiters.eraseIdx i }
        | _, _ => none
    | .signal =>
        match s.holder with
        -- all waiting pops are woken; each comes back by a `wake` of its own
        | none => some { s with waiters := s.waiters.map fun call => { call with signalled := true } }
        | some _ => none

/-! ## Section 2: What each step can do -/

/-- One constructor for each step, with its guard. -/
inductive StepTo (s : ChanState τ) : ChanLabel τ → ChanState τ → Prop where
  | incr (pushEnd : PushEnd) (t : τ) :
      StepTo s (.incr pushEnd t)
        { s with
          size_ := toInt32 (s.size_ + 1)
          pending := s.pending ++ [⟨pushEnd, t⟩] }
  | enqueue (i : Nat) (push : PendingPush τ) (hfree : s.holder = none)
      (hpush : s.pending[i]? = some push) :
      StepTo s (.enqueue i)
        { s with
          queue_ := push.enqueue s.queue_
          pending := s.pending.eraseIdx i }
  | lockForPop (millsecond : Nat) (hfree : s.holder = none) :
      StepTo s (.lockForPop millsecond) { s with holder := some (.testSize ⟨millsecond, false⟩) }
  | lockForClear (hfree : s.holder = none) :
      StepTo s .lockForClear { s with holder := some .resetSize }
  | next (holder : LockHolder) (hholder : s.holder = some holder) :
      StepTo s .next (s.next holder)
  | wake (i : Nat) (call : PopCall) (hfree : s.holder = none)
      (hcall : s.waiters[i]? = some call) :
      StepTo s (.wake i)
        { s with holder := some (.testEmpty call), waiters := s.waiters.eraseIdx i }
  | waitThrows (i : Nat) (hfree : s.holder = none) :
      StepTo s (.waitThrows i) { s with waiters := s.waiters.eraseIdx i }
  | signal (hfree : s.holder = none) :
      StepTo s .signal
        { s with waiters := s.waiters.map fun call => { call with signalled := true } }

theorem step_cases {s s' : ChanState τ} {l : ChanLabel τ} (h : s.step l = some s') :
    s.failed = false ∧ StepTo s l s' := by
  unfold step at h
  split at h
  · cases h
  · rename_i hfailed
    refine ⟨Bool.eq_false_iff.mpr hfailed, ?_⟩
    cases l with
    | incr pushEnd t =>
      cases h
      exact .incr pushEnd t
    | enqueue i =>
      dsimp only at h
      split at h
      · rename_i push hfree hpush
        cases h
        exact .enqueue i push hfree hpush
      · cases h
    | lockForPop millsecond =>
      dsimp only at h
      split at h
      · rename_i hfree
        cases h
        exact .lockForPop millsecond hfree
      · cases h
    | lockForClear =>
      dsimp only at h
      split at h
      · rename_i hfree
        cases h
        exact .lockForClear hfree
      · cases h
    | next =>
      obtain ⟨holder, hholder, rfl⟩ := Option.map_eq_some_iff.mp h
      exact .next holder hholder
    | wake i =>
      dsimp only at h
      split at h
      · rename_i call hfree hcall
        cases h
        exact .wake i call hfree hcall
      · cases h
    | waitThrows i =>
      dsimp only at h
      split at h
      · rename_i hfree _
        cases h
        exact .waitThrows i hfree
      · cases h
    | signal =>
      dsimp only at h
      split at h
      · rename_i hfree
        cases h
        exact .signal hfree
      · cases h

/-- The thread that holds the lock can go on. -/
theorem step_next {s : ChanState τ} {holder : LockHolder} (hrunning : s.failed = false)
    (hholder : s.holder = some holder) : s.step .next = some (s.next holder) := by
  unfold step
  rw [if_neg (Bool.eq_false_iff.mp hrunning), hholder]
  rfl

/-- The pop that holds the lock has found an element. -/
def HasFound (s : ChanState τ) : Prop :=
  ∃ call, s.holder = some (.assertSize call) ∨ s.holder = some (.decrement call) ∨
    s.holder = some (.take call)

theorem not_hasFound_of_free {s : ChanState τ} (hfree : s.holder = none) : ¬ s.HasFound := by
  rintro ⟨call, h | h | h⟩ <;> rw [hfree] at h <;> cases h

/-! ## Section 3: The channel with pushes and pops only -/

/-- A step of `Channel`; of the waiting pops, the first one wakes. -/
def ofChanStep : ChanStep τ → ChanLabel τ
  | .incr t => .incr .back t
  | .enqueue i => .enqueue i
  | .lockForPop millsecond => .lockForPop millsecond
  | .popNext => .next
  | .wake => .wake 0
  | .waitThrows => .waitThrows 0

/-- The pop that holds the lock is at the same place. -/
inductive SamePhase : Option PopPhase → Option LockHolder → Prop where
  | free : SamePhase none none
  | testSize (call : PopCall) : SamePhase (some (.testSize call.millsecond)) (some (.testSize call))
  | testEmpty (call : PopCall) : SamePhase (some .testEmpty) (some (.testEmpty call))
  | assertSize (call : PopCall) : SamePhase (some .assertSize) (some (.assertSize call))
  | decrement (call : PopCall) : SamePhase (some .decrement) (some (.decrement call))
  | take (call : PopCall) : SamePhase (some .take) (some (.take call))

/-- What the two channels have in common. -/
structure Agrees (x : XChan τ) (s : ChanState τ) : Prop where
  size_ : s.size_ = x.size_
  queue_ : s.queue_ = x.queue_.map Prod.snd
  pending : s.pending = x.pending.map fun elem => ⟨.back, elem.2⟩
  holder : SamePhase x.pop s.holder
  waiters : s.waiters.length = x.waiters
  removed : s.returns.flatMap PopReturn.removed = x.popped.map Prod.snd
  failed : s.failed = x.failed

theorem SamePhase.eq_none {holder : Option LockHolder} (h : SamePhase none holder) :
    holder = none := by
  cases h
  rfl

theorem SamePhase.exists_holder {phase : PopPhase} {holder : Option LockHolder}
    (h : SamePhase (some phase) holder) : ∃ holder', holder = some holder' := by
  cases h <;> exact ⟨_, rfl⟩

theorem Agrees.exists_waiter {x : XChan τ} {s : ChanState τ} (h : Agrees x s)
    (hwaiters : 0 < x.waiters) : ∃ call rest, s.waiters = call :: rest := by
  rw [← h.waiters] at hwaiters
  exact List.exists_cons_of_length_pos hwaiters

/-- A pop that returns `false` has removed nothing. -/
theorem Agrees.refuse {x : XChan τ} {s : ChanState τ} (h : Agrees x s) (call : PopCall) :
    Agrees x.refuse (s.refuse call) := by
  refine ⟨h.size_, h.queue_, h.pending, .free, h.waiters, ?_, h.failed⟩
  show (s.returns ++ [_]).flatMap PopReturn.removed = _
  rw [List.flatMap_append, h.removed]
  exact List.append_nil _

theorem Agrees.next {x : XChan τ} {s : ChanState τ} (h : Agrees x s) {phase : PopPhase}
    {holder : LockHolder} (hsame : SamePhase (some phase) (some holder)) :
    Agrees (x.popNext phase) (s.next holder) := by
  have hsize : s.size = toSize x.size_ := congrArg toSize h.size_
  have hempty : s.queue_ = [] ↔ x.queue_ = [] := by rw [h.queue_, List.map_eq_nil_iff]
  cases hsame with
  | testSize call =>
    dsimp only [XChan.popNext, ChanState.next]
    rw [hsize]
    split
    · split
      · exact h.refuse call
      · refine ⟨h.size_, h.queue_, h.pending, .free, ?_, h.removed, h.failed⟩
        rw [List.length_append, h.waiters]
        rfl
    · exact ⟨h.size_, h.queue_, h.pending, .testEmpty call, h.waiters, h.removed, h.failed⟩
  | testEmpty call =>
    simp only [XChan.popNext, ChanState.next, hempty]
    split
    · exact h.refuse call
    · exact ⟨h.size_, h.queue_, h.pending, .assertSize call, h.waiters, h.removed, h.failed⟩
  | assertSize call =>
    have hpos : 0 < s.size_ ↔ 0 < x.size_ := by rw [h.size_]
    simp only [XChan.popNext, ChanState.next, hpos]
    split
    · exact ⟨h.size_, h.queue_, h.pending, .decrement call, h.waiters, h.removed, h.failed⟩
    · exact ⟨h.size_, h.queue_, h.pending, h.holder, h.waiters, h.removed, rfl⟩
  | decrement call =>
    refine ⟨?_, h.queue_, h.pending, .take call, h.waiters, h.removed, h.failed⟩
    exact congrArg (fun size => toInt32 (size - 1)) h.size_
  | take call =>
    refine ⟨h.size_, ?_, h.pending, .free, h.waiters, ?_, h.failed⟩
    · show s.queue_.tail = x.queue_.tail.map Prod.snd
      rw [h.queue_, List.map_tail]
    · show (s.returns ++ [_]).flatMap PopReturn.removed = (x.popped ++ x.queue_.take 1).map Prod.snd
      rw [List.flatMap_append, h.removed, List.map_append, List.map_take, ← h.queue_]
      exact congrArg _ (List.append_nil _)

/-- Each step of the smaller channel is a step of this one. -/
theorem agrees_step (x : XChan τ) (s : ChanState τ) (l : ChanStep τ) (x' : XChan τ)
    (h : Agrees x s) (hstep : x.step l = some x') :
    ∃ s', s.step (ofChanStep l) = some s' ∧ Agrees x' s' := by
  unfold XChan.step at hstep
  unfold step
  split at hstep
  · cases hstep
  · rename_i hrunning
    rw [if_neg (h.failed ▸ hrunning)]
    cases l with
    | incr t =>
      cases hstep
      refine ⟨_, rfl, ?_, h.queue_, ?_, h.holder, h.waiters, h.removed, h.failed⟩
      · exact congrArg (fun size => toInt32 (size + 1)) h.size_
      · show s.pending ++ [_] = (x.pending ++ [_]).map _
        rw [h.pending, List.map_append]
        rfl
    | enqueue i =>
      dsimp only at hstep
      split at hstep
      · rename_i elem hpop helem
        cases hstep
        have hfree : s.holder = none := (hpop ▸ h.holder).eq_none
        have hpush : s.pending[i]? = some ⟨.back, elem.2⟩ := by
          rw [h.pending, List.getElem?_map, helem]
          rfl
        simp only [ofChanStep, hfree, hpush]
        refine ⟨_, rfl, h.size_, ?_, ?_, hpop ▸ .free, h.waiters, h.removed, h.failed⟩
        · show s.queue_ ++ [elem.2] = (x.queue_ ++ [elem]).map Prod.snd
          rw [h.queue_, List.map_append]
          rfl
        · show s.pending.eraseIdx i = (x.pending.eraseIdx i).map _
          rw [h.pending, List.eraseIdx_map]
      · cases hstep
    | lockForPop millsecond =>
      dsimp only at hstep
      split at hstep
      · rename_i hpop
        cases hstep
        have hfree : s.holder = none := (hpop ▸ h.holder).eq_none
        simp only [ofChanStep, hfree]
        exact ⟨_, rfl, h.size_, h.queue_, h.pending, .testSize ⟨millsecond, false⟩, h.waiters,
          h.removed, h.failed⟩
      · cases hstep
    | popNext =>
      -- the holder here is the pop there
      obtain ⟨phase, hpop, rfl⟩ := Option.map_eq_some_iff.mp hstep
      have hsame := h.holder
      rw [hpop] at hsame
      obtain ⟨holder, hholder⟩ := hsame.exists_holder
      rw [hholder] at hsame
      refine ⟨s.next holder, ?_, h.next hsame⟩
      simp only [ofChanStep, hholder, Option.map_some]
    | wake =>
      dsimp only at hstep
      split at hstep
      · rename_i hguard
        cases hstep
        obtain ⟨call, rest, hwaiters⟩ := h.exists_waiter hguard.2
        have hfree : s.holder = none := (hguard.1 ▸ h.holder).eq_none
        simp only [ofChanStep, hfree, hwaiters, List.getElem?_cons_zero]
        refine ⟨_, rfl, h.size_, h.queue_, h.pending, .testEmpty call, ?_, h.removed, h.failed⟩
        rw [← h.waiters, hwaiters]
        rfl
      · cases hstep
    | waitThrows =>
      dsimp only at hstep
      split at hstep
      · rename_i hguard
        cases hstep
        obtain ⟨call, rest, hwaiters⟩ := h.exists_waiter hguard.2
        have hfree : s.holder = none := (hguard.1 ▸ h.holder).eq_none
        simp only [ofChanStep, hfree, hwaiters, List.getElem?_cons_zero]
        refine ⟨_, rfl, h.size_, h.queue_, h.pending, hguard.1 ▸ .free, ?_, h.removed, h.failed⟩
        rw [← h.waiters, hwaiters]
        rfl
      · cases hstep

theorem agrees_initial : Agrees (XChan.initial : XChan τ) initial :=
  ⟨rfl, rfl, rfl, .free, rfl, rfl, rfl⟩

/-- Every run of the smaller channel is one of this channel, with the same
    number, the same elements in the queue and the same elements popped. -/
theorem run_of_chanRun {ls : List (ChanStep τ)} {x : XChan τ}
    (hrun : run XChan.step XChan.initial ls = some x) :
    ∃ s, run step initial (ls.map ofChanStep) = some s ∧ Agrees x s :=
  run_map_of_simulates agrees_step ls XChan.initial initial x agrees_initial hrun

end ChanState

end XFast
