import XFast.Base.Machine
import XFast.Framework.SearchTree
import XFast.Framework.Steps

/-! # xTimer and xTimerQueue

    The queue keeps its timers in a `std::set` ordered by `Cmp`: by
    expiration, then by serial.  A pass of `triggerTimer` walks the set from
    the left, stops at the first timer that is not due, runs the callbacks of
    the timers before it, and gives those that are to run again a new
    expiration while they stay where they are in the set.

    The walk finds every due timer exactly if no timer that is not due stands
    in front of a due one.  In an ordered set none does; but the new
    expirations need not be in order. -/

namespace XFast

open Steps

/-! ## Section 1: Timers -/

/-- A timer.  `repeat_` is the number of times it is still to run, or -1. -/
structure XTimer where
  repeat_ : Int
  interval_ : Int
  expiration_ : Int
  timerSerial_ : Int
  deriving DecidableEq, Repr

namespace XTimer

/-- The constructor of `runAfter` and `runAt`. -/
def once (expiration serial : Int) : XTimer := ⟨1, 0, expiration, serial⟩

/-- The constructor of `runEvery` and `runRepeat`, at the time `now`. -/
def periodic (repeat_ interval now serial : Int) : XTimer :=
  ⟨repeat_, interval, now + interval, serial⟩

def Cmp (lth rth : XTimer) : Prop :=
  if lth.expiration_ ≠ rth.expiration_ then lth.expiration_ < rth.expiration_
  else lth.timerSerial_ < rth.timerSerial_

instance : DecidableRel Cmp := fun lth rth =>
  inferInstanceAs (Decidable (if lth.expiration_ ≠ rth.expiration_
    then lth.expiration_ < rth.expiration_ else lth.timerSerial_ < rth.timerSerial_))

def hasNextTime (t : XTimer) : Bool := t.repeat_ > 1 || t.repeat_ = -1

/-- `nextRepeat`; `clock n` is what the `n`-th read of the clock returns, and
    `tick` the number of reads so far.  If the timer is late by more than its
    interval, the clock is read a second time. -/
def nextRepeat (clock : Nat → Int) (tick : Nat) (t : XTimer) : Except Halt (XTimer × Nat) := do
  cAssert (t.repeat_ > 0 ∨ t.repeat_ = -1)
  let repeat_ := if t.repeat_ > 0 then t.repeat_ - 1 else t.repeat_
  let expiration := t.expiration_ + t.interval_
  if expiration < clock tick then
    return ({ t with repeat_ := repeat_, expiration_ := clock (tick + 1) + t.interval_ }, tick + 2)
  else
    return ({ t with repeat_ := repeat_, expiration_ := expiration }, tick + 1)

/-- Counted or endless, with a non-negative interval. -/
def Made (t : XTimer) : Prop := (0 < t.repeat_ ∨ t.repeat_ = -1) ∧ 0 ≤ t.interval_

instance (t : XTimer) : Decidable t.Made := inferInstanceAs (Decidable (_ ∧ _))

theorem once_made (expiration serial : Int) : (once expiration serial).Made := by
  simp [Made, once]

theorem periodic_made {repeat_ interval : Int} (now serial : Int)
    (hrepeat : 0 < repeat_ ∨ repeat_ = -1) (hinterval : 0 ≤ interval) :
    (periodic repeat_ interval now serial).Made := ⟨hrepeat, hinterval⟩

theorem cmp_trans (a b c : XTimer) (hab : Cmp a b) (hbc : Cmp b c) : Cmp a c := by
  unfold Cmp at *
  split at hab <;> split at hbc <;> split <;> omega

theorem cmp_asymm (a b : XTimer) (h : Cmp a b) : ¬ Cmp b a := by
  unfold Cmp at *
  split at h <;> split <;> omega

/-- Timers of which neither comes first have the same serial. -/
theorem serial_eq_of_not_cmp {a b : XTimer} (hab : ¬ Cmp a b) (hba : ¬ Cmp b a) :
    a.timerSerial_ = b.timerSerial_ := by
  unfold Cmp at *
  split at hab <;> split at hba <;> omega

theorem Cmp.expiration_le {a b : XTimer} (h : Cmp a b) : a.expiration_ ≤ b.expiration_ := by
  unfold Cmp at h
  split at h <;> omega

/-- A timer with a next time passes the assertion and stays the same timer. -/
theorem nextRepeat_ok (clock : Nat → Int) (tick : Nat) {t : XTimer} (h : t.hasNextTime) :
    ∃ t' tick', nextRepeat clock tick t = .ok (t', tick') ∧ t'.timerSerial_ = t.timerSerial_ := by
  have hassert : t.repeat_ > 0 ∨ t.repeat_ = -1 := by
    simp only [hasNextTime, Bool.or_eq_true, decide_eq_true_eq] at h
    omega
  unfold nextRepeat
  rw [cAssert_true hassert, ok_bind]
  by_cases hlate : t.expiration_ + t.interval_ < clock tick
  · simp only [if_pos hlate]
    exact ⟨_, _, rfl, rfl⟩
  · simp only [if_neg hlate]
    exact ⟨_, _, rfl, rfl⟩

end XTimer

/-! ## Section 2: The queue -/

/-- The set, as the list of its timers in set order; the number of reads of
    the clock; and the serials of all timers ever added. -/
structure XTimerQueue where
  timers_ : List XTimer
  tick : Nat
  serials : List Int
  deriving DecidableEq, Repr

/-- What a pass leaves: the timers whose callbacks it ran, the set, and the
    number of reads of the clock. -/
structure Pass where
  fired : List XTimer
  timers_ : List XTimer
  tick : Nat
  deriving DecidableEq, Repr

/-- The loop of `triggerTimer` from the iterator on.  The callback is only
    recorded: what it throws is caught in `doCallBack`. -/
def triggerLoop (clock : Nat → Int) (timeNow : Int) : List XTimer → Nat → Except Halt Pass
  | [], tick => .ok ⟨[], [], tick⟩
  | t :: rest, tick =>
      if t.expiration_ > timeNow then .ok ⟨[], t :: rest, tick⟩
      else if t.hasNextTime then do
        let (t', tick') ← t.nextRepeat clock tick
        let p ← triggerLoop clock timeNow rest tick'
        return ⟨t :: p.fired, t' :: p.timers_, p.tick⟩
      else do
        let p ← triggerLoop clock timeNow rest tick
        return ⟨t :: p.fired, p.timers_, p.tick⟩

inductive TimerStep where
  /-- A timer is added; `shape` is the tree in which the set keeps its timers
      at that moment, whatever the rebalancing so far has made of it. -/
  | AddTimer (timer : XTimer) (shape : BinaryTree XTimer)
  /-- A timer of the set is cancelled, found by its fields of the moment. -/
  | RemoveTime (timer : XTimer) (shape : BinaryTree XTimer)
  | triggerTimer

namespace XTimerQueue

def initial : XTimerQueue := ⟨[], 0, []⟩

/-- Add a timer to the set.  Each timer object is added once. -/
def AddTimer (q : XTimerQueue) (timer : XTimer) (shape : BinaryTree XTimer) : XTimerQueue :=
  { q with
    timers_ := SearchTree.keys (SearchTree.insert XTimer.Cmp timer shape)
    serials := timer.timerSerial_ :: q.serials }

/-- A pass at the time that the first read of the clock returns. -/
def triggerTimer (clock : Nat → Int) (q : XTimerQueue) : Except Halt Pass :=
  triggerLoop clock (clock q.tick) q.timers_ (q.tick + 1)

/-- `erase` with the timer as the key: what the tree has between the bounds of
    the key goes. -/
def RemoveTime (q : XTimerQueue) (timer : XTimer) (shape : BinaryTree XTimer) : XTimerQueue :=
  { q with timers_ := SearchTree.erase XTimer.Cmp timer shape }

def step (clock : Nat → Int) (q : XTimerQueue) : TimerStep → Option XTimerQueue
  | .AddTimer timer shape =>
      if timer.Made ∧ timer.timerSerial_ ∉ q.serials ∧ SearchTree.keys shape = q.timers_ then
        some (q.AddTimer timer shape)
      else none
  | .RemoveTime timer shape =>
      if timer ∈ q.timers_ ∧ SearchTree.keys shape = q.timers_ then
        some (q.RemoveTime timer shape)
      else none
  | .triggerTimer =>
      match q.triggerTimer clock with
      | .ok p => some { q with timers_ := p.timers_, tick := p.tick }
      | .error _ => none

/-! ## Section 3: What is to be shown -/

/-- The pass runs the callback of every timer that was due when it began. -/
def PassComplete (clock : Nat → Int) (q : XTimerQueue) : TimerStep → Prop
  | .AddTimer _ _ | .RemoveTime _ _ => True
  | .triggerTimer => ∃ p, q.triggerTimer clock = .ok p ∧
      ∀ t ∈ q.timers_, t.expiration_ ≤ clock q.tick → t ∈ p.fired

/-- When the pass begins, no timer that is not due stands in front of one
    that is. -/
def DueFirst (clock : Nat → Int) (q : XTimerQueue) : TimerStep → Prop
  | .AddTimer _ _ | .RemoveTime _ _ => True
  | .triggerTimer => q.timers_.Pairwise fun a b =>
      b.expiration_ ≤ clock q.tick → a.expiration_ ≤ clock q.tick

/-- The pass leaves the set ordered: no new expiration moves a timer past a
    later one of the set. -/
def KeepsOrder (clock : Nat → Int) (q : XTimerQueue) : TimerStep → Prop
  | .AddTimer _ _ | .RemoveTime _ _ => True
  | .triggerTimer => ∀ p, q.triggerTimer clock = .ok p → p.timers_.Pairwise XTimer.Cmp

/-! ## Section 4: One pass -/

/-- The timer is due at the time of the pass. -/
def due (timeNow : Int) (t : XTimer) : Bool := t.expiration_ ≤ timeNow

/-- The loop runs the timers in front of the first that is not due, and the
    timers it leaves in the set stay where they are. -/
theorem triggerLoop_ok (clock : Nat → Int) (timeNow : Int) : ∀ (ts : List XTimer) (tick : Nat),
    ∃ p, triggerLoop clock timeNow ts tick = .ok p ∧ p.fired = ts.takeWhile (due timeNow) ∧
      (p.timers_.map XTimer.timerSerial_).Sublist (ts.map XTimer.timerSerial_) := by
  intro ts
  induction ts with
  | nil => exact fun tick => ⟨_, rfl, rfl, List.Sublist.refl _⟩
  | cons t rest ih =>
    intro tick
    unfold triggerLoop
    by_cases hlater : t.expiration_ > timeNow
    · have hnot : ¬ due timeNow t := by
        simp only [due, decide_eq_true_eq]
        omega
      rw [if_pos hlater, List.takeWhile_cons_of_neg hnot]
      exact ⟨_, rfl, rfl, List.Sublist.refl _⟩
    · have hdue : due timeNow t := by
        simp only [due, decide_eq_true_eq]
        omega
      rw [if_neg hlater, List.takeWhile_cons_of_pos hdue]
      by_cases hnext : t.hasNextTime
      · obtain ⟨t', tick', hrepeat, hserial⟩ := XTimer.nextRepeat_ok clock tick hnext
        obtain ⟨p, hp, hfired, hsub⟩ := ih tick'
        refine ⟨⟨t :: p.fired, t' :: p.timers_, p.tick⟩, ?_, ?_, ?_⟩
        · rw [if_pos hnext, hrepeat, ok_bind]
          dsimp only
          rw [hp]
          rfl
        · rw [← hfired]
        · simp only [List.map_cons, hserial]
          exact hsub.cons_cons _
      · obtain ⟨p, hp, hfired, hsub⟩ := ih tick
        refine ⟨⟨t :: p.fired, p.timers_, p.tick⟩, ?_, ?_, ?_⟩
        · rw [if_neg hnext, hp]
          rfl
        · rw [← hfired]
        · exact hsub.cons _

theorem triggerTimer_ok (clock : Nat → Int) (q : XTimerQueue) :
    ∃ p, q.triggerTimer clock = .ok p ∧ p.fired = q.timers_.takeWhile (due (clock q.tick)) ∧
      (p.timers_.map XTimer.timerSerial_).Sublist (q.timers_.map XTimer.timerSerial_) :=
  triggerLoop_ok clock (clock q.tick) q.timers_ (q.tick + 1)

/-! ## Section 5: Runs -/

/-- The timers in the set are different ones, all of them added. -/
structure Distinct (q : XTimerQueue) : Prop where
  nodup : (q.timers_.map XTimer.timerSerial_).Nodup
  added : ∀ serial ∈ q.timers_.map XTimer.timerSerial_, serial ∈ q.serials

def Ordered (q : XTimerQueue) : Prop := q.timers_.Pairwise XTimer.Cmp

/-- What each step can do, with its guard. -/
inductive StepTo (clock : Nat → Int) (q : XTimerQueue) : TimerStep → XTimerQueue → Prop where
  | AddTimer (timer : XTimer) (shape : BinaryTree XTimer) (hmade : timer.Made)
      (hfresh : timer.timerSerial_ ∉ q.serials) (hshape : SearchTree.keys shape = q.timers_) :
      StepTo clock q (.AddTimer timer shape) (q.AddTimer timer shape)
  | RemoveTime (timer : XTimer) (shape : BinaryTree XTimer) (hmem : timer ∈ q.timers_)
      (hshape : SearchTree.keys shape = q.timers_) :
      StepTo clock q (.RemoveTime timer shape) (q.RemoveTime timer shape)
  | triggerTimer (p : Pass) (hp : q.triggerTimer clock = .ok p) :
      StepTo clock q .triggerTimer { q with timers_ := p.timers_, tick := p.tick }

theorem step_cases {clock : Nat → Int} {q q' : XTimerQueue} {l : TimerStep}
    (h : q.step clock l = some q') : StepTo clock q l q' := by
  cases l with
  | AddTimer timer shape =>
    dsimp only [step] at h
    split at h
    · rename_i hguard
      obtain ⟨hmade, hfresh, hshape⟩ := hguard
      cases h
      exact .AddTimer timer shape hmade hfresh hshape
    · cases h
  | RemoveTime timer shape =>
    dsimp only [step] at h
    split at h
    · rename_i hguard
      obtain ⟨hmem, hshape⟩ := hguard
      cases h
      exact .RemoveTime timer shape hmem hshape
    · cases h
  | triggerTimer =>
    dsimp only [step] at h
    split at h
    · rename_i p hp
      cases h
      exact .triggerTimer p hp
    · cases h

theorem RemoveTime_sublist {q : XTimerQueue} (timer : XTimer) {shape : BinaryTree XTimer}
    (hshape : SearchTree.keys shape = q.timers_) :
    (q.RemoveTime timer shape).timers_.Sublist q.timers_ := by
  rw [← hshape]
  exact SearchTree.erase_sublist XTimer.cmp_asymm timer shape

theorem distinct_initial : initial.Distinct := ⟨List.nodup_nil, fun _ h => h⟩

theorem distinct_step (clock : Nat → Int) (q : XTimerQueue) (l : TimerStep) (q' : XTimerQueue)
    (h : q.Distinct) (hstep : q.step clock l = some q') : q'.Distinct := by
  obtain ⟨hnodup, hadded⟩ := h
  rcases step_cases hstep with
    ⟨timer, shape, hmade, hfresh, hshape⟩ | ⟨timer, shape, hmem, hshape⟩ | ⟨p, hp⟩
  · rw [← hshape] at hnodup hadded
    constructor
    · exact SearchTree.nodup_map_insert hnodup fun hmem => hfresh (hadded _ hmem)
    · intro serial hmem
      obtain ⟨t, ht, rfl⟩ := List.mem_map.mp hmem
      rcases SearchTree.eq_or_mem_of_mem_insert ht with rfl | hold
      · exact List.mem_cons_self
      · exact List.mem_cons_of_mem _ (hadded _ (List.mem_map_of_mem hold))
  · have hsub := (RemoveTime_sublist timer hshape).map XTimer.timerSerial_
    exact ⟨hnodup.sublist hsub, fun serial hmem => hadded serial (hsub.subset hmem)⟩
  · obtain ⟨p', hp', _, hsub⟩ := triggerTimer_ok clock q
    rw [hp] at hp'
    cases hp'
    exact ⟨hnodup.sublist hsub, fun serial hmem => hadded serial (hsub.subset hmem)⟩

/-- In a pass every due timer runs exactly if the due timers stand first. -/
theorem passComplete_iff {clock : Nat → Int} {q : XTimerQueue} (h : q.Distinct) (l : TimerStep) :
    q.PassComplete clock l ↔ q.DueFirst clock l := by
  cases l with
  | AddTimer timer shape => exact Iff.rfl
  | RemoveTime timer shape => exact Iff.rfl
  | triggerTimer =>
    obtain ⟨p, hp, hfired, _⟩ := triggerTimer_ok clock q
    have hread := SearchTree.mem_takeWhile_iff (p := due (clock q.tick)) h.nodup.of_map
    simp only [due, decide_eq_true_eq] at hread hfired
    simp only [PassComplete, DueFirst, hp, Except.ok.injEq, exists_eq_left', hfired]
    exact hread

/-- In an ordered set the due timers stand first. -/
theorem Ordered.dueFirst {clock : Nat → Int} {q : XTimerQueue} (h : q.Ordered) (l : TimerStep) :
    q.DueFirst clock l := by
  cases l with
  | AddTimer timer shape => trivial
  | RemoveTime timer shape => trivial
  | triggerTimer =>
    apply List.Pairwise.imp _ h
    intro a b hcmp hb
    exact Int.le_trans hcmp.expiration_le hb

/-- Insertions and removals keep the set ordered. -/
theorem ordered_step (clock : Nat → Int) (q : XTimerQueue) (l : TimerStep) (q' : XTimerQueue)
    (h : q.Ordered) (hkeep : q.KeepsOrder clock l) (hstep : q.step clock l = some q') :
    q'.Ordered := by
  rcases step_cases hstep with
    ⟨timer, shape, _, _, hshape⟩ | ⟨timer, shape, _, hshape⟩ | ⟨p, hp⟩
  · apply SearchTree.pairwise_insert XTimer.cmp_trans
    rw [hshape]
    exact h
  · exact List.Pairwise.sublist (RemoveTime_sublist timer hshape) h
  · exact hkeep p hp

/-- **Due timers.**  In every run of additions, removals and passes, whatever
    the clock returns and however the set balances its tree: every pass runs
    every timer that was due when it began exactly if at the start of every
    pass the due timers stand first in the set.  They do in every run in which
    each pass leaves the set ordered. -/
theorem passComplete_iff_dueFirst (clock : Nat → Int) (ls : List TimerStep) :
    (AllSteps (step clock) (PassComplete clock) initial ls ↔
      AllSteps (step clock) (DueFirst clock) initial ls) ∧
    (AllSteps (step clock) (KeepsOrder clock) initial ls →
      AllSteps (step clock) (DueFirst clock) initial ls) := by
  refine ⟨⟨?_, ?_⟩, ?_⟩
  · exact allSteps_mono (fun q l q' h _ hstep => distinct_step clock q l q' h hstep)
      (fun q l h => (passComplete_iff h l).mp) ls initial distinct_initial
  · exact allSteps_mono (fun q l q' h _ hstep => distinct_step clock q l q' h hstep)
      (fun q l h => (passComplete_iff h l).mpr) ls initial distinct_initial
  · exact allSteps_mono (ordered_step clock) (fun q l h _ => Ordered.dueFirst h l) ls initial
      List.Pairwise.nil

/-- An endless timer with interval 100 and a timer that expires at 150.  The
    first pass, at 120, gives the endless timer the expiration 200 in front of
    the other; the second, at 160, stops there. -/
theorem due_timer_passed_over : ∃ clock : Nat → Int, (∀ m n, m ≤ n → clock m ≤ clock n) ∧
    ∃ endless late : XTimer, endless = .periodic (-1) 100 0 1 ∧ late = .once 150 2 ∧
    ∃ q, run (step clock) initial [.AddTimer endless .nil,
      .AddTimer late (.node endless .nil .nil), .triggerTimer] = some q ∧
    late ∈ q.timers_ ∧ late.expiration_ ≤ clock q.tick ∧
    (∃ p, q.triggerTimer clock = .ok p ∧ p.fired = []) ∧ ¬ q.PassComplete clock .triggerTimer := by
  refine ⟨fun n => if n < 2 then 120 else 160, ?_, _, _, rfl, rfl,
    ⟨[⟨-1, 100, 200, 1⟩, .once 150 2], 2, [2, 1]⟩, by decide, by decide, by decide,
    ⟨⟨[], [⟨-1, 100, 200, 1⟩, .once 150 2], 3⟩, by decide, rfl⟩, ?_⟩
  · intro m n hle
    dsimp only
    split <;> split <;> omega
  · intro hcomplete
    obtain ⟨p, hp, hall⟩ := hcomplete
    cases hp
    exact absurd (hall (.once 150 2) (by decide) (by decide)) (by decide)

end XTimerQueue
end XFast
