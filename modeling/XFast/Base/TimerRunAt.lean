import XFast.Base.TimerQueue

/-! # Timers at a given time

    `runAfter` adds an interval to the clock, `runAt` is given the time
    itself; both hand a 64-bit number of milliseconds since the epoch to the
    constructor of `xTimer`.  The parameter of `runAt` is an `int`.  It holds
    the milliseconds of the first 24 days of the epoch; every later time is
    another number when it comes in, one that has passed. -/

namespace XFast

namespace XTimer

/-! ## Section 1: The two calls -/

/-- The timer of `runAfter(interval, cb)`, when the clock returns `now`. -/
def runAfter (now interval serial : Int) : XTimer := once (toInt64 (now + interval)) serial

/-- The timer of `runAt(expiration, cb)`; the argument is converted to the
    `int` of the parameter. -/
def runAt (expiration serial : Int) : XTimer := once (toInt32 expiration) serial

/-- A timer of `runAt(now + d)` and one of `runAfter(d)` expire at the same
    time: they are due together, and no pass runs one of them early. -/
structure Agree (now d : Int) : Prop where
  expiration : ∀ s s', (runAt (now + d) s).expiration_ = (runAfter now d s').expiration_
  due : ∀ s s' timeNow, XTimerQueue.due timeNow (runAt (now + d) s) =
    XTimerQueue.due timeNow (runAfter now d s')
  notEarly : ∀ (clock : Nat → Int) (q : XTimerQueue) (p : Pass), q.triggerTimer clock = .ok p →
    ∀ s, runAt (now + d) s ∈ p.fired ∨ runAfter now d s ∈ p.fired → now + d ≤ clock q.tick

/-! ## Section 2: When they agree -/

/-- A pass runs only timers that are due. -/
theorem expiration_le_of_fired {clock : Nat → Int} {q : XTimerQueue} {p : Pass}
    (h : q.triggerTimer clock = .ok p) {t : XTimer} (ht : t ∈ p.fired) :
    t.expiration_ ≤ clock q.tick := by
  obtain ⟨p', hp', hfired, -⟩ := q.triggerTimer_ok clock
  rw [h] at hp'
  rw [Except.ok.inj hp', hfired] at ht
  have hdue := List.mem_takeWhile_imp ht
  simpa [XTimerQueue.due] using hdue

/-- From the 25th day of the epoch on, whatever time `runAt` is given, its
    timer is due at once. -/
theorem runAt_due_at_once {timeNow : Int} (h : 2 ^ 31 ≤ timeNow) (expiration serial : Int) :
    XTimerQueue.due timeNow (runAt expiration serial) = true := by
  have hlt := toInt32_lt expiration
  have hle : toInt32 expiration ≤ timeNow := by omega
  exact decide_eq_true hle

theorem agree_of_small {now d : Int} (hnow : 0 ≤ now) (hd : 0 ≤ d) (h : now + d < 2 ^ 31) :
    Agree now d := by
  have hat : toInt32 (now + d) = now + d := toInt32_of_range (by omega) h
  have hafter : toInt64 (now + d) = now + d := toInt64_of_range (by omega) (by omega)
  have hsame : ∀ s s', (runAt (now + d) s).expiration_ = (runAfter now d s').expiration_ :=
    fun _ _ => hat.trans hafter.symm
  refine ⟨hsame, ?_, ?_⟩
  · intro s s' timeNow
    unfold XTimerQueue.due
    rw [hsame s s']
  · rintro clock q p hp s (hfired | hfired)
    · have hle := expiration_le_of_fired hp hfired
      exact hat ▸ hle
    · have hle := expiration_le_of_fired hp hfired
      exact hafter ▸ hle

/-- `runAt` agrees with `runAfter` as long as the time fits an `int`. -/
theorem runAt_agrees_iff {now d : Int} (hnow : 0 ≤ now) (hd : 0 ≤ d) :
    Agree now d ↔ now + d < 2 ^ 31 := by
  refine ⟨fun h => ?_, agree_of_small hnow hd⟩
  by_contra hlarge
  -- a queue with the timer of `runAt` alone, and a pass just before the time
  have hlt := toInt32_lt (now + d)
  have hfired := h.notEarly (fun _ => now + d - 1) ⟨[runAt (now + d) 0], 0, [0]⟩
    ⟨[runAt (now + d) 0], [], 1⟩ ?_ 0 (.inl List.mem_cons_self)
  · omega
  · show triggerLoop (fun _ => now + d - 1) (now + d - 1) [runAt (now + d) 0] 1 = _
    have hdue : ¬ (runAt (now + d) 0).expiration_ > now + d - 1 := by
      show ¬ toInt32 (now + d) > now + d - 1
      omega
    have honce : ¬ (runAt (now + d) 0).hasNextTime = true := by
      show ¬ (once (toInt32 (now + d)) 0).hasNextTime = true
      simp [once, hasNextTime]
    unfold triggerLoop
    rw [if_neg hdue, if_neg honce]
    rfl

theorem runAt_agrees_iff_day : Agree 86400000 1000 ↔ (86400000 : Int) + 1000 < 2 ^ 31 :=
  runAt_agrees_iff (by decide) (by decide)

/-- In November 2023, a second from now. -/
theorem runAt_in_the_past :
    (runAt (1700000000000 + 1000) 1).expiration_ = -807048216 ∧
      (runAfter 1700000000000 1000 2).expiration_ = 1700000001000 ∧
      ¬ Agree 1700000000000 1000 := by
  have hat : (runAt (1700000000000 + 1000) 1).expiration_ = -807048216 := by decide
  have hafter : (runAfter 1700000000000 1000 2).expiration_ = 1700000001000 := by decide
  refine ⟨hat, hafter, fun h => ?_⟩
  have hsame := h.expiration 1 2
  rw [hat, hafter] at hsame
  exact absurd hsame (by decide)

end XTimer

end XFast
