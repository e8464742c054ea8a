import XFast.Base.TimerQueue

/-! # Cancelling a timer

    `RemoveTime` looks the timer up with its own comparator, by its expiration
    of the moment.  The set was built with the expirations of earlier moments:
    where a pass has moved a timer past a later one without moving it in the
    set, the descent may turn the wrong way, or the bounds of the key may take
    in timers beside it.

    The cancellation is right exactly if the timer is in place in the tree, in
    the sense of the library of search trees. -/

namespace XFast

open Steps

namespace XTimerQueue

/-! ## Section 1: What is to be shown -/

/-- In every continuation, no pass runs the timer with this serial. -/
def NeverRun (clock : Nat → Int) (q : XTimerQueue) (serial : Int) : Prop :=
  ∀ ls q' p, run (step clock) q ls = some q' → q'.triggerTimer clock = .ok p →
    ∀ t ∈ p.fired, t.timerSerial_ ≠ serial

/-- A timer that is cancelled while it is in the set is gone from it, all
    others are still there, and it is never run again. -/
def Cancelled (clock : Nat → Int) (q : XTimerQueue) : TimerStep → Prop
  | .AddTimer _ _ | .triggerTimer => True
  | .RemoveTime timer shape => timer ∈ q.timers_ → SearchTree.keys shape = q.timers_ →
      (q.RemoveTime timer shape).timers_ = q.timers_.erase timer ∧
        (q.RemoveTime timer shape).NeverRun clock timer.timerSerial_

/-- A timer that is cancelled while it is in the set is in place in the tree:
    the descent by its expiration of the moment finds it, and the timers next
    to it in the tree stand on their sides of it. -/
def CancelInPlace (q : XTimerQueue) : TimerStep → Prop
  | .AddTimer _ _ | .triggerTimer => True
  | .RemoveTime timer shape => timer ∈ q.timers_ → SearchTree.keys shape = q.timers_ →
      SearchTree.InPlace XTimer.Cmp timer shape

/-! ## Section 2: A timer that is gone stays gone -/

/-- The serial has been given out and its timer is not in the set. -/
def Gone (serial : Int) (q : XTimerQueue) : Prop :=
  serial ∈ q.serials ∧ serial ∉ q.timers_.map XTimer.timerSerial_

/-- A pass runs timers of the set. -/
theorem mem_of_mem_fired {clock : Nat → Int} {q : XTimerQueue} {p : Pass}
    (hp : q.triggerTimer clock = .ok p) {t : XTimer} (ht : t ∈ p.fired) : t ∈ q.timers_ := by
  obtain ⟨p', hp', hfired, _⟩ := triggerTimer_ok clock q
  rw [hp] at hp'
  cases hp'
  rw [hfired] at ht
  exact (List.takeWhile_sublist _).subset ht

theorem gone_step {serial : Int} (clock : Nat → Int) (q : XTimerQueue) (l : TimerStep)
    (q' : XTimerQueue) (h : Gone serial q) (hstep : q.step clock l = some q') :
    Gone serial q' := by
  obtain ⟨hgiven, hout⟩ := h
  rcases step_cases hstep with
    ⟨timer, shape, _, hfresh, hshape⟩ | ⟨timer, shape, _, hshape⟩ | ⟨p, hp⟩
  · refine ⟨List.mem_cons_of_mem _ hgiven, ?_⟩
    intro hmem
    obtain ⟨t, ht, rfl⟩ := List.mem_map.mp hmem
    rcases SearchTree.eq_or_mem_of_mem_insert ht with rfl | hold
    · exact hfresh hgiven
    · rw [hshape] at hold
      exact hout (List.mem_map_of_mem hold)
  · refine ⟨hgiven, ?_⟩
    intro hmem
    exact hout (((RemoveTime_sublist timer hshape).map XTimer.timerSerial_).subset hmem)
  · obtain ⟨p', hp', _, hsub⟩ := triggerTimer_ok clock q
    rw [hp] at hp'
    cases hp'
    exact ⟨hgiven, fun hmem => hout (hsub.subset hmem)⟩

/-- So it is never run again. -/
theorem Gone.neverRun {serial : Int} {clock : Nat → Int} {q : XTimerQueue} (h : Gone serial q) :
    q.NeverRun clock serial := by
  intro ls q' p hrun hp t ht hserial
  have hgone : Gone serial q' := run_invariant (gone_step clock) ls q q' h hrun
  apply hgone.2
  rw [← hserial]
  exact List.mem_map_of_mem (mem_of_mem_fired hp ht)

/-! ## Section 3: One cancellation -/

/-- In a set of different timers, one that compares as equal is the same. -/
theorem Distinct.eq_of_not_cmp {q : XTimerQueue} (h : q.Distinct) {t timer : XTimer}
    (ht : t ∈ q.timers_) (htimer : timer ∈ q.timers_) (hafter : ¬ XTimer.Cmp timer t)
    (hbefore : ¬ XTimer.Cmp t timer) : t = timer :=
  List.inj_on_of_nodup_map h.nodup ht htimer (XTimer.serial_eq_of_not_cmp hbefore hafter)

/-- The library's account of erasures, for timers. -/
theorem erase_eq_iff_inPlace {q : XTimerQueue} (h : q.Distinct) {timer : XTimer}
    {shape : BinaryTree XTimer} (hmem : timer ∈ q.timers_)
    (hshape : SearchTree.keys shape = q.timers_) :
    (q.RemoveTime timer shape).timers_ = q.timers_.erase timer ↔
      SearchTree.InPlace XTimer.Cmp timer shape := by
  have hkeys : timer ∈ SearchTree.keys shape := hshape ▸ hmem
  rw [← SearchTree.erase_eq_iff XTimer.cmp_asymm
    (fun t ht => h.eq_of_not_cmp (hshape ▸ ht) hmem) (hshape ▸ h.nodup.of_map), hshape]
  constructor
  · intro herase
    exact ⟨hmem, herase⟩
  · intro herase
    exact herase.2

/-- A timer that is erased is gone. -/
theorem Distinct.gone_of_erase {q q' : XTimerQueue} (h : q.Distinct) {timer : XTimer}
    (hmem : timer ∈ q.timers_) (htimers : q'.timers_ = q.timers_.erase timer)
    (hserials : q'.serials = q.serials) : Gone timer.timerSerial_ q' := by
  constructor
  · rw [hserials]
    exact h.added _ (List.mem_map_of_mem hmem)
  · rw [htimers]
    intro hserial
    obtain ⟨t, ht, heq⟩ := List.mem_map.mp hserial
    have hsame : t = timer := List.inj_on_of_nodup_map h.nodup (List.mem_of_mem_erase ht) hmem heq
    rw [hsame] at ht
    exact h.nodup.of_map.not_mem_erase ht

theorem cancelled_iff {clock : Nat → Int} {q : XTimerQueue} (h : q.Distinct) (l : TimerStep) :
    q.Cancelled clock l ↔ q.CancelInPlace l := by
  cases l with
  | AddTimer timer shape => exact Iff.rfl
  | triggerTimer => exact Iff.rfl
  | RemoveTime timer shape =>
    constructor
    · intro hcancelled hmem hshape
      exact (erase_eq_iff_inPlace h hmem hshape).mp (hcancelled hmem hshape).1
    · intro hplace hmem hshape
      have herase := (erase_eq_iff_inPlace h hmem hshape).mpr (hplace hmem hshape)
      exact ⟨herase, (h.gone_of_erase hmem herase rfl).neverRun⟩

/-- In an ordered set every timer is in place. -/
theorem Ordered.cancelInPlace {q : XTimerQueue} (h : q.Ordered) (l : TimerStep) :
    q.CancelInPlace l := by
  cases l with
  | AddTimer timer shape => trivial
  | triggerTimer => trivial
  | RemoveTime timer shape =>
    intro hmem hshape
    apply SearchTree.inPlace_of_pairwise XTimer.cmp_asymm
    · rw [hshape]
      exact h
    · rw [hshape]
      exact hmem

/-! ## Section 4: Runs -/

/-- **Cancelled timers.**  In every run of additions, cancellations and passes,
    whatever the clock returns and however the set balances its tree: every
    timer that is cancelled while it is in the set leaves it, alone, and is
    never run again, exactly if at every cancellation the timer is in place in
    the tree.  It is in every run in which each pass leaves the set ordered. -/
theorem cancelled_iff_inPlace (clock : Nat → Int) (ls : List TimerStep) :
    (AllSteps (step clock) (Cancelled clock) initial ls ↔
      AllSteps (step clock) CancelInPlace initial ls) ∧
    (AllSteps (step clock) (KeepsOrder clock) initial ls →
      AllSteps (step clock) CancelInPlace initial ls) := by
  refine ⟨⟨?_, ?_⟩, ?_⟩
  · exact allSteps_mono (fun q l q' h _ hstep => distinct_step clock q l q' h hstep)
      (fun q l h => (cancelled_iff h l).mp) ls initial distinct_initial
  · exact allSteps_mono (fun q l q' h _ hstep => distinct_step clock q l q' h hstep)
      (fun q l h => (cancelled_iff h l).mpr) ls initial distinct_initial
  · exact allSteps_mono (ordered_step clock) (fun q l h _ => Ordered.cancelInPlace h l) ls initial
      List.Pairwise.nil

/-- An endless timer with interval 100 and below it, to its right, a timer that
    expires at 150.  After the pass at 120 the endless timer expires at 200, so
    the descent for the other one goes left at it, and nothing is erased.  The
    pass at 220 runs the cancelled timer. -/
theorem cancelled_timer_run : ∃ clock : Nat → Int, (∀ m n, m ≤ n → clock m ≤ clock n) ∧
    ∃ endless late : XTimer, endless = .periodic (-1) 100 0 1 ∧ late = .once 150 2 ∧
    ∃ q shape, run (step clock) initial [.AddTimer endless .nil,
      .AddTimer late (.node endless .nil .nil), .triggerTimer] = some q ∧
    late ∈ q.timers_ ∧ SearchTree.keys shape = q.timers_ ∧
    (q.RemoveTime late shape).timers_ = q.timers_ ∧
    (∃ p, (q.RemoveTime late shape).triggerTimer clock = .ok p ∧ late ∈ p.fired) ∧
    ¬ q.Cancelled clock (.RemoveTime late shape) := by
  refine ⟨fun n => if n < 2 then 120 else 220, ?_, _, _, rfl, rfl,
    ⟨[⟨-1, 100, 200, 1⟩, .once 150 2], 2, [2, 1]⟩,
    .node ⟨-1, 100, 200, 1⟩ .nil (.node (.once 150 2) .nil .nil), by decide, by decide, by decide,
    by decide, ⟨⟨[⟨-1, 100, 200, 1⟩, .once 150 2], [⟨-1, 100, 300, 1⟩], 4⟩, by decide, by decide⟩,
    ?_⟩
  · intro m n hle
    dsimp only
    split <;> split <;> omega
  · intro hcancelled
    exact absurd (hcancelled (by decide) (by decide)).1 (by decide)

end XTimerQueue
end XFast
