import XFast.Base.FileApi
import XFast.Base.Mailbox
import XFast.Framework.BigEndian

/-! # xLoop: waking up the loop

    `scheduleToLoopThread`, on another thread, takes `extraMutex_`, appends the
    functor and writes to an eventfd; the loop waits in `epoll_wait` with the
    eventfd registered, so that a number in it ends the wait.  A pass of
    `process` then reads the eventfd back to zero, if its event is among those
    fired, runs the functors, and fires timers.

    The append and the notification are two steps, and so are the read and the
    run of the functors: the posting threads and the loop interleave between
    any of them.  What is shown is that the loop never goes to sleep over a
    functor. -/

namespace XFast

open Steps FileApi

/-! ## Section 1: The eventfd -/

/-- The largest number that an eventfd holds. -/
def eventfdMax : Nat := 2 ^ 64 - 2

/-- The eight bytes of a `uint64_t` with the value 1. -/
def one : List UInt8 := BigEndian.encodeLittle 8 1

/-- `::write` of the value 1: the number grows, unless it would become too
    large. -/
def eventfdWrite (counter : Nat) : WriteOutcome × Nat :=
  if counter < eventfdMax then (.wrote 8, counter + 1) else (.fail .EAGAIN, counter)

/-- `::read`: the number, which becomes 0. -/
def eventfdRead (counter : Nat) : ReadOutcome × Nat :=
  if counter = 0 then (.fail .EAGAIN, 0) else (.got (BigEndian.encodeLittle 8 counter), 0)

/-! ## Section 2: The loop and the posting threads -/

/-- Where a pass of `process` is. -/
inductive PassPhase where
  /-- In `poller_.Wait(500, fired_)`. -/
  | waiting
  /-- In the loop over `fired_`; whether the event of the eventfd is still to
      be handled. -/
  | firing (wakeup : Bool)
  /-- In the loop over `extraEvents_`, up to its `clear`. -/
  | draining
  /-- In `triggerTimer`. -/
  | timers
  deriving DecidableEq, Repr

/-- `notifying` says that a thread holds `extraMutex_` and has appended its
    functor, but not notified yet. -/
structure Wakeup (τ : Type) where
  pass : PassPhase
  mailbox : Mailbox τ
  counter : Nat
  notifying : Bool
  deriving DecidableEq, Repr

inductive WakeupStep (τ : Type) where
  /-- A thread takes the lock and appends a functor. -/
  | pushBack (handle : τ)
  /-- `notify()`, after so many interrupts, and the lock is released. -/
  | notify (interrupts : Nat)
  /-- `Wait` returns, with the event of the eventfd or without. -/
  | wait (wakeup : Bool)
  /-- `wakeUpCallBack`, after so many interrupts. -/
  | wakeUpCallBack (interrupts : Nat)
  /-- A step of the loop over `extraEvents_`. -/
  | drain (l : MailboxStep τ)
  /-- `triggerTimer()`. -/
  | triggerTimer
  deriving DecidableEq, Repr

namespace Wakeup

variable {τ : Type}

def initial : Wakeup τ := ⟨.waiting, Mailbox.initial, 0, false⟩

/-- `notify`: the result of `writeFd` is not looked at. -/
def notify (s : Wakeup τ) (interrupts : Nat) : Except Halt (Wakeup τ) := do
  let (out, counter) := eventfdWrite s.counter
  let _ ← writeFd (List.replicate interrupts (.fail .EINTR) ++ [out]) one 8
  return { s with counter := counter, notifying := false }

/-- `wakeUpCallBack`: the result of `readFd` is not looked at. -/
def wakeUpCallBack (s : Wakeup τ) (interrupts : Nat) : Except Halt (Wakeup τ) := do
  let (out, counter) := eventfdRead s.counter
  let _ ← readFd (List.replicate interrupts (.fail .EINTR) ++ [out]) one 8
  return { s with counter := counter, pass := .firing false }

/-- Where a step of the loop over `extraEvents_` is taken: it begins when all
    the events have been handled. -/
def passBefore : MailboxStep τ → PassPhase
  | .beginDrain => .firing false
  | _ => .draining

/-- Where it leads. -/
def passAfter : MailboxStep τ → PassPhase
  | .clear => .timers
  | _ => .draining

def step (s : Wakeup τ) : WakeupStep τ → Option (Wakeup τ)
  | .pushBack handle =>
      if s.notifying then none
      else (s.mailbox.step (.scheduleToLoopThread handle)).map
        fun mailbox => { s with mailbox := mailbox, notifying := true }
  | .notify interrupts => if s.notifying then (s.notify interrupts).toOption else none
  | .wait wakeup =>
      -- the eventfd is reported only if there is a number in it
      if s.pass = .waiting ∧ (wakeup = true → s.counter ≠ 0) then
        some { s with pass := .firing wakeup }
      else none
  | .wakeUpCallBack interrupts =>
      if s.pass = .firing true then (s.wakeUpCallBack interrupts).toOption else none
  | .drain (.scheduleToLoopThread _) => none
  | .drain l =>
      if s.pass = passBefore l then
        (s.mailbox.step l).map fun mailbox => { s with mailbox := mailbox, pass := passAfter l }
      else none
  | .triggerTimer => if s.pass = .timers then some { s with pass := .waiting } else none

/-! ## Section 3: The eventfd under interrupts -/

/-- Interrupts change nothing about where `writeFd` ends. -/
theorem writeLoop_interrupts {out : WriteOutcome} (hsome : (writeLoop 8 [out] one 0).isSome)
    (interrupts : Nat) :
    (writeLoop 8 (List.replicate interrupts (.fail .EINTR) ++ [out]) one 0).isSome := by
  induction interrupts with
  | zero => exact hsome
  | succ n ih =>
    rw [List.replicate_succ, List.cons_append]
    unfold writeLoop
    simpa using ih

theorem readLoop_interrupts {out : ReadOutcome} (hsome : (readLoop 8 [out] one 0).isSome)
    (interrupts : Nat) :
    (readLoop 8 (List.replicate interrupts (.fail .EINTR) ++ [out]) one 0).isSome := by
  induction interrupts with
  | zero => exact hsome
  | succ n ih =>
    rw [List.replicate_succ, List.cons_append]
    unfold readLoop
    simpa using ih

theorem writeFd_interrupts {out : WriteOutcome} (hsome : (writeLoop 8 [out] one 0).isSome)
    (interrupts : Nat) :
    ∃ r, writeFd (List.replicate interrupts (.fail .EINTR) ++ [out]) one 8 = .ok r := by
  obtain ⟨r, hr⟩ := Option.isSome_iff_exists.mp (writeLoop_interrupts hsome interrupts)
  exact ⟨r, by rw [writeFd, hr]⟩

theorem readFd_interrupts {out : ReadOutcome} (hsome : (readLoop 8 [out] one 0).isSome)
    (interrupts : Nat) :
    ∃ r, readFd (List.replicate interrupts (.fail .EINTR) ++ [out]) one 8 = .ok r := by
  obtain ⟨r, hr⟩ := Option.isSome_iff_exists.mp (readLoop_interrupts hsome interrupts)
  exact ⟨r, by rw [readFd, hr]⟩

variable {s : Wakeup τ}

/-- `notify` leaves a number other than 0 in the eventfd, also where the number
    is too large to grow. -/
theorem notify_spec (hmax : s.counter ≤ eventfdMax) (interrupts : Nat) :
    ∃ counter, s.notify interrupts = .ok { s with counter := counter, notifying := false } ∧
      counter ≠ 0 ∧ counter ≤ eventfdMax := by
  unfold notify eventfdWrite
  by_cases hroom : s.counter < eventfdMax
  · have hwrote : (writeLoop 8 [.wrote 8] one 0).isSome := by decide
    obtain ⟨r, hr⟩ := writeFd_interrupts hwrote interrupts
    refine ⟨s.counter + 1, ?_, by omega, hroom⟩
    simp only [if_pos hroom, hr, ok_bind, pure_eq_ok]
  · have hagain : (writeLoop 8 [.fail .EAGAIN] one 0).isSome := by decide
    obtain ⟨r, hr⟩ := writeFd_interrupts hagain interrupts
    have hfull : 0 < eventfdMax := by decide
    refine ⟨s.counter, ?_, by omega, hmax⟩
    simp only [if_neg hroom, hr, ok_bind, pure_eq_ok]

/-- `wakeUpCallBack` leaves 0 in the eventfd. -/
theorem wakeUpCallBack_spec (s : Wakeup τ) (interrupts : Nat) :
    s.wakeUpCallBack interrupts = .ok { s with counter := 0, pass := .firing false } := by
  unfold wakeUpCallBack eventfdRead
  by_cases hzero : s.counter = 0
  · have hagain : (readLoop 8 [.fail .EAGAIN] one 0).isSome := by decide
    obtain ⟨r, hr⟩ := readFd_interrupts hagain interrupts
    simp only [if_pos hzero, hr, ok_bind, pure_eq_ok]
  · have hread : (readLoop 8 [.got (BigEndian.encodeLittle 8 s.counter)] one 0).isSome := by
      have hlen := BigEndian.length_encodeLittle 8 s.counter
      have hne : BigEndian.encodeLittle 8 s.counter ≠ [] := by
        intro hnil
        rw [hnil] at hlen
        cases hlen
      have hfits : 8 ≤ toSize 8 ∧ 8 ≤ one.length := by decide
      unfold readLoop
      simp only [hlen, hne, hfits, ne_eq, not_false_eq_true]
      rfl
    obtain ⟨r, hr⟩ := readFd_interrupts hread interrupts
    simp only [if_neg hzero, hr, ok_bind, pure_eq_ok]

/-! ## Section 4: What each step can do -/

/-- One constructor for each step, with its guard. -/
inductive StepTo (s : Wakeup τ) : WakeupStep τ → Wakeup τ → Prop where
  | pushBack (handle : τ) (mailbox : Mailbox τ)
      (hpost : s.mailbox.step (.scheduleToLoopThread handle) = some mailbox) :
      StepTo s (.pushBack handle) { s with mailbox := mailbox, notifying := true }
  | notify (interrupts : Nat) (notified : Wakeup τ) (hok : s.notify interrupts = .ok notified) :
      StepTo s (.notify interrupts) notified
  | wait (wakeup : Bool) (hpass : s.pass = .waiting) (hready : wakeup = true → s.counter ≠ 0) :
      StepTo s (.wait wakeup) { s with pass := .firing wakeup }
  | wakeUpCallBack (interrupts : Nat) (hpass : s.pass = .firing true) :
      StepTo s (.wakeUpCallBack interrupts) { s with counter := 0, pass := .firing false }
  | drain (l : MailboxStep τ) (mailbox : Mailbox τ) (hl : ∀ handle, l ≠ .scheduleToLoopThread handle)
      (hpass : s.pass = passBefore l) (hstep : s.mailbox.step l = some mailbox) :
      StepTo s (.drain l) { s with mailbox := mailbox, pass := passAfter l }
  | triggerTimer (hpass : s.pass = .timers) : StepTo s .triggerTimer { s with pass := .waiting }

theorem step_cases {s' : Wakeup τ} {l : WakeupStep τ} (h : s.step l = some s') : StepTo s l s' := by
  cases l with
  | pushBack handle =>
    dsimp only [step] at h
    split at h
    · cases h
    · obtain ⟨mailbox, hpost, rfl⟩ := Option.map_eq_some_iff.mp h
      exact .pushBack handle mailbox hpost
  | notify interrupts =>
    dsimp only [step] at h
    split at h
    · exact .notify interrupts s' (eq_ok_of_toOption h)
    · cases h
  | wait wakeup =>
    dsimp only [step] at h
    split at h
    · rename_i hguard
      cases h
      exact .wait wakeup hguard.1 hguard.2
    · cases h
  | wakeUpCallBack interrupts =>
    dsimp only [step] at h
    split at h
    · rename_i hpass
      rw [wakeUpCallBack_spec] at h
      cases h
      exact .wakeUpCallBack interrupts hpass
    · cases h
  | drain l =>
    cases l with
    | scheduleToLoopThread handle => cases h
    | _ =>
      dsimp only [step] at h
      split at h
      · rename_i hpass
        obtain ⟨mailbox, hstep, rfl⟩ := Option.map_eq_some_iff.mp h
        exact .drain _ mailbox (fun handle => nofun) hpass hstep
      · cases h
  | triggerTimer =>
    dsimp only [step] at h
    split at h
    · rename_i hpass
      cases h
      exact .triggerTimer hpass
    · cases h

/-! ## Section 5: No functor is slept over -/

/-- Between two drains, a functor in the list has left a number in the eventfd,
    or its thread is about to. -/
structure Inv (s : Wakeup τ) : Prop where
  mailbox : s.mailbox.Inv
  counter : s.counter ≤ eventfdMax
  outside : s.pass ≠ .draining → s.mailbox.phase = .outside
  waking : s.pass = .waiting ∨ s.pass = .timers → s.mailbox.extraEvents_ ≠ [] →
    s.counter ≠ 0 ∨ s.notifying = true

theorem inv_initial : (initial : Wakeup τ).Inv where
  mailbox := Mailbox.inv_initial
  counter := Nat.zero_le _
  outside _ := rfl
  waking _ h := absurd rfl h

/-- The loop over `extraEvents_` is outside again after its clear. -/
theorem outside_drain {l : MailboxStep τ} {mailbox mailbox' : Mailbox τ}
    (hstep : mailbox.step l = some mailbox') (hafter : passAfter l ≠ .draining) :
    mailbox'.phase = .outside ∧ mailbox'.extraEvents_ = [] := by
  cases Mailbox.step_cases hstep with
  | clear pos hphase => exact ⟨rfl, rfl⟩
  | _ => exact absurd rfl hafter

theorem inv_step (s : Wakeup τ) (l : WakeupStep τ) (s' : Wakeup τ) (h : s.Inv)
    (hstep : s.step l = some s') : s'.Inv := by
  cases step_cases hstep with
  | pushBack handle mailbox hpost =>
    refine ⟨Mailbox.inv_step _ _ _ h.mailbox hpost, h.counter, ?_, fun _ _ => Or.inr rfl⟩
    intro hpass
    cases hpost
    exact h.outside hpass
  | notify interrupts notified hok =>
    obtain ⟨counter, hnotify, hne, hmax⟩ := notify_spec h.counter interrupts
    rw [hnotify] at hok
    cases hok
    exact ⟨h.mailbox, hmax, h.outside, fun _ _ => Or.inl hne⟩
  | wait wakeup hpass hready =>
    refine ⟨h.mailbox, h.counter, fun _ => h.outside (by rw [hpass]; decide), ?_⟩
    rintro (hwait | htimers)
    · cases hwait
    · cases htimers
  | wakeUpCallBack interrupts hpass =>
    refine ⟨h.mailbox, Nat.zero_le _, fun _ => h.outside (by rw [hpass]; decide), ?_⟩
    rintro (hwait | htimers)
    · cases hwait
    · cases htimers
  | drain l mailbox hl hpass hdrain =>
    refine ⟨Mailbox.inv_step _ _ _ h.mailbox hdrain, h.counter,
      fun hafter => (outside_drain hdrain hafter).1, ?_⟩
    intro hafter hlist
    -- the list has just been cleared
    have hne : passAfter l ≠ .draining := by
      rcases hafter with heq | heq
      · rw [show passAfter l = .waiting from heq]
        decide
      · rw [show passAfter l = .timers from heq]
        decide
    exact absurd (outside_drain hdrain hne).2 hlist
  | triggerTimer hpass =>
    exact ⟨h.mailbox, h.counter, fun _ => h.outside (by rw [hpass]; decide),
      fun _ => h.waking (Or.inr hpass)⟩

/-- No functor is appended into the gap before the list is cleared. -/
def Punctual (s : Wakeup τ) : WakeupStep τ → Prop
  | .pushBack _ => ∀ pos, s.mailbox.phase ≠ .ended pos
  | _ => True

instance (s : Wakeup τ) : ∀ l, Decidable (s.Punctual l)
  | .pushBack _ => inferInstanceAs (Decidable (∀ pos, s.mailbox.phase ≠ .ended pos))
  | .notify _ | .wait _ | .wakeUpCallBack _ | .drain _ | .triggerTimer => isTrue trivial

/-- A step keeps completeness exactly if it is punctual. -/
theorem complete_step (s : Wakeup τ) (l : WakeupStep τ) (s' : Wakeup τ) (h : s.Inv)
    (hstep : s.step l = some s') :
    s'.mailbox.Complete ↔ s.mailbox.Complete ∧ s.Punctual l := by
  cases step_cases hstep with
  | pushBack handle mailbox hpost => exact Mailbox.complete_step _ _ _ h.mailbox hpost
  | notify interrupts notified hok =>
    obtain ⟨counter, hnotify, _, _⟩ := notify_spec h.counter interrupts
    rw [hnotify] at hok
    cases hok
    exact (and_iff_left trivial).symm
  | drain l mailbox hl hpass hdrain =>
    have hpunctual : s.mailbox.Punctual l := by
      cases l with
      | scheduleToLoopThread handle => exact absurd rfl (hl handle)
      | _ => trivial
    have hiff := Mailbox.complete_step _ _ _ h.mailbox hdrain
    rw [and_iff_left hpunctual] at hiff
    exact hiff.trans (and_iff_left trivial).symm
  | _ => exact (and_iff_left trivial).symm

/-- **Wake-ups.**  As long as no functor and no callback of an event throws,
    which would leave `process` with the list uncleared, and however the posting
    threads and the loop interleave, and whatever interrupts the notifications:
    where the loop waits in `epoll_wait` with nothing in the eventfd and no
    thread about to notify, its list is empty.  All functors posted have been
    run then, exactly if none of them was appended into the gap before the list
    is cleared. -/
theorem sleeps_only_when_drained {ls : List (WakeupStep τ)}
    (hrun : run step initial ls = some s) (hwaiting : s.pass = .waiting) (hzero : s.counter = 0)
    (hidle : s.notifying = false) :
    s.mailbox.extraEvents_ = [] ∧
      (s.mailbox.ran = s.mailbox.posted ↔ AllSteps step Punctual initial ls) := by
  have hinv : s.Inv := run_invariant inv_step ls initial s inv_initial hrun
  have hempty : s.mailbox.extraEvents_ = [] := by
    by_contra hlist
    rcases hinv.waking (Or.inl hwaiting) hlist with hnumber | hbusy
    · exact hnumber hzero
    · rw [hidle] at hbusy
      cases hbusy
  have hphase := hinv.outside (by rw [hwaiting]; decide)
  have hiff : s.mailbox.Complete ↔ AllSteps step Punctual initial ls := by
    rw [run_iff_allSteps (C := fun s => s.mailbox.Complete) inv_step complete_step ls initial s
      inv_initial hrun]
    exact and_iff_right Mailbox.complete_initial
  refine ⟨hempty, ?_⟩
  rw [← hiff]
  constructor
  · intro hall
    refine ⟨?_, fun pos hended => ?_⟩
    · rw [hall, hempty, hphase]
      rfl
    · rw [hphase] at hended
      cases hended
  · intro hcomplete
    exact (hinv.mailbox.ran_prefix hcomplete).2 hempty

/-- Two threads: the second appends while the first pass runs its functors, so
    that a second pass is woken up for nothing. -/
def twoThreads : List (WakeupStep Unit) :=
  [.pushBack (), .notify 2, .wait true, .wakeUpCallBack 1, .drain .beginDrain, .pushBack (),
    .drain .runNext, .notify 0, .drain .runNext, .drain .reachEnd, .drain .clear, .triggerTimer,
    .wait true, .wakeUpCallBack 0, .drain .beginDrain, .drain .reachEnd, .drain .clear,
    .triggerTimer]

theorem sleeps_only_when_drained_two : ∃ s, run step initial twoThreads = some s ∧
    s.mailbox.ran = s.mailbox.posted ∧ s.mailbox.posted = [(0, ()), (1, ())] := by
  have hfinal : run step initial twoThreads =
      some ⟨.waiting, ⟨[], .outside, [(0, ()), (1, ())], [(0, ()), (1, ())]⟩, 0, false⟩ := by
    decide +kernel
  have hpunctual : AllSteps step Punctual initial twoThreads := by decide +kernel
  exact ⟨_, hfinal, (sleeps_only_when_drained hfinal rfl rfl rfl).2.mpr hpunctual, rfl⟩

end Wakeup

end XFast
