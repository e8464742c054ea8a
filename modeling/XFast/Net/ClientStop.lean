import XFast.Framework.Trace
import XFast.Net.ClientRefinement

/-! # Whether a stopped client stays stopped

    `start()` does not ask whether an attempt is under way or a connection is
    there, `stop()` does not know the connector, and the connector asks nobody
    before it makes a connection.  So what is promised holds of runs in which
    `start()` finds nothing under way, and `stop()` no attempt.  The invariant
    is that there is at most one thing at a time: an attempt, a timer, or an
    open connection, to which the client points. -/

namespace XFast

open Program XConnStatus

/-! ## Section 1: What is promised -/

namespace ClientEvent

def isStart : ClientEvent → Bool
  | .start _ => true
  | _ => false

def isStop : ClientEvent → Bool
  | .stop _ _ => true
  | _ => false

/-- A connection is established. -/
def establishes : ClientEvent → Bool
  | .created _ _ | .finished (some _) => true
  | _ => false

/-- The calls are `start()` and `stop()` on the loop thread. -/
def OnLoopThread : ClientEvent → Prop
  | .otherStart | .otherStop _ | .destroyed _ => False
  | _ => True

/-- `start()` finds nothing under way and every connection closed; `stop()`
    finds no attempt under way. -/
def InTurn : ClientEvent → Prop
  | .start idle => idle = true
  | .stop _ quiet => quiet = true
  | _ => True

end ClientEvent

namespace ClientView

/-- The client has been stopped and not been started since. -/
def Stopped (log : List ClientEvent) : Prop := Trace.Since ClientEvent.isStop ClientEvent.isStart log

/-- At most one connection is open at any time: now, and whenever one was
    created.  A client that is stopped establishes none and has none open. -/
structure StaysStopped (v : ClientView) : Prop where
  one : ∀ c d, c < v.created → d < v.created → ¬ (v.status c).Closed → ¬ (v.status d).Closed →
    c = d
  others_closed : ∀ c othersClosed, .created c othersClosed ∈ v.log → othersClosed = true
  establishes_none : Trace.Throughout (fun past e => e.establishes → ¬ Stopped past) v.log
  closed : Stopped v.log → v.AllClosed

/-! ## Section 2: One thing at a time -/

structure OneAtATime (v : ClientView) : Prop where
  alive : v.destroyed = false
  posted : v.posted = []
  attempt : v.attempts + v.retries ≤ 1
  /-- While an attempt is under way, no connection is open. -/
  attempting : v.attempts + v.retries = 1 → v.AllClosed
  pointed : ∀ c < v.created, ¬ (v.status c).Closed → v.connectionPtr_ = some c
  others_closed : ∀ c othersClosed, .created c othersClosed ∈ v.log → othersClosed = true
  establishes_none : Trace.Throughout (fun past e => e.establishes → ¬ Stopped past) v.log
  stopped : Stopped v.log → v.attempts + v.retries = 0 ∧ v.AllClosed

variable {v v' : ClientView} {c : ConnId}

theorem OneAtATime.staysStopped (h : v.OneAtATime) : v.StaysStopped where
  one := by
    intro c d hc hd hcopen hdopen
    have hptr := h.pointed c hc hcopen
    rw [h.pointed d hd hdopen] at hptr
    exact (Option.some.inj hptr).symm
  others_closed := h.others_closed
  establishes_none := h.establishes_none
  closed := fun hstopped => (h.stopped hstopped).2

/-- An event that is none of those that the promise is about. -/
structure Passive (e : ClientEvent) : Prop where
  start : e.isStart = false
  stop : e.isStop = false
  establishes : e.establishes = false

theorem passive_member (f : Member) : Passive (.member f) := ⟨rfl, rfl, rfl⟩

theorem stopped_snoc_passive {log : List ClientEvent} {e : ClientEvent} (he : Passive e) :
    Stopped (log ++ [e]) ↔ Stopped log :=
  Trace.since_snoc_neither he.stop he.start

/-- An event leaves it so that connections were created with the others closed. -/
theorem OneAtATime.others_closed_snoc (h : v.OneAtATime) {e : ClientEvent}
    (he : ∀ c othersClosed, e = .created c othersClosed → othersClosed = true) (c : ConnId)
    (othersClosed : Bool) (hmem : .created c othersClosed ∈ v.log ++ [e]) :
    othersClosed = true := by
  rcases List.mem_append.mp hmem with hmem | hmem
  · exact h.others_closed c othersClosed hmem
  · exact he c othersClosed (List.mem_singleton.mp hmem).symm

theorem OneAtATime.note (h : v.OneAtATime) {e : ClientEvent} (he : Passive e) :
    (v.note e).OneAtATime where
  alive := h.alive
  posted := h.posted
  attempt := h.attempt
  attempting := h.attempting
  pointed := h.pointed
  others_closed := by
    apply h.others_closed_snoc
    rintro c othersClosed rfl
    cases he.establishes
  establishes_none := by
    apply Trace.throughout_snoc.mpr ⟨h.establishes_none, fun hestablishes => ?_⟩
    rw [he.establishes] at hestablishes
    cases hestablishes
  stopped := fun hstopped => h.stopped ((stopped_snoc_passive he).mp hstopped)

/-- Attempts and timers come and go, but there are not more of them. -/
theorem OneAtATime.setAttempts (h : v.OneAtATime) (attempts retries : Nat)
    (hle : attempts + retries ≤ v.attempts + v.retries) :
    OneAtATime { v with attempts := attempts, retries := retries } where
  alive := h.alive
  posted := h.posted
  attempt := Nat.le_trans hle h.attempt
  attempting := by
    intro hone
    have hattempt := h.attempt
    exact h.attempting (by simp only at hone; omega)
  pointed := h.pointed
  others_closed := h.others_closed
  establishes_none := h.establishes_none
  stopped := by
    intro hstopped
    obtain ⟨hzero, hclosed⟩ := h.stopped hstopped
    exact ⟨by simp only; omega, hclosed⟩

theorem OneAtATime.failed (h : v.OneAtATime) : v.failed.OneAtATime :=
  ((h.note (passive_member _)).note (passive_member _)).note ⟨rfl, rfl, rfl⟩

/-- `start()` with nothing under way: now one attempt may be. -/
theorem OneAtATime.start (h : v.OneAtATime) (hquiet : v.Quiet) (hclosed : v.AllClosed)
    (attempts : Nat) (hattempts : attempts ≤ 1) :
    OneAtATime { v.note (.start (v.Quiet ∧ v.AllClosed)) with attempts := attempts } where
  alive := h.alive
  posted := h.posted
  attempt := by
    show attempts + v.retries ≤ 1
    rw [hquiet.2.1]
    exact hattempts
  attempting := fun _ => hclosed
  pointed := h.pointed
  others_closed := h.others_closed_snoc nofun
  establishes_none := Trace.throughout_snoc.mpr ⟨h.establishes_none, nofun⟩
  stopped := by
    intro hstopped
    -- the last event is a `start()`
    rcases Trace.since_snoc.mp hstopped with hstop | ⟨_, hstart⟩
    · cases hstop
    · cases hstart

/-- `stop()` with no attempt under way, when every connection is closed. -/
theorem OneAtATime.stop (h : v.OneAtATime) (hquiet : v.Quiet) (hclosed : v.AllClosed)
    (connection : Option ConnId) (quiet : Bool) :
    (v.note (.stop connection quiet)).OneAtATime where
  alive := h.alive
  posted := h.posted
  attempt := h.attempt
  attempting := h.attempting
  pointed := h.pointed
  others_closed := h.others_closed_snoc nofun
  establishes_none := Trace.throughout_snoc.mpr ⟨h.establishes_none, nofun⟩
  stopped := by
    intro _
    refine ⟨?_, hclosed⟩
    show v.attempts + v.retries = 0
    rw [hquiet.1, hquiet.2.1]

/-- The connection that the client points to closes: then all are closed. -/
theorem OneAtATime.allClosed (h : v.OneAtATime) (hptr : v.connectionPtr_ = some c) :
    (v.setStatus c XF_CONN_STATUS_DISCONNECTING).AllClosed := by
  intro d hd
  show (Function.update v.status c _ d).Closed
  by_cases hdc : d = c
  · rw [hdc, Function.update_self]
    exact closed_disconnecting
  · rw [Function.update_of_ne hdc]
    by_contra hopen
    have hd := h.pointed d hd hopen
    rw [hptr] at hd
    exact hdc (Option.some.inj hd).symm

theorem OneAtATime.setStatus (h : v.OneAtATime) (hptr : v.connectionPtr_ = some c) :
    (v.setStatus c XF_CONN_STATUS_DISCONNECTING).OneAtATime where
  alive := h.alive
  posted := h.posted
  attempt := h.attempt
  attempting := fun _ => h.allClosed hptr
  pointed := fun d hd hopen => absurd (h.allClosed hptr d hd) hopen
  others_closed := h.others_closed
  establishes_none := h.establishes_none
  stopped := fun hstopped => ⟨(h.stopped hstopped).1, h.allClosed hptr⟩

/-- While an attempt is under way the client is not stopped, so the attempt may
    succeed; all other connections are closed. -/
theorem OneAtATime.established (h : v.OneAtATime) {n : Nat} (hn : v.attempts = n + 1) :
    { v with attempts := n }.established.OneAtATime := by
  have hattempt := h.attempt
  -- the attempt that succeeds is the one thing that is under way
  have hone : v.attempts + v.retries = 1 := by omega
  have hclosed := h.attempting hone
  have hnot : ¬ Stopped v.log := fun hstopped => by
    have hzero := (h.stopped hstopped).1
    omega
  have hzero : n + v.retries = 0 := by omega
  have hmember : ({ v with attempts := n }.note (.member .connectedToServer)).OneAtATime := by
    have hset := h.setAttempts n v.retries (by omega)
    exact hset.note (passive_member _)
  have hnot' : ¬ Stopped (v.log ++ [.member .connectedToServer]) :=
    fun hstopped => hnot ((stopped_snoc_passive (passive_member _)).mp hstopped)
  refine ⟨h.alive, h.posted, Nat.le_of_lt_succ (hzero ▸ Nat.two_pos), ?_, ?_, ?_, ?_, ?_⟩
  · intro hsum
    have hsum : n + v.retries = 1 := hsum
    omega
  · intro d hd hopen
    have hopen : ¬ (Function.update v.status v.created XF_CONN_STATUS_CONNECTED d).Closed := hopen
    by_cases hdc : d = v.created
    · rw [hdc]
      rfl
    · rw [Function.update_of_ne hdc] at hopen
      have hd : d < v.created + 1 := hd
      exact absurd (hclosed d (by omega)) hopen
  · apply hmember.others_closed_snoc
    rintro c othersClosed ⟨⟩
    exact decide_eq_true hclosed
  · exact Trace.throughout_snoc.mpr ⟨hmember.establishes_none, fun _ => hnot'⟩
  · intro hstopped
    rcases Trace.since_snoc.mp hstopped with hstop | ⟨hstopped, _⟩
    · cases hstop
    · exact absurd hstopped hnot'

/-- The finished callback gets the connection, which is open. -/
theorem OneAtATime.finished (h : v.OneAtATime) (hconn : v.Connected c) :
    (v.note (.finished (some c))).OneAtATime := by
  have hnot : ¬ Stopped v.log := by
    intro hstopped
    have hclosed := (h.stopped hstopped).2 c hconn.1
    rw [hconn.2] at hclosed
    exact absurd hclosed (by decide)
  refine ⟨h.alive, h.posted, h.attempt, h.attempting, h.pointed, h.others_closed_snoc nofun,
    ?_, ?_⟩
  · exact Trace.throughout_snoc.mpr ⟨h.establishes_none, fun _ => hnot⟩
  · intro hstopped
    rcases Trace.since_snoc.mp hstopped with hstop | ⟨hstopped, _⟩
    · cases hstop
    · exact absurd hstopped hnot

theorem oneAtATime_begins (h : v.OneAtATime) (hinTurn : ∀ e ∈ v'.log, e.InTurn)
    (hb : Begins v v') : v'.OneAtATime := by
  cases hb with
  -- with nothing under way the connect may still fail at once
  | start hd =>
    have hidle : decide (v.Quiet ∧ v.AllClosed) = true := hinTurn (.start _) (by simp)
    obtain ⟨hquiet, hclosed⟩ := of_decide_eq_true hidle
    exact h.start hquiet hclosed v.attempts (by rw [hquiet.1]; omega)
  | timer n hn =>
    have hle : v.attempts + n ≤ v.attempts + v.retries := by omega
    exact h.setAttempts _ _ hle
  | posted rest hp =>
    rw [h.posted] at hp
    cases hp

theorem oneAtATime_connects (h : v.OneAtATime) {v₁ : ClientView}
    (hinTurn : ∀ e ∈ v'.log, e.InTurn) (hb : Begins v v₁) (hc : Connects v₁ v') :
    v'.OneAtATime := by
  cases hc with
  | fails =>
    apply OneAtATime.failed
    exact oneAtATime_begins h (fun e he => hinTurn e (by simp [he])) hb
  | attempt =>
    cases hb with
    | start hd =>
      have hidle : decide (v.Quiet ∧ v.AllClosed) = true := hinTurn (.start _) (by simp)
      obtain ⟨hquiet, hclosed⟩ := of_decide_eq_true hidle
      exact h.start hquiet hclosed (v.attempts + 1) (by rw [hquiet.1])
    | timer n hn =>
      have hle : v.attempts + 1 + n ≤ v.attempts + v.retries := by omega
      exact h.setAttempts _ _ hle
    | posted rest hp =>
      rw [h.posted] at hp
      cases hp

/-- The destructor has not run, so the close callback is the client's own. -/
theorem oneAtATime_closing (hgood : v.Good) (h : v.OneAtATime) (hconn : v.Connected c)
    (hclosing : Closing c v v') : v'.OneAtATime := by
  have hopen : ¬ (v.status c).Closed := by
    rw [hconn.2]
    decide
  have hnot : v.replaced c ≠ true := fun hr => hopen (hgood.replaced h.alive c hconn.1 hr)
  have hptr := h.pointed c hconn.1 hopen
  cases hclosing with
  | client _ =>
    -- the pointer is given up, but nothing open is left that it would have to lead to
    have hset := (h.setStatus hptr).note (passive_member .connectionClosed)
    refine ⟨hset.alive, hset.posted, hset.attempt, hset.attempting, ?_, hset.others_closed,
      hset.establishes_none, hset.stopped⟩
    exact fun d hd hopen => absurd (h.allClosed hptr d hd) hopen
  | user hr _ => exact absurd hr hnot
  | nobody hr _ => exact absurd hr hnot

theorem oneAtATime_step (hgood : v.Good) (h : v.OneAtATime)
    (hcalls : ∀ e ∈ v'.log, e.OnLoopThread ∧ e.InTurn) (hstep : ClientStep v v') :
    v'.OneAtATime := by
  have hinTurn : ∀ e ∈ v'.log, e.InTurn := fun e he => (hcalls e he).2
  have hloop : ∀ e ∈ v'.log, e.OnLoopThread := fun e he => (hcalls e he).1
  have hlast : ∀ e, v'.log = v.log ++ [e] → e.OnLoopThread :=
    fun e hlog => hloop e (by rw [hlog]; simp)
  cases hstep with
  | member f _ => exact h.note (passive_member f)
  | resumes => exact h.note ⟨rfl, rfl, rfl⟩
  | finished c hconn => exact (h.note (passive_member _)).finished hconn
  | begins _ hb => exact oneAtATime_begins h hinTurn hb
  | connects _ _ hb hc => exact oneAtATime_connects h hinTurn hb hc
  | retries n hn =>
    have hle : n + (v.retries + 1) ≤ v.attempts + v.retries := by omega
    exact h.setAttempts _ _ hle
  | givesUp n hn =>
    have hset := h.setAttempts n v.retries (by omega)
    exact hset.failed
  | succeeds n hn => exact h.established hn
  | closes _ c hconn hclosing => exact oneAtATime_closing hgood h hconn hclosing
  | stopIdle hd hc =>
    have hquiet : v.Quiet := of_decide_eq_true (hinTurn (.stop none v.Quiet) (by simp))
    have hclosed : v.AllClosed := by
      intro d hd
      by_contra hopen
      -- an open connection would have been found
      have hconn : v.connection = some d := by
        unfold ClientView.connection
        rw [h.pointed d hd hopen, Option.filter_some, if_pos]
        exact decide_eq_true ((hgood.status d hd).resolve_right hopen)
      rw [hc] at hconn
      cases hconn
    exact h.stop hquiet hclosed none _
  | stop c hd hc =>
    have hquiet : v.Quiet := of_decide_eq_true (hinTurn (.stop (some c) v.Quiet) (by simp))
    have hptr := (connection_eq_some hc).1
    have hstop := (h.setStatus hptr).stop hquiet (h.allClosed hptr) (some c) v.Quiet
    exact (hstop.note (passive_member _)).note ⟨rfl, rfl, rfl⟩
  -- the calls of other threads and the destructor are no part of the run
  | otherStart _ => exact (hlast _ rfl).elim
  | otherStopIdle _ _ => exact (hlast _ rfl).elim
  | otherStop c _ _ => exact (hlast _ rfl).elim
  | destroy _ _ => exact (hlast _ rfl).elim
  | destroyConnected c _ _ => exact (hlast _ rfl).elim
  | otherDestroy c _ _ => exact (hlast _ rfl).elim
  | setClosed c _ hd => exact absurd (hd.symm.trans h.alive) (by decide)
  -- so the mailbox stays empty
  | runsClose _ c rest hp _ _ =>
    rw [h.posted] at hp
    cases hp
  | dropsClose c rest hp _ =>
    rw [h.posted] at hp
    cases hp
  | runsReplace c rest hp =>
    rw [h.posted] at hp
    cases hp

end ClientView

namespace XClient

/-! ## Section 3: Every run -/

/-- **A client that is used in turn stays stopped.**  In every run with calls
    on the loop thread only, in which `start()` finds nothing under way and
    every connection closed, and `stop()` finds no attempt under way. -/
theorem stopped_stays_stopped {w₀ : World XClient} (hinit : Constructed w₀) (depth fuel : Nat)
    (inputs : List ClientInput)
    (hcalls : ∀ e ∈ (endOfClient depth fuel inputs w₀).ext.log, e.OnLoopThread)
    (hinTurn : ∀ e ∈ (endOfClient depth fuel inputs w₀).ext.log, e.InTurn) :
    (view (endOfClient depth fuel inputs w₀)).StaysStopped := by
  have hlog : (view w₀).log = [] := hinit.log
  have hcreated : (view w₀).created = 0 := hinit.created
  have hattempts : (view w₀).attempts = 0 := by
    show w₀.ext.attempts.length = 0
    rw [hinit.connector.2.2.1]
    rfl
  have hretries : (view w₀).retries = 0 := hinit.connector.2.2.2
  -- a new client has nothing under way
  have hstart : (view w₀).OneAtATime := by
    refine ⟨hinit.client.2.2, hinit.posted, by omega, by omega, ?_, ?_, ?_, ?_⟩
    · rw [hcreated]
      exact fun c hc => absurd hc (Nat.not_lt_zero c)
    · rw [hlog]
      exact fun _ _ hmem => absurd hmem List.not_mem_nil
    · rw [hlog]
      exact Trace.throughout_nil _
    · rw [hlog]
      exact fun hstopped => absurd hstopped Trace.not_since_nil
  have hend := ClientView.run_invariant_while (I := ClientView.OneAtATime)
    (C := fun log => ∀ e ∈ log, e.OnLoopThread ∧ e.InTurn)
    (fun l l' hbefore h e he => h e (hbefore.subset he))
    (fun v v' hgood hcalls h hstep => ClientView.oneAtATime_step hgood h hcalls hstep)
    hinit.good hstart (hinit.clientRun depth fuel inputs) fun e he => ⟨hcalls e he, hinTurn e he⟩
  exact hend.staysStopped

/-- A client connects and is stopped, twice; the kernel hands out the same
    descriptor. -/
def startedTwice : List ClientInput :=
  [.act .start, .event 5 XE_WRITABLE 0, .act .stop, .act .start, .event 5 XE_WRITABLE 0, .act .stop]

theorem stopped_stays_stopped_startedTwice :
    (view (endOfClient 1 5 startedTwice (newClient true [some 5, some 5] [] []))).StaysStopped := by
  have hlog : (endOfClient 1 5 startedTwice (newClient true [some 5, some 5] [] [])).ext.log =
      [.start true, .member .connectedToServer, .created 0 true, .member .connectionFinished,
        .finished (some 0), .stop (some 0) true, .member .connectionClosed, .relock,
        .start true, .member .connectedToServer, .created 1 true, .member .connectionFinished,
        .finished (some 1), .stop (some 1) true, .member .connectionClosed, .relock] := by
    decide +kernel
  apply stopped_stays_stopped (constructed_newClient _ _ _ _) 1 5 startedTwice
  · rw [hlog]
    simp [ClientEvent.OnLoopThread]
  · rw [hlog]
    simp [ClientEvent.InTurn]

/-- `stop()` while the attempt is under way: the connection is established and
    stays.  And `start()` on a connected client: two connections are open. -/
theorem attempt_outlives_stop :
    (∃ w : World XClient,
      w = endOfClient 1 5 [.act .start, .act .stop, .event 5 XE_WRITABLE 0]
        (newClient true [some 5] [] []) ∧
      w.ext.log = [.start true, .stop none false, .member .connectedToServer, .created 0 true,
        .member .connectionFinished, .finished (some 0)] ∧
      (w.conns 0).connStatus_ = XF_CONN_STATUS_CONNECTED ∧ ¬ (view w).StaysStopped) ∧
    ∃ w : World XClient,
      w = endOfClient 1 5 [.act .start, .event 5 XE_WRITABLE 0, .act .start,
        .event 6 XE_WRITABLE 0] (newClient true [some 5, some 6] [] []) ∧
      (w.conns 0).connStatus_ = XF_CONN_STATUS_CONNECTED ∧
      (w.conns 1).connStatus_ = XF_CONN_STATUS_CONNECTED ∧ ¬ (view w).StaysStopped := by
  refine ⟨⟨_, rfl, ?_, ?_, fun h => ?_⟩, ⟨_, rfl, ?_, ?_, fun h => ?_⟩⟩
  · decide +kernel
  · decide +kernel
  · have hstopped : ClientView.Stopped [.start true, .stop none false, .member .connectedToServer,
        .created 0 true, .member .connectionFinished, .finished (some 0)] :=
      ⟨[.start true], .stop none false, _, rfl, rfl, by decide⟩
    have hlog : (view (endOfClient 1 5 [.act .start, .act .stop, .event 5 XE_WRITABLE 0]
        (newClient true [some 5] [] []))).log = [.start true, .stop none false,
          .member .connectedToServer, .created 0 true, .member .connectionFinished,
          .finished (some 0)] := by
      decide +kernel
    exact absurd (h.closed (hlog ▸ hstopped)) (by decide +kernel)
  · decide +kernel
  · decide +kernel
  · exact absurd (h.one 0 1 (by decide +kernel) (by decide +kernel) (by decide +kernel)
      (by decide +kernel)) (by decide)

end XClient

end XFast
