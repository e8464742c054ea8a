import XFast.Framework.Trace
import XFast.Net.ClientRefinement

/-! # The lock of a client

    `stop()` closes the connection while it holds `lock_`.  In another thread
    that posts `closeConn`, and the loop thread runs it when the lock is free.
    On the loop thread the close runs inline, down to `doCloseConnection`,
    which locks again; the exception that this throws is swallowed, and the
    client keeps its pointer to a connection that is closed.

    So what is at stake is whether `stop()` is called on the loop thread with
    a connection that is connected. -/

namespace XFast

open Program XConnStatus

/-! ## Section 1: What is asked of the lock -/

/-- The event asks for this connection to be closed. -/
def ClientEvent.stops (c : ConnId) : ClientEvent → Bool
  | .stop (some d) _ | .otherStop (some d) => d = c
  | _ => false

def ClientEvent.creates : ClientEvent → Bool
  | .created _ _ => true
  | _ => false

namespace ClientView

/-- The lock is never locked twice.  When the functors have run, a connection
    that was to be stopped is closed; and the client points to none, unless it
    has created another one since. -/
structure LockSafe (v : ClientView) : Prop where
  never_relocked : .relock ∉ v.log
  closed : ∀ c, ∀ e ∈ v.log, e.stops c → v.posted = [] → (v.status c).Closed
  pointer : ∀ c, Trace.Since (ClientEvent.stops c) ClientEvent.creates v.log → v.posted = [] →
    v.destroyed = false → v.connectionPtr_ = none

/-! ## Section 2: Runs in which `stop` does not close inline -/

/-- A connection that was to be stopped is closed, or a functor that closes it
    is on its way. -/
structure Releasing (v : ClientView) : Prop where
  never_relocked : .relock ∉ v.log
  pointer : v.destroyed = false → ∀ c, v.connectionPtr_ = some c → v.Connected c
  stopping : ∀ c, ∀ e ∈ v.log, e.stops c →
    c < v.created ∧ ((v.status c).Closed ∨ .closeConn c ∈ v.posted)
  since : v.destroyed = false →
    ∀ c, Trace.Since (ClientEvent.stops c) ClientEvent.creates v.log →
      v.connectionPtr_ = none ∨ v.connectionPtr_ = some c

variable {v v' : ClientView} {c : ConnId}

theorem not_closed_connected : ¬ XF_CONN_STATUS_CONNECTED.Closed := by decide

theorem Connected.not_closed (h : v.Connected c) : ¬ (v.status c).Closed := by
  rw [h.2]
  exact not_closed_connected

theorem Releasing.lockSafe (h : v.Releasing) : v.LockSafe where
  never_relocked := h.never_relocked
  closed := by
    intro c e he hstops hposted
    apply (h.stopping c e he hstops).2.resolve_right
    rw [hposted]
    exact List.not_mem_nil
  pointer := by
    intro c hsince hposted halive
    have hclosed : (v.status c).Closed := by
      obtain ⟨past, e, rest, hlog, hstops, _⟩ := hsince
      apply (h.stopping c e (by simp [hlog]) hstops).2.resolve_right
      rw [hposted]
      exact List.not_mem_nil
    apply (h.since halive c hsince).resolve_right
    intro hptr
    exact (h.pointer halive c hptr).not_closed hclosed

/-- An event that has nothing to do with the lock. -/
structure Neutral (e : ClientEvent) : Prop where
  relock : e ≠ .relock
  stops : ∀ c, e.stops c = false
  creates : e.creates = false

theorem neutral_member (f : Member) : Neutral (.member f) := ⟨nofun, fun _ => rfl, rfl⟩

theorem Releasing.note (h : v.Releasing) {e : ClientEvent} (he : Neutral e) :
    (v.note e).Releasing where
  never_relocked := by
    intro hmem
    rcases List.mem_append.mp hmem with hmem | hmem
    · exact h.never_relocked hmem
    · exact he.relock (List.mem_singleton.mp hmem).symm
  pointer := h.pointer
  stopping := by
    intro c x hx hstops
    rcases List.mem_append.mp hx with hx | hx
    · exact h.stopping c x hx hstops
    · rw [List.mem_singleton.mp hx, he.stops] at hstops
      cases hstops
  since := by
    intro halive c hsince
    rw [note_log, Trace.since_snoc_neither (he.stops c) he.creates] at hsince
    exact h.since halive c hsince

/-- A functor leaves the mailbox that closes nothing that is still open. -/
theorem Releasing.pop (h : v.Releasing) {f : Posted} {rest : List Posted}
    (hp : v.posted = f :: rest) (hf : ∀ c, f = .closeConn c → (v.status c).Closed) :
    Releasing { v with posted := rest } where
  never_relocked := h.never_relocked
  pointer := h.pointer
  stopping := by
    intro c e he hstops
    obtain ⟨hc, hstopping⟩ := h.stopping c e he hstops
    refine ⟨hc, ?_⟩
    rw [hp, List.mem_cons] at hstopping
    rcases hstopping with hclosed | hhead | hrest
    · exact Or.inl hclosed
    · exact Or.inl (hf c hhead.symm)
    · exact Or.inr hrest
  since := h.since

theorem releasing_begins (h : v.Releasing) (hb : Begins v v') : v'.Releasing := by
  cases hb with
  | start hd => exact h.note ⟨nofun, fun _ => rfl, rfl⟩
  | timer n hn => exact ⟨h.never_relocked, h.pointer, h.stopping, h.since⟩
  | posted rest hp => exact h.pop hp nofun

theorem Releasing.failed (h : v.Releasing) : v.failed.Releasing :=
  ((h.note (neutral_member _)).note (neutral_member _)).note ⟨nofun, fun _ => rfl, rfl⟩

theorem releasing_connects (h : v.Releasing) (hc : Connects v v') : v'.Releasing := by
  cases hc with
  | attempt => exact ⟨h.never_relocked, h.pointer, h.stopping, h.since⟩
  | fails => exact h.failed

/-- After the destruction there is no pointer to speak of. -/
theorem Releasing.of_destroyed (hdestroyed : v.destroyed = true)
    (hrelock : .relock ∉ v.log) (hstopping : ∀ c, ∀ e ∈ v.log, e.stops c →
      c < v.created ∧ ((v.status c).Closed ∨ .closeConn c ∈ v.posted)) : v.Releasing where
  never_relocked := hrelock
  pointer := fun halive => absurd (hdestroyed.symm.trans halive) (by decide)
  stopping := hstopping
  since := fun halive => absurd (hdestroyed.symm.trans halive) (by decide)

/-- A connection closes: it may be the one that is the next to be stopped. -/
theorem releasing_closing (hgood : v.Good) (hconn : v.Connected c) (hclosing : Closing c v v')
    (hrelock : .relock ∉ v.log)
    (hstopping : ∀ d, ∀ e ∈ v.log, e.stops d →
      d < v.created ∧ (d = c ∨ (v.status d).Closed ∨ .closeConn d ∈ v.posted)) :
    v'.Releasing := by
  have hstatus : ∀ d, ∀ e ∈ v.log, e.stops d → d < v.created ∧
      ((Function.update v.status c XF_CONN_STATUS_DISCONNECTING d).Closed ∨
        .closeConn d ∈ v.posted) := by
    intro d e he hstops
    obtain ⟨hd, hcases⟩ := hstopping d e he hstops
    refine ⟨hd, ?_⟩
    rcases hcases with rfl | hclosed | hposted
    · rw [Function.update_self]
      exact Or.inl closed_disconnecting
    · exact Or.inl (closed_update closed_disconnecting hclosed)
    · exact Or.inr hposted
  have hdestroyed : v.replaced c = true → v.destroyed = true := by
    intro hr
    by_contra hd
    exact hconn.not_closed (hgood.replaced (eq_false_of_ne_true hd) c hconn.1 hr)
  cases hclosing with
  | client _ =>
    -- the pointer is given up together with the connection
    have hset : Releasing { v.setStatus c XF_CONN_STATUS_DISCONNECTING with
        connectionPtr_ := none
        replaced := Function.update v.replaced c true } :=
      ⟨hrelock, nofun, hstatus, fun _ _ _ => Or.inl rfl⟩
    exact hset.note (neutral_member _)
  | user hr _ =>
    have hset : (v.setStatus c XF_CONN_STATUS_DISCONNECTING).Releasing :=
      .of_destroyed (hdestroyed hr) hrelock hstatus
    exact hset.note ⟨nofun, fun _ => rfl, rfl⟩
  | nobody hr _ => exact .of_destroyed (hdestroyed hr) hrelock hstatus

/-- A new connection: there is one more, and the pointer is to it. -/
theorem Releasing.established (h : v.Releasing) : v.established.Releasing where
  never_relocked := by simpa using h.never_relocked
  pointer := by
    intro _ c hptr
    rw [← Option.some.inj hptr]
    exact ⟨Nat.lt_succ_self _, Function.update_self ..⟩
  stopping := by
    intro c e he hstops
    have hold : e ∈ v.log := by
      rcases List.mem_append.mp he with he | he
      · rcases List.mem_append.mp he with he | he
        · exact he
        · rw [List.mem_singleton.mp he] at hstops
          cases hstops
      · rw [List.mem_singleton.mp he] at hstops
        cases hstops
    obtain ⟨hc, hstopping⟩ := h.stopping c e hold hstops
    refine ⟨Nat.lt_succ_of_lt hc, ?_⟩
    -- a connection that was to be stopped is older than the new one
    show (Function.update v.status v.created _ c).Closed ∨ _
    rw [Function.update_of_ne (Nat.ne_of_lt hc)]
    exact hstopping
  since := by
    intro _ c hsince
    rw [established_log, Trace.since_snoc] at hsince
    rcases hsince with hstops | ⟨_, hcreates⟩
    · cases hstops
    · cases hcreates

theorem Releasing.destroy (h : v.Releasing) (idle : Bool) (replaced : ConnId → Bool)
    {posted : List Posted} (hposted : ∀ c, .closeConn c ∈ v.posted → .closeConn c ∈ posted) :
    Releasing { v.note (.destroyed idle) with
      destroyed := true, replaced := replaced, posted := posted } := by
  have hnote : (v.note (.destroyed idle)).Releasing := h.note ⟨nofun, fun _ => rfl, rfl⟩
  refine Releasing.of_destroyed rfl hnote.never_relocked ?_
  intro d e he hstops
  exact (hnote.stopping d e he hstops).imp id (Or.imp id (hposted d))

/-- Another thread asks for the connection to be closed: the functor is posted. -/
theorem Releasing.otherStop (h : v.Releasing) (hgood : v.Good) (hc : v.connection = some c) :
    Releasing { v.note (.otherStop (some c)) with posted := v.posted ++ [.closeConn c] } where
  never_relocked := by simpa using h.never_relocked
  pointer := h.pointer
  stopping := by
    intro d e he hstops
    rcases List.mem_append.mp he with he | he
    · exact (h.stopping d e he hstops).imp id (Or.imp id (List.mem_append_left _))
    · rw [List.mem_singleton.mp he] at hstops
      have hcd : c = d := of_decide_eq_true hstops
      rw [← hcd]
      exact ⟨hgood.pointer c (connection_eq_some hc).1, Or.inr (by simp)⟩
  since := by
    intro halive d hsince
    rcases Trace.since_snoc.mp hsince with hstops | ⟨hsince, _⟩
    · have hcd : c = d := of_decide_eq_true hstops
      rw [← hcd]
      exact Or.inr (connection_eq_some hc).1
    · exact h.since halive d hsince

theorem releasing_step (hgood : v.Good) (h : v.Releasing)
    (hno : ∀ c quiet, .stop (some c) quiet ∉ v'.log) (hstep : ClientStep v v') :
    v'.Releasing := by
  cases hstep with
  | member f _ => exact h.note (neutral_member f)
  | resumes => exact h.note ⟨nofun, fun _ => rfl, rfl⟩
  | finished c _ => exact (h.note (neutral_member _)).note ⟨nofun, fun _ => rfl, rfl⟩
  | begins _ hb => exact releasing_begins h hb
  | connects _ _ hb hc => exact releasing_connects (releasing_begins h hb) hc
  | retries n _ => exact ⟨h.never_relocked, h.pointer, h.stopping, h.since⟩
  | givesUp n _ =>
    have hset : Releasing { v with attempts := n } :=
      ⟨h.never_relocked, h.pointer, h.stopping, h.since⟩
    exact hset.failed
  | succeeds n _ =>
    have hset : Releasing { v with attempts := n } :=
      ⟨h.never_relocked, h.pointer, h.stopping, h.since⟩
    exact hset.established
  | closes _ c hconn hclosing =>
    apply releasing_closing hgood hconn hclosing h.never_relocked
    intro d e he hstops
    exact (h.stopping d e he hstops).imp id Or.inr
  | runsClose _ c rest hp hconn hclosing =>
    apply releasing_closing (hgood.pop hp) hconn hclosing h.never_relocked
    intro d e he hstops
    -- the functor that leaves the mailbox is the one that closes `c`
    obtain ⟨hd, hstopping⟩ := h.stopping d e he hstops
    refine ⟨hd, ?_⟩
    rw [hp, List.mem_cons, Posted.closeConn.injEq] at hstopping
    rcases hstopping with hclosed | hhead | hrest
    · exact Or.inr (Or.inl hclosed)
    · exact Or.inl hhead
    · exact Or.inr (Or.inr hrest)
  | dropsClose c rest hp hclosed =>
    apply h.pop hp
    rintro d ⟨⟩
    exact hclosed
  | setClosed c hclosed hd =>
    have hstopping : ∀ d, ∀ e ∈ v.log, e.stops d → d < v.created ∧
        ((Function.update v.status c XF_CONN_STATUS_DISCONNECTED d).Closed ∨
          .closeConn d ∈ v.posted) := by
      intro d e he hstops
      exact (h.stopping d e he hstops).imp id (Or.imp (closed_update closed_disconnected) id)
    exact Releasing.of_destroyed hd h.never_relocked hstopping
  | stopIdle _ _ => exact h.note ⟨nofun, fun _ => rfl, rfl⟩
  -- the one step that the condition rules out
  | stop c _ _ => exact absurd (by simp) (hno c v.Quiet)
  | otherStart _ =>
    have hnote : (v.note .otherStart).Releasing := h.note ⟨nofun, fun _ => rfl, rfl⟩
    refine ⟨hnote.never_relocked, hnote.pointer, ?_, hnote.since⟩
    intro c e he hstops
    exact (hnote.stopping c e he hstops).imp id (Or.imp id (List.mem_append_left _))
  | otherStopIdle _ _ => exact h.note ⟨nofun, fun _ => rfl, rfl⟩
  | otherStop c _ hc => exact h.otherStop hgood hc
  | destroy _ _ => exact h.destroy _ v.replaced fun _ hc => hc
  | destroyConnected c _ _ => exact h.destroy _ _ fun _ hc => hc
  | otherDestroy c _ _ => exact h.destroy _ v.replaced fun _ hc => List.mem_append_left _ hc
  | runsReplace c rest hp =>
    have hpop := h.pop hp nofun
    exact ⟨hpop.never_relocked, hpop.pointer, hpop.stopping, hpop.since⟩

/-- `stop` on the loop thread with a connection that is connected locks twice. -/
theorem relocked_step (hstep : ClientStep v v')
    (h : ∀ c quiet, .stop (some c) quiet ∈ v.log → .relock ∈ v.log) (c : ConnId) (quiet : Bool)
    (hmem : .stop (some c) quiet ∈ v'.log) : .relock ∈ v'.log := by
  cases hstep with
  | begins _ hb => cases hb <;> simpa using h c quiet (by simpa using hmem)
  | connects _ _ hb hc => cases hb <;> cases hc <;> simpa using h c quiet (by simpa using hmem)
  | closes _ _ _ hclosing => cases hclosing <;> simpa using h c quiet (by simpa using hmem)
  | runsClose _ _ _ _ _ hclosing => cases hclosing <;> simpa using h c quiet (by simpa using hmem)
  | stop c _ _ => simp
  | _ => simpa using h c quiet (by simpa using hmem)

end ClientView

namespace XClient

/-! ## Section 3: Every run -/

/-- **When the lock is safe.**  At the end of a run the lock has never been
    locked twice, and the connections that were to be stopped have been let go,
    if and only if `stop()` has not been called on the loop thread with a
    connection that was connected. -/
theorem lock_safe_iff {w₀ : World XClient} (hinit : Constructed w₀) (depth fuel : Nat)
    (inputs : List ClientInput) :
    (view (endOfClient depth fuel inputs w₀)).LockSafe ↔
      ∀ c quiet, .stop (some c) quiet ∉ (endOfClient depth fuel inputs w₀).ext.log := by
  have hrun := hinit.clientRun depth fuel inputs
  have hlog : (view w₀).log = [] := hinit.log
  constructor
  -- a close under the lock leaves a trace in the log, and logs only grow
  · intro hsafe c quiet hmem
    have hrelocked := ClientView.run_invariant
      (I := fun v => ∀ c quiet, .stop (some c) quiet ∈ v.log → .relock ∈ v.log)
      (fun v v' _ h hstep => ClientView.relocked_step hstep h) hinit.good
      (by rw [hlog]; exact fun _ _ hmem => absurd hmem List.not_mem_nil) hrun
    exact hsafe.never_relocked (hrelocked c quiet hmem)
  · intro hno
    have hstart : (view w₀).Releasing := by
      refine ⟨?_, ?_, ?_, ?_⟩
      · rw [hlog]
        exact List.not_mem_nil
      · intro _ c hptr
        exact absurd (hinit.client.1.symm.trans hptr) nofun
      · rw [hlog]
        exact fun c e he => absurd he List.not_mem_nil
      · rw [hlog]
        exact fun _ c hsince => absurd hsince Trace.not_since_nil
    have hend := ClientView.run_invariant_while (I := ClientView.Releasing)
      (C := fun log => ∀ c quiet, .stop (some c) quiet ∉ log)
      (fun l l' hbefore hno c quiet hmem => hno c quiet (hbefore.subset hmem))
      (fun v v' hgood hno h hstep => ClientView.releasing_step hgood h hno hstep)
      hinit.good hstart hrun hno
    exact hend.lockSafe

/-- A client connects and is stopped by another thread; the functor runs. -/
def stoppedElsewhere : List ClientInput :=
  [.act .start, .event 5 XE_WRITABLE 0, .act .otherStop, .runPosted]

theorem lock_safe_iff_stoppedElsewhere :
    (view (endOfClient 1 5 stoppedElsewhere (newClient true [some 5] [] []))).LockSafe := by
  apply (lock_safe_iff (constructed_newClient _ _ _ _) 1 5 stoppedElsewhere).mpr
  have hlog : (endOfClient 1 5 stoppedElsewhere (newClient true [some 5] [] [])).ext.log =
      [.start true, .member .connectedToServer, .created 0 true, .member .connectionFinished,
        .finished (some 0), .otherStop (some 0), .member .connectionClosed] := by
    decide +kernel
  rw [hlog]
  intro c quiet
  simp

/-- The same, stopped on the loop thread: the lock is locked twice, and the
    client still points to the connection, which is closed. -/
theorem stop_locks_twice : ∃ w : World XClient,
    w = endOfClient 1 5 [.act .start, .event 5 XE_WRITABLE 0, .act .stop]
      (newClient true [some 5] [] []) ∧
    w.ext.log = [.start true, .member .connectedToServer, .created 0 true,
      .member .connectionFinished, .finished (some 0), .stop (some 0) true,
      .member .connectionClosed, .relock] ∧
    w.ext.posted = [] ∧ w.ext.connectionPtr_ = some 0 ∧
    (w.conns 0).connStatus_ = XF_CONN_STATUS_DISCONNECTING ∧ ¬ (view w).LockSafe := by
  refine ⟨_, rfl, ?_, ?_, ?_, ?_, fun h => absurd h.never_relocked ?_⟩
  all_goals decide +kernel

end XClient

end XFast
