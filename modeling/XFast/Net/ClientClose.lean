import XFast.Net.ClientRefinement

/-! # Whether the user learns that a connection is closed

    `connectionClosed` does not call the user.  It replaces the connection's
    close callback by one that does, and expects the connection to call that;
    but `closeConn` has called its close callback already, with the status of a
    closed connection, so it will not call it again.  As long as the client
    exists, every connection that closes goes this way. -/

namespace XFast

open Program XConnStatus

/-! ## Section 1: The invariant -/

namespace ClientView

/-- No close has been reported, and no connection has been marked closed. -/
structure Unreported (v : ClientView) : Prop where
  user : ∀ c, .userClosed c ∉ v.log
  status : ∀ c < v.created, v.status c ≠ XF_CONN_STATUS_DISCONNECTED

variable {v v' : ClientView} {c : ConnId}

theorem Unreported.setStatus (h : v.Unreported) (c : ConnId) {s : XConnStatus}
    (hs : s ≠ XF_CONN_STATUS_DISCONNECTED) : (v.setStatus c s).Unreported where
  user := h.user
  status := by
    intro d hd
    show Function.update v.status c s d ≠ _
    by_cases hdc : d = c
    · rw [hdc, Function.update_self]
      exact hs
    · rw [Function.update_of_ne hdc]
      exact h.status d hd

theorem Unreported.note (h : v.Unreported) {e : ClientEvent} (he : ∀ c, .userClosed c ≠ e) :
    (v.note e).Unreported where
  user := by
    intro c hc
    rcases List.mem_append.mp hc with hc | hc
    · exact h.user c hc
    · exact he c (List.mem_singleton.mp hc)
  status := h.status

/-- While the client exists, it is its own close callback that is called. -/
theorem unreported_closing (h : v.Unreported) (hgood : v.Good) (halive : v.destroyed = false)
    (hconn : v.Connected c) (hclosing : Closing c v v') : v'.Unreported := by
  have hnot : v.replaced c ≠ true := by
    intro hr
    have hclosed := hgood.replaced halive c hconn.1 hr
    rw [hconn.2] at hclosed
    exact absurd hclosed (by decide)
  cases hclosing with
  | client _ =>
    have hstatus : (v.setStatus c XF_CONN_STATUS_DISCONNECTING).Unreported :=
      h.setStatus c (by decide)
    have hnote : ∀ d, ClientEvent.userClosed d ≠ .member .connectionClosed := nofun
    exact ⟨(hstatus.note hnote).user, (hstatus.note hnote).status⟩
  | user hr _ => exact absurd hr hnot
  | nobody hr _ => exact absurd hr hnot

theorem unreported_step (hgood : v.Good) (halive : v.destroyed = false) (h : v.Unreported)
    (hstep : ClientStep v v') : v'.Unreported := by
  cases hstep with
  | begins _ hb => cases hb <;> exact ⟨fun c hc => h.user c (by simpa using hc), h.status⟩
  | connects _ _ hb hc =>
    cases hb <;> cases hc <;> exact ⟨fun c hc => h.user c (by simpa using hc), h.status⟩
  | succeeds n hn =>
    refine ⟨fun c hc => h.user c (by simpa using hc), ?_⟩
    intro d hd
    show Function.update v.status v.created XF_CONN_STATUS_CONNECTED d ≠ _
    have hd : d < v.created + 1 := hd
    by_cases hdc : d = v.created
    · rw [hdc, Function.update_self]
      decide
    · rw [Function.update_of_ne hdc]
      exact h.status d (by omega)
  | closes _ c hconn hclosing => exact unreported_closing h hgood halive hconn hclosing
  | runsClose _ c rest hp hconn hclosing =>
    have hpop : Unreported { v with posted := rest } := ⟨h.user, h.status⟩
    exact unreported_closing hpop (hgood.pop hp) halive hconn hclosing
  -- the user is called, and the connection marked, after the destructor only
  | setClosed c hclosed hd => exact absurd (hd.symm.trans halive) (by decide)
  -- the close of `stop` ends where the lock is taken again
  | stop c hd hc =>
    have hstop : (v.note (.stop (some c) v.Quiet)).Unreported := h.note nofun
    have hstatus := hstop.setStatus c (s := XF_CONN_STATUS_DISCONNECTING) (by decide)
    have hnote := hstatus.note (e := .member .connectionClosed) nofun
    exact hnote.note (e := .relock) nofun
  | _ => exact ⟨fun c hc => h.user c (by simpa using hc), h.status⟩

end ClientView

namespace XClient

/-! ## Section 2: Every run -/

/-- The user has been told once that the connection is closed, the client has
    let go of it, and it is marked closed. -/
structure ReportedOnce (c : ConnId) (w : World XClient) : Prop where
  once : w.ext.log.count (.userClosed c) = 1
  pointer : w.ext.connectionPtr_ = none
  status : (w.conns c).connStatus_ = XF_CONN_STATUS_DISCONNECTED

theorem endOfClient_unreported {w₀ : World XClient} (hinit : Constructed w₀) (depth fuel : Nat)
    (inputs : List ClientInput)
    (hexists : (endOfClient depth fuel inputs w₀).ext.destroyed = false) :
    (view (endOfClient depth fuel inputs w₀)).Unreported := by
  have hlog : (view w₀).log = [] := hinit.log
  have hcreated : (view w₀).created = 0 := hinit.created
  have hstart : (view w₀).Unreported := by
    constructor
    · rw [hlog]
      exact fun c => List.not_mem_nil
    · rw [hcreated]
      exact fun c hc => absurd hc (Nat.not_lt_zero c)
  exact ClientView.run_invariant_alive
    (fun v v' hgood halive h hstep => ClientView.unreported_step hgood halive h hstep)
    hinit.good hstart (hinit.clientRun depth fuel inputs) hexists

/-- **No close is reported.**  In no run is the user told that a connection is
    closed, as long as the client exists. -/
theorem close_never_reported {w₀ : World XClient} (hinit : Constructed w₀) (depth fuel : Nat)
    (inputs : List ClientInput)
    (hexists : (endOfClient depth fuel inputs w₀).ext.destroyed = false) (c : ConnId) :
    ¬ ReportedOnce c (endOfClient depth fuel inputs w₀) := by
  intro hreported
  have hmem : .userClosed c ∈ (endOfClient depth fuel inputs w₀).ext.log := by
    rw [← List.count_pos_iff, hreported.once]
    exact Nat.one_pos
  exact (endOfClient_unreported hinit depth fuel inputs hexists).user c hmem

/-- A client connects, and its peer hangs up. -/
def hangup : List ClientInput := [.act .start, .event 5 XE_WRITABLE 0, .event 5 XE_HUP 0]

theorem close_never_reported_hangup :
    ¬ ReportedOnce 0 (endOfClient 1 5 hangup (newClient true [some 5] [] [])) :=
  close_never_reported (constructed_newClient _ _ _ _) 1 5 hangup (by decide +kernel) 0

/-- The closed callback is set, the client exists, the connection was
    established and has been torn down, and no functor is left. -/
theorem hangup_unreported : ∃ w : World XClient,
    w = endOfClient 1 5 hangup (newClient true [some 5] [] []) ∧
    w.ext.connCloseCb_ = true ∧ w.ext.destroyed = false ∧ w.ext.posted = [] ∧
    w.ext.created = 1 ∧ (w.conns 0).connStatus_ = XF_CONN_STATUS_DISCONNECTING ∧
    w.ext.connectionPtr_ = none ∧ w.ext.log.count (.userClosed 0) = 0 ∧ ¬ ReportedOnce 0 w := by
  refine ⟨_, rfl, ?_, ?_, ?_, ?_, ?_, ?_, ?_, fun h => absurd h.once ?_⟩
  all_goals decide +kernel

end XClient

end XFast
