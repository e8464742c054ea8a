import XFast.Framework.Trace
import XFast.Net.ClientRefinement

/-! # Whether a destroyed client is called back

    The connections and the connector hold the plain pointer to the client in
    six callbacks, and outlive it: the loop and its timers keep them.  The
    destructor replaces one callback of one connection.  So nothing may be
    left that still uses the others: no attempt, no timer, no connection that
    is open; and the destructor may not run inside a callback of the parse
    loop that goes on afterwards.

    Both are asked of the input in which the destructor runs.  From a client
    that is destroyed and has nothing left, no input starts a parse loop, an
    attempt or anything else. -/

namespace XFast

open Program XConnStatus

/-! ## Section 1: What is promised -/

def ClientEvent.isMember : ClientEvent → Bool
  | .member _ => true
  | _ => false

def ClientEvent.isResumes : ClientEvent → Bool
  | .resumes => true
  | _ => false

/-- The destructor has not run. -/
def Alive (log : List ClientEvent) : Prop := ∀ idle, .destroyed idle ∉ log

namespace ClientView

/-- No member function is called after the destructor. -/
structure NotCalledBack (log : List ClientEvent) : Prop where
  none_after : ∀ idle, Trace.NoneAfter (.destroyed idle) ClientEvent.isMember log

/-- The destructor runs when nothing is under way and every connection is
    closed, and no parse loop has gone on after it. -/
structure DestroyedIdle (log : List ClientEvent) : Prop where
  idle : .destroyed false ∉ log
  resumes : ∀ idle, Trace.NoneAfter (.destroyed idle) ClientEvent.isResumes log

instance (log : List ClientEvent) : Decidable (NotCalledBack log) :=
  decidable_of_iff (∀ idle, Trace.NoneAfter (.destroyed idle) ClientEvent.isMember log)
    ⟨fun h => ⟨h⟩, fun h => h.none_after⟩

instance (log : List ClientEvent) : Decidable (DestroyedIdle log) :=
  decidable_of_iff (.destroyed false ∉ log ∧
      ∀ idle, Trace.NoneAfter (.destroyed idle) ClientEvent.isResumes log)
    ⟨fun h => ⟨h.1, h.2⟩, fun h => ⟨h.idle, h.resumes⟩⟩

/-! ## Section 2: Nothing leads to a destroyed client -/

structure Abandoned (v : ClientView) : Prop where
  alive : v.destroyed = false → Alive v.log
  idle : v.destroyed = true → v.Quiet ∧ v.AllClosed
  notCalledBack : NotCalledBack v.log

variable {v v' : ClientView} {c : ConnId}

theorem DestroyedIdle.before {l l' : List ClientEvent} (hbefore : l <+: l')
    (h : DestroyedIdle l') : DestroyedIdle l := by
  obtain ⟨rest, rfl⟩ := hbefore
  exact ⟨fun hmem => h.idle (List.mem_append_left rest hmem), fun idle => (h.resumes idle).of_append⟩

/-- As long as the client exists, the promise is not in question. -/
theorem Abandoned.of_alive (hdestroyed : v.destroyed = false) (halive : Alive v.log) :
    v.Abandoned where
  alive := fun _ => halive
  idle := fun hd => absurd (hd.symm.trans hdestroyed) (by decide)
  notCalledBack := ⟨fun idle => Trace.noneAfter_of_not_mem (halive idle)⟩

/-- What is busy exists. -/
theorem Abandoned.exists_of_busy (h : v.Abandoned) (hbusy : v.Busy) : v.destroyed = false := by
  by_contra hd
  obtain ⟨hquiet, hclosed⟩ := h.idle (eq_true_of_ne_false hd)
  rcases hbusy with halive | hattempts | hretries | hposted | ⟨c, hc, hstatus⟩
  · exact hd halive
  · exact hattempts hquiet.1
  · exact hretries hquiet.2.1
  · exact hquiet.2.2 hposted
  · have hclosed := hclosed c hc
    rw [hstatus] at hclosed
    exact absurd hclosed (by decide)

theorem busy_of_begins (hb : Begins v v') : v.Busy := by
  cases hb with
  | start hd => exact Or.inl hd
  | timer n hn => exact Or.inr (Or.inr (Or.inl (by omega)))
  | posted rest hp => exact Or.inr (Or.inr (Or.inr (Or.inl (by simp [hp]))))

theorem busy_of_connected (h : v.Connected c) : v.Busy := Or.inr (Or.inr (Or.inr (Or.inr ⟨c, h⟩)))

theorem Abandoned.note (h : v.Abandoned) {e : ClientEvent} (he : ∀ idle, .destroyed idle ≠ e)
    (hmember : e.isMember = true → Alive v.log) : (v.note e).Abandoned where
  alive := by
    intro hd idle hmem
    rcases List.mem_append.mp hmem with hmem | hmem
    · exact h.alive hd idle hmem
    · exact he idle (List.mem_singleton.mp hmem)
  idle := h.idle
  notCalledBack := by
    refine ⟨fun idle => Trace.noneAfter_snoc.mpr ⟨h.notCalledBack.none_after idle, fun hmark => ?_⟩⟩
    by_contra hbad
    exact hmember (eq_true_of_ne_false hbad) idle hmark

/-- A parse loop that goes on has said so, and has not been told that the
    client is destroyed. -/
theorem Abandoned.alive_of_active (h : v.Abandoned) (hlog : DestroyedIdle v.log)
    (hactive : v.Active) : Alive v.log := by
  rcases hactive with hbusy | hlast
  · exact h.alive (h.exists_of_busy hbusy)
  · obtain ⟨past, hpast⟩ := List.getLast?_eq_some_iff.mp hlast
    intro idle hmem
    have hresumes := hlog.resumes idle
    rw [hpast] at hresumes hmem
    rcases List.mem_append.mp hmem with hmem | hmem
    · cases (Trace.noneAfter_snoc.mp hresumes).2 hmem
    · cases List.mem_singleton.mp hmem

/-- A functor leaves the mailbox. -/
theorem Abandoned.pop (h : v.Abandoned) {f : Posted} {rest : List Posted}
    (hp : v.posted = f :: rest) : Abandoned { v with posted := rest } where
  alive := h.alive
  idle := by
    intro hd
    obtain ⟨⟨hattempts, hretries, hposted⟩, hclosed⟩ := h.idle hd
    rw [hp] at hposted
    exact ⟨⟨hattempts, hretries, fun hmem => hposted (List.mem_cons_of_mem f hmem)⟩, hclosed⟩
  notCalledBack := h.notCalledBack

/-- The destructor, when nothing leads to the client. -/
theorem Abandoned.destroy (h : v.Abandoned)
    (hidle : decide (v.Quiet ∧ v.AllClosed) = true) (replaced : ConnId → Bool)
    {posted : List Posted} (hposted : .beforeConnect ∈ posted → .beforeConnect ∈ v.posted) :
    Abandoned { v.note (.destroyed (v.Quiet ∧ v.AllClosed)) with
      destroyed := true, replaced := replaced, posted := posted } where
  alive := nofun
  idle := by
    intro _
    obtain ⟨⟨hattempts, hretries, hnone⟩, hclosed⟩ := of_decide_eq_true hidle
    exact ⟨⟨hattempts, hretries, fun hmem => hnone (hposted hmem)⟩, hclosed⟩
  notCalledBack :=
    ⟨fun idle => Trace.noneAfter_snoc.mpr ⟨h.notCalledBack.none_after idle, fun _ => rfl⟩⟩

theorem alive_begins (h : Alive v.log) (hb : Begins v v') : Alive v'.log := by
  cases hb <;> simpa [Alive] using h

theorem alive_connects (h : Alive v.log) (hc : Connects v v') : Alive v'.log := by
  cases hc <;> simpa [Alive] using h

theorem alive_closing (h : Alive v.log) (hclosing : Closing c v v') : Alive v'.log := by
  cases hclosing <;> simpa [Alive] using h

theorem destroyed_begins (hb : Begins v v') : v'.destroyed = v.destroyed := by cases hb <;> rfl

theorem destroyed_connects (hc : Connects v v') : v'.destroyed = v.destroyed := by cases hc <;> rfl

theorem destroyed_closing (hclosing : Closing c v v') : v'.destroyed = v.destroyed := by
  cases hclosing <;> rfl

theorem abandoned_step (h : v.Abandoned) (hlog : DestroyedIdle v'.log) (hstep : ClientStep v v') :
    v'.Abandoned := by
  have hlog' := hlog.before (step_grows hstep).log
  have hlast : ∀ idle, v'.log = v.log ++ [.destroyed idle] → idle = true := by
    intro idle heq
    cases idle with
    | true => rfl
    | false => exact absurd (by rw [heq]; simp) hlog.idle
  cases hstep with
  -- the one step that could break the promise
  | member f hactive => exact h.note nofun fun _ => h.alive_of_active hlog' hactive
  | resumes => exact h.note nofun nofun
  -- what takes an attempt, a timer or an open connection finds the client
  | finished c hconn =>
    have hexists := h.exists_of_busy (busy_of_connected hconn)
    exact .of_alive hexists (by simpa [Alive] using h.alive hexists)
  | begins _ hb =>
    have hexists := h.exists_of_busy (busy_of_begins hb)
    exact .of_alive ((destroyed_begins hb).trans hexists) (alive_begins (h.alive hexists) hb)
  | connects _ _ hb hc =>
    have hexists := h.exists_of_busy (busy_of_begins hb)
    exact .of_alive ((destroyed_connects hc).trans ((destroyed_begins hb).trans hexists))
      (alive_connects (alive_begins (h.alive hexists) hb) hc)
  | retries n hn =>
    have hexists := h.exists_of_busy (Or.inr (Or.inl (by omega)))
    exact .of_alive hexists (h.alive hexists)
  | givesUp n hn =>
    have hexists := h.exists_of_busy (Or.inr (Or.inl (by omega)))
    exact .of_alive hexists (by simpa [Alive] using h.alive hexists)
  | succeeds n hn =>
    have hexists := h.exists_of_busy (Or.inr (Or.inl (by omega)))
    exact .of_alive hexists (by simpa [Alive] using h.alive hexists)
  | closes _ c hconn hclosing =>
    have hexists := h.exists_of_busy (busy_of_connected hconn)
    exact .of_alive ((destroyed_closing hclosing).trans hexists)
      (alive_closing (h.alive hexists) hclosing)
  | runsClose _ c rest hp hconn hclosing =>
    have hexists := h.exists_of_busy (busy_of_connected hconn)
    have halive : Alive { v with posted := rest }.log := h.alive hexists
    exact .of_alive ((destroyed_closing hclosing).trans hexists) (alive_closing halive hclosing)
  | dropsClose c rest hp _ => exact h.pop hp
  | setClosed c hclosed hd =>
    refine ⟨h.alive, fun hd => ?_, h.notCalledBack⟩
    obtain ⟨hquiet, hclosed⟩ := h.idle hd
    exact ⟨hquiet, fun d hc => closed_update closed_disconnected (hclosed d hc)⟩
  -- nobody calls a client that is destroyed
  | stopIdle hd _ => exact h.note nofun nofun
  | stop c hd _ => exact .of_alive hd (by simpa [Alive] using h.alive hd)
  | otherStart hd => exact .of_alive hd (by simpa [Alive] using h.alive hd)
  | otherStopIdle hd _ => exact h.note nofun nofun
  | otherStop c hd _ => exact .of_alive hd (by simpa [Alive] using h.alive hd)
  -- what the destructor replaces or posts does not matter, if nothing is open
  | destroy _ _ => exact h.destroy (hlast _ rfl) v.replaced id
  | destroyConnected c _ _ => exact h.destroy (hlast _ rfl) _ id
  | otherDestroy c _ _ => exact h.destroy (hlast _ rfl) v.replaced (by simp)
  | runsReplace c rest hp =>
    have hpop := h.pop hp
    exact ⟨hpop.alive, hpop.idle, hpop.notCalledBack⟩

/-! ## Section 3: A deserted client -/

/-- The client is destroyed, nothing is left that leads to it, and nothing has
    happened to it since `v₀`. -/
structure Deserted (v₀ v : ClientView) : Prop where
  destroyed : v.destroyed = true
  quiet : v.Quiet
  closed : v.AllClosed
  closing : ∀ c, .closeConn c ∈ v.posted → c < v.created
  created : v.created = v₀.created
  log : v.log = v₀.log

theorem Abandoned.deserted (h : v.Abandoned) (hgood : v.Good) (hd : v.destroyed = true) :
    Deserted v v :=
  ⟨hd, (h.idle hd).1, (h.idle hd).2, hgood.closing, rfl, rfl⟩

theorem Deserted.pop {v₀ : ClientView} (h : Deserted v₀ v) {f : Posted} {rest : List Posted}
    (hp : v.posted = f :: rest) : Deserted v₀ { v with posted := rest } := by
  have hmem : ∀ g ∈ rest, g ∈ v.posted := by
    intro g hg
    rw [hp]
    exact List.mem_cons_of_mem f hg
  obtain ⟨hattempts, hretries, hposted⟩ := h.quiet
  exact ⟨h.destroyed, ⟨hattempts, hretries, fun hbegin => hposted (hmem _ hbegin)⟩, h.closed,
    fun c hc => h.closing c (hmem _ hc), h.created, h.log⟩

end ClientView

namespace XClient

section deserted

variable {v₀ : ClientView} {w : World XClient} {c : ConnId} {conn : Callbacks XClient}

/-- The client is deserted, and the program knows it. -/
abbrev Deserts (v₀ : ClientView) : World XClient → Prop := Tracks (ClientView.Deserted v₀)

theorem Deserts.created (h : Deserts v₀ w) : w.ext.created = v₀.created := h.view.created

theorem Deserts.closed (h : Deserts v₀ w) (hc : c < v₀.created) :
    (w.conns c).connStatus_.Closed := by
  apply h.view.closed c
  rw [h.view.created]
  exact hc

theorem Deserts.not_connected (h : Deserts v₀ w) (hc : c < v₀.created) :
    (w.conns c).connStatus_ ≠ XF_CONN_STATUS_CONNECTED := by
  intro hstatus
  have hclosed := h.closed hc
  rw [hstatus] at hclosed
  exact absurd hclosed (by decide)

/-- Neither a close nor a send does anything to a closed connection. -/
theorem closeConn_deserted (hc : c < v₀.created) :
    Maintains always (Deserts v₀) (XConnection.closeConn conn c) := by
  intro w h
  show wp (XConnection.beginClose c >>= fun call => _) _ _ w
  rw [wp_bind, wp_beginClose_closed (h.closed hc)]
  exact h

theorem sendMsg_deserted (hc : c < v₀.created) :
    Maintains always (Deserts v₀) (XConnection.sendMsg conn c) := by
  intro w h
  show wp (get >>= fun w => _) _ _ w
  rw [wp_bind, wp_get, wp_ite, if_pos (h.not_connected hc)]
  exact h

theorem sendMsgToBuffer_deserted (hc : c < v₀.created) (msg : List UInt8) :
    Maintains always (Deserts v₀) (XConnection.sendMsgToBuffer conn c msg) :=
  XConnection.sendMsgToBuffer_of_sendMsg (tracks_survivesTraffic _ c) (sendMsg_deserted hc) msg

theorem onClient_deserted {call : LoopM XClient Unit} :
    Maintains always (Deserts v₀) (onClient call) := by
  intro w h
  show wp (get >>= fun w => _) _ _ w
  have hdestroyed : w.ext.destroyed = true := h.view.destroyed
  rw [wp_bind, wp_get, wp_ite, if_pos hdestroyed]
  exact h

theorem ofConnection_deserted {call : LoopM XClient Unit}
    (hcall : c < v₀.created → Maintains always (Deserts v₀) call) :
    Maintains always (Deserts v₀) (ofConnection c call) := by
  intro w h
  show wp (get >>= fun w => _) _ _ w
  rw [wp_bind, wp_get, wp_ite]
  split
  · rename_i hc
    exact hcall (h.created ▸ hc) w h
  · exact h

theorem onConnection_deserted {call : LoopM XClient Unit}
    (hcall : c < v₀.created → Maintains always (Deserts v₀) call) :
    Maintains always (Deserts v₀) (onConnection c call) :=
  ofConnection_deserted fun hc => (hcall hc).catching (fun _ _ => trivial) (Maintains.pure ())

theorem clientAct_deserted (cbs : ClientCallbacks) (a : ClientAct) :
    Maintains always (Deserts v₀) (clientAct cbs a) := by
  cases a with
  | sendMsg c msg =>
    exact onConnection_deserted fun hc =>
      XConnection.sendMsgString_maintains (sendMsgToBuffer_deserted hc) msg
  | closeConnection c =>
    exact onConnection_deserted fun hc =>
      XConnection.closeConnection_maintains (closeConn_deserted hc)
  | _ => exact onClient_deserted

/-- No connection and no attempt is registered, so no parse loop begins. -/
theorem handleEvent_deserted (cbs : ClientCallbacks) (fuel : Nat) (fd : Fd) (emask : Mask)
    (rc : Int) : Maintains always (Deserts v₀) (handleEvent cbs fuel fd emask rc) := by
  intro w h
  show wp (get >>= fun w => _) _ _ w
  rw [wp_bind, wp_get]
  split
  · rename_i c hcallback
    obtain ⟨hc, _, hstatus⟩ := h.wired.connection fd c hcallback
    exact absurd hstatus (h.not_connected (h.created ▸ hc))
  · rename_i hcallback
    have hattempts : w.ext.attempts = [] := List.eq_nil_of_length_eq_zero h.view.quiet.1
    have hmem := h.wired.attempt fd hcallback
    rw [hattempts] at hmem
    exact absurd hmem List.not_mem_nil
  · exact h

theorem runPosted_deserted (cbs : ClientCallbacks) :
    Maintains always (Deserts v₀) (runPosted cbs) := by
  intro w h
  show wp (get >>= fun w => _) _ _ w
  rw [wp_bind, wp_get]
  cases hposted : w.ext.posted with
  | nil => exact h
  | cons f rest =>
    have hmem : f ∈ (view w).posted := by
      show f ∈ w.ext.posted
      rw [hposted]
      exact List.mem_cons_self
    have hpop : Deserts v₀ { w with ext := { w.ext with posted := rest } } :=
      ⟨h.wired.setExt rfl rfl, h.unlocked, h.view.pop hposted⟩
    cases f with
    | beforeConnect => exact absurd hmem h.view.quiet.2.2
    | closeConn c =>
      have hc : c < v₀.created := by
        rw [← h.view.created]
        exact h.view.closing c hmem
      exact closeConn_deserted hc _ hpop
    | setConnectionClosedCallBack c =>
      have hview := hpop.view
      exact ⟨hpop.wired.setExt rfl rfl, hpop.unlocked, hview.destroyed, hview.quiet, hview.closed,
        hview.closing, hview.created, hview.log⟩

theorem timerExpires_deserted (cbs : ClientCallbacks) :
    Maintains always (Deserts v₀) (timerExpires cbs) := by
  intro w h
  have hretries : w.ext.retries = 0 := h.view.quiet.2.1
  show wp (get >>= fun w => _) _ _ w
  rw [wp_bind, wp_get, hretries]
  exact h

/-- Nothing happens to a deserted client. -/
theorem clientInput_deserted (cbs : ClientCallbacks) (fuel : Nat) (i : ClientInput) :
    Maintains always (Deserts v₀) (clientInput cbs fuel i) := by
  cases i with
  | act a => exact clientAct_deserted cbs a
  | event fd emask rc => exact handleEvent_deserted cbs fuel fd emask rc
  | runPosted => exact runPosted_deserted cbs
  | onReConnect => exact timerExpires_deserted cbs
  | closeConn c => exact ofConnection_deserted fun hc => closeConn_deserted hc
  | sendMsgToBuffer c msg =>
    exact ofConnection_deserted fun hc => sendMsgToBuffer_deserted hc msg

end deserted

/-! ## Section 4: Every run -/

/-- In the input in which the destructor runs, it is called when nothing is
    under way and every connection is closed, and no parse loop goes on after
    it. -/
def DestroyedIdle (depth fuel : Nat) (inputs : List ClientInput) (w₀ : World XClient) : Prop :=
  ∀ n < inputs.length, (endOfClient depth fuel (inputs.take n) w₀).ext.destroyed = false →
    ClientView.DestroyedIdle (endOfClient depth fuel (inputs.take (n + 1)) w₀).ext.log

instance (depth fuel : Nat) (inputs : List ClientInput) (w₀ : World XClient) :
    Decidable (DestroyedIdle depth fuel inputs w₀) :=
  inferInstanceAs (Decidable (∀ n < inputs.length, _ → _))

/-- What is kept up to the end of an input: no member function has been called
    after the destructor, and once it has run the client is deserted. -/
structure NotRecalled (w : World XClient) : Prop where
  notCalledBack : ClientView.NotCalledBack w.ext.log
  deserted : w.ext.destroyed = true → ClientView.Deserted (view w) (view w)

/-- The input in which the destructor runs, and those before it. -/
theorem Constructed.notRecalled_of_idle {w₀ : World XClient} (hinit : Constructed w₀)
    (depth fuel : Nat) (inputs : List ClientInput)
    (hidle : ClientView.DestroyedIdle (endOfClient depth fuel inputs w₀).ext.log) :
    NotRecalled (endOfClient depth fuel inputs w₀) := by
  have hlog : (view w₀).log = [] := hinit.log
  have hstart : (view w₀).Abandoned := by
    apply ClientView.Abandoned.of_alive hinit.client.2.2
    rw [hlog]
    exact fun _ hmem => absurd hmem List.not_mem_nil
  have hrun := hinit.clientRun depth fuel inputs
  have hend := ClientView.run_invariant_while (I := ClientView.Abandoned)
    (C := ClientView.DestroyedIdle) (fun l l' hbefore h => h.before hbefore)
    (fun v v' _ hlog h hstep => ClientView.abandoned_step h hlog hstep)
    hinit.good hstart hrun hidle
  exact ⟨hend.notCalledBack, hend.deserted (ClientView.good_run hinit.good hrun)⟩

/-- An input to a client that is destroyed already. -/
theorem Constructed.notRecalled_snoc {w₀ : World XClient} (hinit : Constructed w₀)
    (depth fuel : Nat) (past : List ClientInput) (i : ClientInput)
    (h : NotRecalled (endOfClient depth fuel past w₀))
    (hd : (endOfClient depth fuel past w₀).ext.destroyed = true) :
    NotRecalled (endOfClient depth fuel (past ++ [i]) w₀) := by
  have hpast := endOfClient_follows hinit.good ⟨hinit.wired, hinit.client.2.1, .refl⟩ depth fuel past
  have hdeserts : Deserts (view (endOfClient depth fuel past w₀))
      (endOfClient depth fuel past w₀) := ⟨hpast.wired, hpast.unlocked, h.deserted hd⟩
  have hend : Deserts (view (endOfClient depth fuel past w₀))
      (endOfClient depth fuel (past ++ [i]) w₀) :=
    Maintains.finalState_snoc (clientInput_deserted (clientCallbacks depth) fuel i) hdeserts
  have hlog : (endOfClient depth fuel (past ++ [i]) w₀).ext.log =
      (endOfClient depth fuel past w₀).ext.log := hend.view.log
  refine ⟨?_, fun _ => ?_⟩
  · rw [hlog]
    exact h.notCalledBack
  · exact ⟨hend.view.destroyed, hend.view.quiet, hend.view.closed, hend.view.closing, rfl, rfl⟩

/-- **A client that is idle when it is destroyed is not called back.**  In
    every run in which the destructor runs when nothing is under way and every
    connection is closed, and not inside a parse loop that goes on, no member
    function is called after it. -/
theorem destroyed_not_called_back {w₀ : World XClient} (hinit : Constructed w₀)
    (depth fuel : Nat) (inputs : List ClientInput) (hidle : DestroyedIdle depth fuel inputs w₀) :
    ClientView.NotCalledBack (endOfClient depth fuel inputs w₀).ext.log := by
  -- induction on the number of inputs
  have hprefix : ∀ n ≤ inputs.length, NotRecalled (endOfClient depth fuel (inputs.take n) w₀) := by
    intro n
    induction n with
    | zero =>
      intro _
      have hlog : (endOfClient depth fuel (inputs.take 0) w₀).ext.log = [] := hinit.log
      apply hinit.notRecalled_of_idle
      rw [hlog]
      exact ⟨List.not_mem_nil, fun _ => Trace.noneAfter_of_not_mem List.not_mem_nil⟩
    | succ n ih =>
      intro hn
      cases hd : (endOfClient depth fuel (inputs.take n) w₀).ext.destroyed with
      | false => exact hinit.notRecalled_of_idle depth fuel _ (hidle n hn hd)
      | true =>
        rw [List.take_succ_eq_append_getElem hn]
        exact hinit.notRecalled_snoc depth fuel _ _ (ih (Nat.le_of_succ_le hn)) hd
  have hall := hprefix inputs.length (Nat.le_refl _)
  rw [List.take_length] at hall
  exact hall.notCalledBack

/-- A client connects, its peer hangs up, and it is destroyed; the loop goes
    on. -/
def hangupThenDestroyed : List ClientInput :=
  [.act .start, .event 5 XE_WRITABLE 0, .event 5 XE_HUP 0, .act .destroy, .event 5 XE_READABLE 0,
    .closeConn 0, .onReConnect, .runPosted]

theorem destroyed_not_called_back_hangup :
    .destroyed true ∈ (endOfClient 1 5 hangupThenDestroyed (newClient true [some 5] [] [])).ext.log ∧
    ClientView.NotCalledBack
      (endOfClient 1 5 hangupThenDestroyed (newClient true [some 5] [] [])).ext.log := by
  refine ⟨by decide +kernel, ?_⟩
  exact destroyed_not_called_back (constructed_newClient true [some 5] [] []) 1 5 _
    (by decide +kernel)

/-- The attempt succeeds, the timer expires, or the connection has data, after
    the client is destroyed. -/
def destroyedEarly : List (List ClientInput × World XClient) :=
  [([.act .start, .act .destroy, .event 5 XE_WRITABLE 0], newClient true [some 5] [] []),
    ([.act .start, .event 5 XE_HUP 0, .act .destroy, .onReConnect],
      newClient true [some 5, none] [] []),
    ([.act .start, .event 5 XE_WRITABLE 0, .act .destroy, .event 5 XE_READABLE 0],
      newClient true [some 5] [[.bytes [1], .fail .EAGAIN]] [])]

/-- In each of the three phases the destructor leaves something behind; in the
    last run it is `defaultMsgDecode` and `messageComing` that are called. -/
theorem destroyedEarly_called_back :
    (∀ run ∈ destroyedEarly, ¬ ClientView.NotCalledBack (endOfClient 1 5 run.1 run.2).ext.log) ∧
    (endOfClient 1 5 [.act .start, .event 5 XE_WRITABLE 0, .act .destroy, .event 5 XE_READABLE 0]
      (newClient true [some 5] [[.bytes [1], .fail .EAGAIN]] [])).ext.log =
        [.start true, .member .connectedToServer, .created 0 true, .member .connectionFinished,
          .finished (some 0), .destroyed false, .member .defaultMsgDecode, .resumes,
          .member .messageComing] := by
  constructor
  · intro run hrun
    simp only [destroyedEarly, List.mem_cons, List.not_mem_nil, or_false] at hrun
    rcases hrun with rfl | rfl | rfl
    all_goals decide +kernel
  · decide +kernel

end XClient

end XFast
