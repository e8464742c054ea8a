import XFast.Base.InterestList
import XFast.Net.ConnectionRules

/-! # The connection table of the server

    Model of `xserver.cpp` in the loop thread, over whole connections: the
    table `connections_`, the registry of the loop and the statuses of the
    connections are changed by different objects, in calls that are nested in
    each other.  An accept makes the connection connected and its finished
    callback runs inside it; a close takes the entry out of the table and the
    user's closed callback runs inside it; and each of these callbacks may
    close connections, this one or another.

    The kernel hands out descriptors that are not open: the descriptor of a
    connection is open until the connection object is destroyed, and no object
    is destroyed while it is connected, since the table and the loop point to
    it.  The callbacks of the user do not throw, so what their own calls throw
    is caught inside them. -/

namespace XFast

open Program XConnStatus

/-! ## Section 1: The server -/

/-- A call of the user's closed callback: the connection, and its status and
    the table at that moment. -/
structure ClosedCall where
  conn : ConnId
  status : XConnStatus
  table : Fd → Option ConnId

/-- What the user's callbacks do, to any connection they know. -/
inductive ServerAct where
  | sendMsg (d : ConnId) (msg : List UInt8)
  | closeConnection (d : ConnId)
  /-- Another object uses the loop. -/
  | others (op : RegistryOp Handler)

/-- One invocation of a user callback; `ret` is what a decoder returns. -/
structure ServerScript where
  acts : List ServerAct
  ret : Int

/-- The server.  Of the user's callbacks it is recorded whether they are set.
    `accepted` counts the connection objects, `live` are those that have not
    been destroyed; `erased` has what each `connections_.erase` returned. -/
structure ServerTable where
  connections_ : Fd → Option ConnId
  msgDecodeCb_ : Bool
  sentBytesCb_ : Bool
  connCloseCb_ : Bool
  connFinishedCb_ : Bool
  accepted : Nat
  live : ConnId → Bool
  scripts : List ServerScript
  erased : List Nat
  closedCalls : List ClosedCall

/-- Other objects register handlers of their own. -/
def Handler.ofConnection : Handler → Bool
  | .connHandleEvent _ => true
  | .wakeUpCallBack | .listenerHandleEvent | .connectorOnEventHandle => false

namespace ServerTable

def Exists (t : ServerTable) (d : ConnId) : Prop := d < t.accepted ∧ t.live d = true

instance (t : ServerTable) (d : ConnId) : Decidable (t.Exists d) :=
  inferInstanceAs (Decidable (_ ∧ _))

/-- The descriptor is that of a connection object. -/
def Open (w : World ServerTable) (fd : Fd) : Prop :=
  ∃ d < w.ext.accepted, w.ext.live d = true ∧ (w.conns d).sock_ = fd

instance (w : World ServerTable) (fd : Fd) : Decidable (Open w fd) :=
  inferInstanceAs (Decidable (∃ d < w.ext.accepted, _))

/-! ## Section 2: Its callbacks -/

/-- `connections_.erase(fd)`. -/
def erase (fd : Fd) : LoopM ServerTable Nat := do
  let w ← get
  let n := if (w.ext.connections_ fd).isSome then 1 else 0
  modify fun w => { w with ext := { w.ext with
    connections_ := Function.update w.ext.connections_ fd none
    erased := w.ext.erased ++ [n] } }
  return n

/-- `connCloseCb_(connPtr)`, if it is set. -/
def callClosed (connCloseCb : LoopM ServerTable Unit) (c : ConnId) :
    LoopM ServerTable Unit := do
  let w ← get
  if w.ext.connCloseCb_ then do
    modify fun w => { w with ext := { w.ext with
      closedCalls := w.ext.closedCalls ++ [⟨c, (w.conns c).connStatus_, w.ext.connections_⟩] } }
    catching isException connCloseCb (pure ())
  else
    return ()

def doCloseConnection (connCloseCb : LoopM ServerTable Unit) (c : ConnId) :
    LoopM ServerTable Unit := do
  let w ← get
  let n ← erase (w.conns c).sock_
  lift (cAssert (n = 1))
  callClosed connCloseCb c
  XConnection.setClosed c

def nextScript : LoopM ServerTable ServerScript :=
  nextAnswer (·.ext.scripts) (fun rest w => { w with ext := { w.ext with scripts := rest } })
    .infeasible

/-- Another object uses the loop, for a descriptor of its own. -/
def others (op : RegistryOp Handler) : LoopM ServerTable Unit := do
  let w ← get
  if Open w op.fd ∨ op.callback?.any Handler.ofConnection then return ()
  else XConnection.onLoop (·.apply op)

/-- A call on a connection that the user has a pointer to. -/
def onConnection (d : ConnId) (call : LoopM ServerTable Unit) : LoopM ServerTable Unit := do
  let w ← get
  if w.ext.Exists d then catching isException call (pure ()) else return ()

def userAct (cbs : Callbacks ServerTable) : ServerAct → LoopM ServerTable Unit
  | .sendMsg d msg => onConnection d (XConnection.sendMsgString cbs d msg)
  | .closeConnection d => onConnection d (XConnection.closeConnection cbs d)
  | .others op => others op

def userCallback (cbs : Callbacks ServerTable) : LoopM ServerTable Int := do
  let s ← nextScript
  sequence (userAct cbs) s.acts
  return s.ret

/-- The same for a callback without a result. -/
def userCallbackUnit (cbs : Callbacks ServerTable) : LoopM ServerTable Unit := do
  let _ ← userCallback cbs

/-- What the server binds to the callbacks of its connections.  In the loop
    thread `connectionClosed` is `doCloseConnection`; `messageComing` touches
    nothing here. -/
def serverCallback (cbs : Callbacks ServerTable) :
    XConnection.Invocation → ConnId → LoopM ServerTable Int
  | .decodeCb _ buffLen, _ => do
      let w ← get
      if w.ext.msgDecodeCb_ then userCallback cbs else return buffLen
  | .msgCommitCb _, _ => return 0
  | .sentBytesCb _, _ => do
      let w ← get
      if w.ext.sentBytesCb_ then userCallback cbs else return 0
  | .connCloseCb, c => do
      doCloseConnection (userCallbackUnit cbs) c
      return 0
  | .connFinishCb, _ => do
      let w ← get
      if w.ext.connFinishedCb_ then userCallback cbs else return 0

/-! ## Section 3: Its loop -/

def acceptNewConnection (cbs : Callbacks ServerTable) (fd : Fd) : LoopM ServerTable Unit := do
  let w ← get
  let c := w.ext.accepted
  modify fun w => { w.setConn c (XConnection.fresh fd true true true) with
    ext := { w.ext with
      accepted := c + 1
      live := Function.update w.ext.live c true
      connections_ := Function.update w.ext.connections_ fd (some c) } }
  XConnection.makeConnected cbs c

inductive TableStep where
  /-- `accept` returns `fd`. -/
  | handleAccept (fd : Fd)
  /-- The poller reports an event. -/
  | event (fd : Fd) (emask : Mask)
  /-- A `closeConn` posted by another thread or by a timer is run. -/
  | closeConn (d : ConnId)
  /-- A `sendMsgToBuffer` posted by another thread is run. -/
  | sendMsgToBuffer (d : ConnId) (msg : List UInt8)
  /-- A posted `doSendResponse` is run. -/
  | doSendResponse (uid : Int) (buffer : List UInt8)
  /-- Other code in the loop thread calls. -/
  | act (a : ServerAct)
  /-- The last pointer to a connection goes, and its descriptor is closed. -/
  | destroy (d : ConnId)

def handleAccept (cbs : Callbacks ServerTable) (fd : Fd) : LoopM ServerTable Unit := do
  let w ← get
  if Open w fd then return () else acceptNewConnection cbs fd

def handleEvent (cbs : Callbacks ServerTable) (fuel : Nat) (fd : Fd) (emask : Mask) :
    LoopM ServerTable Unit := do
  let w ← get
  match w.loop.callbackOf fd with
  | some (.connHandleEvent c) => XConnection.HandleEvent cbs fuel c emask
  | _ => return ()

def doSendResponse (cbs : Callbacks ServerTable) (uid : Int) (buffer : List UInt8) :
    LoopM ServerTable Unit := do
  let w ← get
  match w.ext.connections_ uid with
  | none => return ()
  | some c => XConnection.sendMsgString cbs c buffer

/-- A posted functor holds a pointer to its connection. -/
def posted (d : ConnId) (call : LoopM ServerTable Unit) : LoopM ServerTable Unit := do
  let w ← get
  if w.ext.Exists d then call else return ()

def destroy (d : ConnId) : LoopM ServerTable Unit := do
  let w ← get
  if (w.conns d).connStatus_ = XF_CONN_STATUS_CONNECTED then
    return ()
  else
    modify fun w => { w with ext := { w.ext with live := Function.update w.ext.live d false } }

def tableStep (cbs : Callbacks ServerTable) (fuel : Nat) : TableStep → LoopM ServerTable Unit
  | .handleAccept fd => handleAccept cbs fd
  | .event fd emask => handleEvent cbs fuel fd emask
  | .closeConn d => posted d (XConnection.closeConn cbs d)
  | .sendMsgToBuffer d msg => posted d (XConnection.sendMsgToBuffer cbs d msg)
  | .doSendResponse uid buffer => doSendResponse cbs uid buffer
  | .act a => userAct cbs a
  | .destroy d => destroy d

/-- A run of the loop. -/
def runServer (depth fuel : Nat) (steps : List TableStep) : LoopM ServerTable Unit :=
  sequence (tableStep (XConnection.nestedCallbacks serverCallback depth) fuel) steps

/-- The server has been started on a loop of this program, and no connection
    has been accepted. -/
structure Started (w : World ServerTable) : Prop where
  empty : ∀ fd, w.ext.connections_ fd = none
  accepted : w.ext.accepted = 0
  logs : w.ext.erased = [] ∧ w.ext.closedCalls = []
  not_registered : ∀ fd c, w.loop.callbackOf fd ≠ some (.connHandleEvent c)
  loop : ∃ wakeupFd ops,
    (XLoop.create wakeupFd .wakeUpCallBack >>= (·.applyAll ops)) = .ok w.loop

/-- The table has exactly the connected connections. -/
structure Sound (w : World ServerTable) : Prop where
  table : ∀ fd c, w.ext.connections_ fd = some c ↔ c < w.ext.accepted ∧
    (w.conns c).connStatus_ = XF_CONN_STATUS_CONNECTED ∧ (w.conns c).sock_ = fd
  distinct : ∀ c < w.ext.accepted, ∀ d < w.ext.accepted,
    (w.conns c).connStatus_ = XF_CONN_STATUS_CONNECTED →
    (w.conns d).connStatus_ = XF_CONN_STATUS_CONNECTED →
    (w.conns c).sock_ = (w.conns d).sock_ → c = d
  registered : ∀ c < w.ext.accepted, (w.conns c).connStatus_ = XF_CONN_STATUS_CONNECTED →
    w.loop.callbackOf (w.conns c).sock_ = some (.connHandleEvent c)
  erased : ∀ n ∈ w.ext.erased, n = 1
  once : ∀ c, w.ext.closedCalls.countP (·.conn = c) =
    if c < w.ext.accepted ∧ (w.conns c).connStatus_ ≠ XF_CONN_STATUS_CONNECTED ∧
      w.ext.connCloseCb_ then 1 else 0
  between : ∀ k ∈ w.ext.closedCalls,
    k.status = XF_CONN_STATUS_DISCONNECTING ∧ ∀ fd, k.table fd ≠ some k.conn

/-! ## Section 4: The invariant -/

/-- Besides what is to be shown: only connections in the table have their
    handler registered, and they have the server's callback. -/
structure TableInv (w : World ServerTable) : Prop where
  synced : w.loop.Synced
  table : ∀ fd c, w.ext.connections_ fd = some c ↔ c < w.ext.accepted ∧
    (w.conns c).connStatus_ = XF_CONN_STATUS_CONNECTED ∧ (w.conns c).sock_ = fd
  registered : ∀ fd c, w.loop.callbackOf fd = some (.connHandleEvent c) ↔
    w.ext.connections_ fd = some c
  alive : ∀ c < w.ext.accepted, (w.conns c).connStatus_ = XF_CONN_STATUS_CONNECTED →
    w.ext.live c = true
  status : ∀ c < w.ext.accepted, (w.conns c).connStatus_ = XF_CONN_STATUS_CONNECTED ∨
    (w.conns c).connStatus_ = XF_CONN_STATUS_DISCONNECTED ∨
    (w.conns c).connStatus_ = XF_CONN_STATUS_DISCONNECTING
  callback : ∀ c < w.ext.accepted, (w.conns c).connCloseCb_ = true
  erased : ∀ n ∈ w.ext.erased, n = 1
  once : ∀ c, w.ext.closedCalls.countP (·.conn = c) =
    if c < w.ext.accepted ∧ (w.conns c).connStatus_ ≠ XF_CONN_STATUS_CONNECTED ∧
      w.ext.connCloseCb_ then 1 else 0
  between : ∀ k ∈ w.ext.closedCalls,
    k.status = XF_CONN_STATUS_DISCONNECTING ∧ ∀ fd, k.table fd ≠ some k.conn

theorem TableInv.sound {w : World ServerTable} (h : TableInv w) : Sound w where
  table := h.table
  distinct := by
    intro c hc d hd hcc hdc hsock
    have hentry := (h.table (w.conns d).sock_ c).mpr ⟨hc, hcc, hsock⟩
    rw [(h.table (w.conns d).sock_ d).mpr ⟨hd, hdc, rfl⟩] at hentry
    exact (Option.some.inj hentry).symm
  registered := by
    intro c hc hcc
    rw [h.registered, h.table]
    exact ⟨hc, hcc, rfl⟩
  erased := h.erased
  once := h.once
  between := h.between

/-- The invariant holds, and since `w₀` no connection has gone, and none that
    was closed is connected. -/
structure Since (w₀ w : World ServerTable) : Prop where
  inv : TableInv w
  accepted : w₀.ext.accepted ≤ w.ext.accepted
  closed : ∀ c < w₀.ext.accepted, (w₀.conns c).connStatus_ ≠ XF_CONN_STATUS_CONNECTED →
    (w.conns c).connStatus_ ≠ XF_CONN_STATUS_CONNECTED

variable {w₀ w₁ w w' : World ServerTable}

theorem Since.refl (h : TableInv w) : Since w w := ⟨h, Nat.le_refl _, fun _ _ h => h⟩

theorem Since.trans (h : Since w₀ w₁) (h' : Since w₁ w) : Since w₀ w :=
  ⟨h'.inv, Nat.le_trans h.accepted h'.accepted,
    fun c hc hclosed => h'.closed c (Nat.lt_of_lt_of_le hc h.accepted) (h.closed c hc hclosed)⟩

/-- Changes to what the invariant does not look at. -/
theorem TableInv.congr (h : TableInv w)
    (hstatus : ∀ d, (w'.conns d).connStatus_ = (w.conns d).connStatus_)
    (hsock : ∀ d, (w'.conns d).sock_ = (w.conns d).sock_)
    (hcallback : ∀ d, (w'.conns d).connCloseCb_ = (w.conns d).connCloseCb_)
    (hsynced : w'.loop.Synced)
    (hloop : ∀ fd c, w'.loop.callbackOf fd = some (.connHandleEvent c) ↔
      w.loop.callbackOf fd = some (.connHandleEvent c))
    (hext : w'.ext = { w.ext with scripts := w'.ext.scripts }) : TableInv w' where
  synced := hsynced
  table := by
    intro fd c
    rw [hext, hstatus, hsock]
    exact h.table fd c
  registered := by
    intro fd c
    rw [hloop, hext]
    exact h.registered fd c
  alive := by
    intro c
    rw [hext, hstatus]
    exact h.alive c
  status := by
    intro c
    rw [hext, hstatus]
    exact h.status c
  callback := by
    intro c
    rw [hext, hcallback]
    exact h.callback c
  erased := by
    rw [hext]
    exact h.erased
  once := by
    intro c
    rw [hext, hstatus]
    exact h.once c
  between := by
    rw [hext]
    exact h.between

theorem Since.congr (h : Since w₀ w)
    (hstatus : ∀ d, (w'.conns d).connStatus_ = (w.conns d).connStatus_)
    (hsock : ∀ d, (w'.conns d).sock_ = (w.conns d).sock_)
    (hcallback : ∀ d, (w'.conns d).connCloseCb_ = (w.conns d).connCloseCb_)
    (hsynced : w'.loop.Synced)
    (hloop : ∀ fd c, w'.loop.callbackOf fd = some (.connHandleEvent c) ↔
      w.loop.callbackOf fd = some (.connHandleEvent c))
    (hext : w'.ext = { w.ext with scripts := w'.ext.scripts }) : Since w₀ w' where
  inv := h.inv.congr hstatus hsock hcallback hsynced hloop hext
  accepted := by
    rw [hext]
    exact h.accepted
  closed := by
    intro c hc hclosed
    rw [hstatus]
    exact h.closed c hc hclosed

/-- The same world but for the connections, each of which is as it was where
    the invariant looks. -/
theorem Since.setConn (h : Since w₀ w) (c : ConnId) (x : XConnection)
    (hstatus : x.connStatus_ = (w.conns c).connStatus_) (hsock : x.sock_ = (w.conns c).sock_)
    (hcallback : x.connCloseCb_ = (w.conns c).connCloseCb_) : Since w₀ (w.setConn c x) := by
  have hsame : ∀ {α : Type} (f : XConnection → α), f x = f (w.conns c) →
      ∀ d, f ((w.setConn c x).conns d) = f (w.conns d) := by
    intro α f hf d
    by_cases hd : d = c
    · rw [hd, World.setConn_self, hf]
    · rw [World.setConn_ne w x hd]
  exact h.congr (hsame _ hstatus) (hsame _ hsock) (hsame _ hcallback) h.inv.synced
    (fun _ _ => Iff.rfl) rfl

theorem since_ignoresInput (c : ConnId) : XConnection.IgnoresInput (Since w₀) c where
  script := fun _ _ h =>
    h.congr (fun _ => rfl) (fun _ => rfl) (fun _ => rfl) h.inv.synced (fun _ _ => Iff.rfl) rfl
  reads := fun _ _ h =>
    h.congr (fun _ => rfl) (fun _ => rfl) (fun _ => rfl) h.inv.synced (fun _ _ => Iff.rfl) rfl
  errno := fun _ _ h =>
    h.congr (fun _ => rfl) (fun _ => rfl) (fun _ => rfl) h.inv.synced (fun _ _ => Iff.rfl) rfl
  readBuff := fun _ _ h => h.setConn c _ rfl rfl rfl

theorem since_survivesTraffic (c : ConnId) : XConnection.SurvivesTraffic (Since w₀) c where
  script := (since_ignoresInput c).script
  writes := fun _ _ h =>
    h.congr (fun _ => rfl) (fun _ => rfl) (fun _ => rfl) h.inv.synced (fun _ _ => Iff.rfl) rfl
  errno := (since_ignoresInput c).errno
  log := fun _ _ _ h =>
    h.congr (fun _ => rfl) (fun _ => rfl) (fun _ => rfl) h.inv.synced (fun _ _ => Iff.rfl) rfl
  conn := fun _ _ hstatus hsock hcallback h => h.setConn c _ hstatus hsock hcallback
  addEvent := by
    intro w loop hadd h
    obtain ⟨_, hok, hsynced⟩ := h.inv.synced.addEvent (w.conns c).sock_ XE_WRITABLE
    cases hok.symm.trans hadd
    refine h.congr (fun _ => rfl) (fun _ => rfl) (fun _ => rfl) hsynced ?_ rfl
    intro fd d
    rw [XLoop.addEvent_callbackOf hadd]
  removeEvent := by
    intro w loop hremove h
    obtain ⟨_, hok, hsynced⟩ := h.inv.synced.removeEvent (w.conns c).sock_ XE_WRITABLE
    cases hok.symm.trans hremove
    refine h.congr (fun _ => rfl) (fun _ => rfl) (fun _ => rfl) hsynced ?_ rfl
    intro fd d
    rw [XLoop.removeEvent_callbackOf_eq hremove]

/-! ## Section 5: The close -/

/-- The server after `erase` and the entry in the log of closed calls. -/
def afterErase (t : ServerTable) (c : ConnId) (fd : Fd) : ServerTable :=
  let connections_ := Function.update t.connections_ fd none
  { t with
    connections_ := connections_
    erased := t.erased ++ [1]
    closedCalls := t.closedCalls ++
      if t.connCloseCb_ then [⟨c, XF_CONN_STATUS_DISCONNECTING, connections_⟩] else [] }

theorem countP_afterErase (t : ServerTable) (c d : ConnId) (fd : Fd) :
    (afterErase t c fd).closedCalls.countP (·.conn = d) =
      t.closedCalls.countP (·.conn = d) + if d = c ∧ t.connCloseCb_ then 1 else 0 := by
  have hnew : (if t.connCloseCb_ then [(⟨c, XF_CONN_STATUS_DISCONNECTING,
      Function.update t.connections_ fd none⟩ : ClosedCall)] else []).countP (·.conn = d) =
        if d = c ∧ t.connCloseCb_ then 1 else 0 := by
    by_cases hcb : t.connCloseCb_ = true
    · rw [if_pos hcb, List.countP_singleton]
      by_cases hcd : d = c
      · simp [hcd, hcb]
      · simp [hcd, Ne.symm hcd]
    · simp [hcb]
  simp only [afterErase, List.countP_append, hnew]

/-- The table without the entry for the descriptor of `c`. -/
theorem TableInv.table_erased {c : ConnId} (h : TableInv w) (hc : c < w.ext.accepted)
    (hconnected : (w.conns c).connStatus_ = XF_CONN_STATUS_CONNECTED) (fd : Fd) (d : ConnId) :
    Function.update w.ext.connections_ (w.conns c).sock_ none fd = some d ↔
      d ≠ c ∧ w.ext.connections_ fd = some d := by
  have hentry : w.ext.connections_ (w.conns c).sock_ = some c :=
    (h.table _ c).mpr ⟨hc, hconnected, rfl⟩
  by_cases hsock : fd = (w.conns c).sock_
  · rw [hsock, Function.update_self, hentry]
    constructor
    · nofun
    · rintro ⟨hne, heq⟩
      exact absurd (Option.some.inj heq).symm hne
  · rw [Function.update_of_ne hsock]
    constructor
    · intro hfd
      refine ⟨?_, hfd⟩
      rintro rfl
      exact hsock ((h.table fd d).mp hfd).2.2.symm
    · exact fun hfd => hfd.2

/-- The status, the registry and the table have changed together. -/
theorem TableInv.closing {c : ConnId} (h : TableInv w) (hc : c < w.ext.accepted)
    (hconnected : (w.conns c).connStatus_ = XF_CONN_STATUS_CONNECTED)
    (hself : w'.conns c = { w.conns c with connStatus_ := XF_CONN_STATUS_DISCONNECTING })
    (hothers : ∀ d, d ≠ c → w'.conns d = w.conns d)
    (hremove : w.loop.remove (w.conns c).sock_ = .ok w'.loop) (hsynced : w'.loop.Synced)
    (hext : w'.ext = afterErase w.ext c (w.conns c).sock_) : TableInv w' := by
  have hstatus : (w'.conns c).connStatus_ = XF_CONN_STATUS_DISCONNECTING := by rw [hself]
  have htable : ∀ fd d, w'.ext.connections_ fd = some d ↔
      d ≠ c ∧ w.ext.connections_ fd = some d := by
    rw [hext]
    exact h.table_erased hc hconnected
  have haccepted : w'.ext.accepted = w.ext.accepted := by rw [hext]; rfl
  have hlive : w'.ext.live = w.ext.live := by rw [hext]; rfl
  refine ⟨hsynced, ?_, ?_, ?_, ?_, ?_, ?_, ?_, ?_⟩
  · intro fd d
    rw [htable, haccepted, h.table]
    by_cases hd : d = c
    · rw [hd, hstatus]
      simp
    · rw [hothers d hd]
      simp [hd]
  · intro fd d
    -- the registry and the table lose the same descriptor
    rw [XLoop.remove_callbackOf hremove, hext]
    show _ ↔ Function.update w.ext.connections_ (w.conns c).sock_ none fd = some d
    by_cases hsock : fd = (w.conns c).sock_
    · rw [if_pos hsock, hsock, Function.update_self]
      simp
    · rw [if_neg hsock, Function.update_of_ne hsock]
      exact h.registered fd d
  · intro d hd
    rw [haccepted] at hd
    rw [hlive]
    by_cases hdc : d = c
    · rw [hdc, hstatus]
      nofun
    · rw [hothers d hdc]
      exact h.alive d hd
  · intro d hd
    rw [haccepted] at hd
    by_cases hdc : d = c
    · rw [hdc, hstatus]
      exact Or.inr (Or.inr rfl)
    · rw [hothers d hdc]
      exact h.status d hd
  · intro d hd
    rw [haccepted] at hd
    by_cases hdc : d = c
    · rw [hdc, hself]
      exact h.callback c hc
    · rw [hothers d hdc]
      exact h.callback d hd
  · rw [hext]
    intro n hn
    rcases List.mem_append.mp hn with hn | hn
    · exact h.erased n hn
    · exact List.mem_singleton.mp hn
  · -- one more call for `c`, which is no longer connected, and none for the others
    intro d
    rw [haccepted, hext, countP_afterErase, h.once d]
    have hcb : (afterErase w.ext c (w.conns c).sock_).connCloseCb_ = w.ext.connCloseCb_ := rfl
    rw [hcb]
    by_cases hdc : d = c
    · rw [hdc, hconnected, hstatus]
      simp [hc]
    · have hnone : ¬ (d = c ∧ w.ext.connCloseCb_ = true) := fun hboth => hdc hboth.1
      rw [hothers d hdc, if_neg hnone, Nat.add_zero]
  · rw [hext]
    intro k hk
    rcases List.mem_append.mp hk with hk | hk
    · exact h.between k hk
    · split at hk
      · rw [List.mem_singleton.mp hk]
        exact ⟨rfl, fun fd hfd => ((h.table_erased hc hconnected fd c).mp hfd).1 rfl⟩
      · cases hk

/-- `setClosed` on a connection that is out of the table. -/
theorem Since.setClosed {c : ConnId} (h : Since w₀ w)
    (hclosed : (w.conns c).connStatus_ ≠ XF_CONN_STATUS_CONNECTED) :
    Since w₀ (w.setConn c { w.conns c with
      connStatus_ := XF_CONN_STATUS_DISCONNECTED }) := by
  have hne : XF_CONN_STATUS_DISCONNECTED ≠ XF_CONN_STATUS_CONNECTED := by decide
  -- where the invariant asks for a connected status, nothing changes
  have hiff : ∀ d, ((w.setConn c { w.conns c with
      connStatus_ := XF_CONN_STATUS_DISCONNECTED }).conns d).connStatus_ =
        XF_CONN_STATUS_CONNECTED ↔ (w.conns d).connStatus_ = XF_CONN_STATUS_CONNECTED := by
    intro d
    by_cases hd : d = c
    · rw [hd, World.setConn_self]
      exact ⟨fun hfalse => absurd hfalse hne, fun hfalse => absurd hfalse hclosed⟩
    · rw [World.setConn_ne w _ hd]
  have hsame : ∀ d, ((w.setConn c { w.conns c with
        connStatus_ := XF_CONN_STATUS_DISCONNECTED }).conns d).sock_ = (w.conns d).sock_ ∧
      ((w.setConn c { w.conns c with
        connStatus_ := XF_CONN_STATUS_DISCONNECTED }).conns d).connCloseCb_ =
          (w.conns d).connCloseCb_ := by
    intro d
    by_cases hd : d = c
    · rw [hd, World.setConn_self]
      exact ⟨rfl, rfl⟩
    · rw [World.setConn_ne w _ hd]
      exact ⟨rfl, rfl⟩
  refine ⟨⟨h.inv.synced, ?_, h.inv.registered, ?_, ?_, ?_, h.inv.erased, ?_, h.inv.between⟩,
    h.accepted, ?_⟩
  · intro fd d
    rw [hiff, (hsame d).1]
    exact h.inv.table fd d
  · intro d
    rw [hiff]
    exact h.inv.alive d
  · intro d hd
    by_cases hdc : d = c
    · rw [hdc, World.setConn_self]
      exact Or.inr (Or.inl rfl)
    · rw [World.setConn_ne w _ hdc]
      exact h.inv.status d hd
  · intro d
    rw [(hsame d).2]
    exact h.inv.callback d
  · intro d
    have hbefore := h.inv.once d
    simp only [ne_eq, hiff]
    exact hbefore
  · intro d hd hdc
    rw [ne_eq, hiff]
    exact h.closed d hd hdc

/-- The errors after which the invariant still holds: all but the one that
    says that callbacks were nested deeper than the model goes. -/
def Survivable (e : Halt) : Prop := e ≠ .outOfFuel

theorem survivable_exception : Survivable .exception := by
  unfold Survivable
  decide

/-- What a program keeps from where it starts, it keeps from before. -/
theorem Since.rebase {α : Type} {p : LoopM ServerTable α} (h : Since w₀ w)
    (hp : Maintains Survivable (Since w) p) :
    wp p (fun _ => Since w₀) (fun e w' => Survivable e → Since w₀ w') w :=
  wp_mono (fun _ _ h' => h.trans h') (fun _ _ h' hl => h.trans (h' hl)) (hp w (Since.refl h.inv))

/-- The callbacks keep the invariant.  The close callback is called in the
    midst of a close, so it is the close as a whole that does. -/
structure KeepServer (cbs : Callbacks ServerTable) : Prop where
  traffic : ∀ w₀ c, XConnection.KeepTraffic Survivable (Since w₀) c cbs
  connFinishCb : ∀ w₀ c, Maintains Survivable (Since w₀) (cbs.connFinishCb_ c)
  closeConn : ∀ w₀ c, c < w₀.ext.accepted →
    Maintains Survivable (Since w₀) (XConnection.closeConn cbs c)

variable {cbs : Callbacks ServerTable}

/-- `doCloseConnection` of a connection that is in the table. -/
theorem wp_doCloseConnection {c d : ConnId} {user : LoopM ServerTable Unit}
    {Q : Unit → World ServerTable → Prop} {E : Halt → World ServerTable → Prop}
    (hentry : w.ext.connections_ (w.conns c).sock_ = some d)
    (hstatus : (w.conns c).connStatus_ = XF_CONN_STATUS_DISCONNECTING)
    (h : wp (if w.ext.connCloseCb_ then catching isException user (pure ()) else pure ())
      (fun _ w' => Q () (w'.setConn c { w'.conns c with
        connStatus_ := XF_CONN_STATUS_DISCONNECTED }))
      E { w with ext := afterErase w.ext c (w.conns c).sock_ }) :
    wp (doCloseConnection user c) Q E w := by
  simp only [doCloseConnection, erase, callClosed, wp_bind, wp_get, wp_modify, wp_pure, hentry,
    Option.isSome_some, if_true]
  rw [cAssert_true trivial, wp_lift_ok, wp_ite]
  unfold afterErase at h
  by_cases hset : w.ext.connCloseCb_ = true
  · simp only [hset, if_true] at h ⊢
    rw [wp_bind, wp_modify]
    dsimp only
    rw [hstatus]
    exact h
  · simp only [hset, Bool.false_eq_true, if_false, List.append_nil] at h ⊢
    exact h

/-- `closeConn` up to the callback, which is set. -/
theorem wp_beginClose_table {c : ConnId} {Q : Bool → World ServerTable → Prop}
    {E : Halt → World ServerTable → Prop} (h : TableInv w) (hc : c < w.ext.accepted)
    (hclosed : Q false w)
    (hopen : (w.conns c).connStatus_ = XF_CONN_STATUS_CONNECTED → ∀ loop,
      w.loop.remove (w.conns c).sock_ = .ok loop → loop.Synced →
      Q true (({ w.setConn c { w.conns c with connStatus_ := XF_CONN_STATUS_DISCONNECTING } with
        loop := loop } : World ServerTable).log c .connClose)) :
    wp (XConnection.beginClose c) Q E w := by
  unfold XConnection.beginClose
  rw [wp_bind, wp_get, wp_ite]
  split
  · exact hclosed
  · rename_i hstatus
    have hconnected : (w.conns c).connStatus_ = XF_CONN_STATUS_CONNECTED :=
      (h.status c hc).resolve_right hstatus
    obtain ⟨loop, hremove, hsynced⟩ := h.synced.remove (w.conns c).sock_
    rw [wp_bind, wp_modify, wp_bind, XConnection.wp_onLoop]
    simp only [World.setConn_loop, hremove]
    rw [wp_ite, if_pos (h.callback c hc), wp_bind, XConnection.wp_emit, wp_pure]
    exact hopen hconnected loop hremove hsynced

/-- `closeConn` of a connected connection: `erase` finds its entry, the user is
    called once, and in a world that is sound again. -/
theorem closeConn_since {c : ConnId} {user : LoopM ServerTable Unit}
    (huser : ∀ w₀, Maintains Survivable (Since w₀) user)
    (hcb : cbs.connCloseCb_ c = doCloseConnection user c) (hc : c < w₀.ext.accepted) :
    Maintains Survivable (Since w₀) (XConnection.closeConn cbs c) := by
  intro w h
  have hacc : c < w.ext.accepted := Nat.lt_of_lt_of_le hc h.accepted
  unfold XConnection.closeConn
  rw [wp_bind]
  apply wp_beginClose_table h.inv hacc
  · exact h
  · intro hconnected loop hremove hsynced
    rw [if_pos rfl, wp_catching, hcb]
    have hentry : w.ext.connections_ (w.conns c).sock_ = some c :=
      (h.inv.table _ c).mpr ⟨hacc, hconnected, rfl⟩
    apply wp_doCloseConnection (by simpa using hentry) (by simp)
    -- where the user is called, the three have changed together
    generalize hw₂ : ({ World.log _ c .connClose with ext := _ } : World ServerTable) = w₂
    have hself : w₂.conns c =
        { w.conns c with connStatus_ := XF_CONN_STATUS_DISCONNECTING } := by simp [← hw₂]
    have hothers : ∀ d, d ≠ c → w₂.conns d = w.conns d := by
      intro d hd
      simp [← hw₂, hd]
    have hinv : TableInv w₂ := by
      apply h.inv.closing hacc hconnected hself hothers
      · rw [hremove, ← hw₂]
        rfl
      · rw [← hw₂]
        exact hsynced
      · simp [← hw₂]
    have hsince : Since w w₂ := by
      refine ⟨hinv, ?_, ?_⟩
      · rw [← hw₂]
        exact Nat.le_refl _
      · intro d _ hd
        rw [hothers d (by rintro rfl; exact hd hconnected)]
        exact hd
    have hcall : Maintains Survivable (Since w₂)
        (if w.ext.connCloseCb_ then catching isException user (pure ()) else pure ()) :=
      Maintains.ite ((huser w₂).catching
        (XConnection.caught_live survivable_exception) (Maintains.pure ())) (Maintains.pure ())
    apply wp_mono _ _ (hcall w₂ (Since.refl hinv))
    · intro _ w₃ h₃
      apply (h.trans (hsince.trans h₃)).setClosed
      apply h₃.closed c (Nat.lt_of_lt_of_le hacc hsince.accepted)
      rw [hself]
      nofun
    · intro e w₃ h₃
      split
      · exact h.trans (hsince.trans (h₃ (XConnection.caught_live survivable_exception e ‹_›)))
      · exact fun hl => h.trans (hsince.trans (h₃ hl))

/-! ## Section 6: The accept -/

/-- The new connection is connected, in the table and registered, on a
    descriptor that no other connection has. -/
theorem TableInv.accepting {fd : Fd} (h : TableInv w) (hfd : ¬ Open w fd)
    (hself : w'.conns w.ext.accepted = { XConnection.fresh fd true true true with
      connStatus_ := XF_CONN_STATUS_CONNECTED })
    (hothers : ∀ d, d ≠ w.ext.accepted → w'.conns d = w.conns d)
    (hreg : w.loop.reg fd 0 XE_READABLE (.connHandleEvent w.ext.accepted) = .ok w'.loop)
    (hsynced : w'.loop.Synced)
    (hext : w'.ext = { w.ext with
      accepted := w.ext.accepted + 1
      live := Function.update w.ext.live w.ext.accepted true
      connections_ := Function.update w.ext.connections_ fd (some w.ext.accepted) }) :
    TableInv w' := by
  have hfree : ∀ d, w.ext.connections_ fd ≠ some d := by
    intro d hentry
    obtain ⟨hd, hconnected, hsock⟩ := (h.table fd d).mp hentry
    exact hfd ⟨d, hd, h.alive d hd hconnected, hsock⟩
  have hold : ∀ d, d ≠ w.ext.accepted → (d < w.ext.accepted + 1 ↔ d < w.ext.accepted) := by
    intro d hd
    omega
  have haccepted : w'.ext.accepted = w.ext.accepted + 1 := by rw [hext]
  have htable : w'.ext.connections_ =
      Function.update w.ext.connections_ fd (some w.ext.accepted) := by rw [hext]
  have hlive : w'.ext.live = Function.update w.ext.live w.ext.accepted true := by rw [hext]
  have hset : w'.ext.connCloseCb_ = w.ext.connCloseCb_ := by rw [hext]
  have hcalls : w'.ext.closedCalls = w.ext.closedCalls := by rw [hext]
  refine ⟨hsynced, ?_, ?_, ?_, ?_, ?_, ?_, ?_, ?_⟩
  · -- the entry of `fd` is the new connection's, and was nobody's before
    intro fd' d
    rw [htable, haccepted]
    by_cases hd : d = w.ext.accepted
    · rw [hd, hself]
      by_cases hfd' : fd' = fd
      · simp [hfd', XConnection.fresh]
      · rw [Function.update_of_ne hfd', h.table]
        simp [XConnection.fresh, Ne.symm hfd']
    · rw [hothers d hd, hold d hd, ← h.table]
      by_cases hfd' : fd' = fd
      · rw [hfd', Function.update_self]
        simp [Ne.symm hd, hfree]
      · rw [Function.update_of_ne hfd']
  · intro fd' d
    rw [XLoop.reg_callbackOf hreg, htable]
    by_cases hfd' : fd' = fd
    · rw [if_pos hfd', hfd', Function.update_self]
      simp
    · rw [if_neg hfd', Function.update_of_ne hfd']
      exact h.registered fd' d
  · intro d
    rw [haccepted, hlive]
    by_cases hd : d = w.ext.accepted
    · rw [hd, Function.update_self]
      exact fun _ _ => rfl
    · rw [hothers d hd, hold d hd, Function.update_of_ne hd]
      exact h.alive d
  · intro d
    rw [haccepted]
    by_cases hd : d = w.ext.accepted
    · rw [hd, hself]
      exact fun _ => Or.inl rfl
    · rw [hothers d hd, hold d hd]
      exact h.status d
  · intro d
    rw [haccepted]
    by_cases hd : d = w.ext.accepted
    · rw [hd, hself]
      exact fun _ => rfl
    · rw [hothers d hd, hold d hd]
      exact h.callback d
  · rw [hext]
    exact h.erased
  · intro d
    have hbefore := h.once d
    simp only [hcalls, haccepted, hset]
    by_cases hd : d = w.ext.accepted
    · rw [hd] at hbefore
      rw [hd, hself]
      simpa using hbefore
    · simp only [hothers d hd, hold d hd]
      exact hbefore
  · rw [hcalls]
    exact h.between

theorem acceptNewConnection_since {fd : Fd} (hcbs : KeepServer cbs) (h : Since w₀ w)
    (hfd : ¬ Open w fd) :
    wp (acceptNewConnection cbs fd) (fun _ => Since w₀) (fun e w' => Survivable e → Since w₀ w')
      w := by
  obtain ⟨loop, hreg, hsynced⟩ :=
    h.inv.synced.reg fd 0 XE_READABLE (.connHandleEvent w.ext.accepted)
  have hsock : (w.setConn w.ext.accepted (XConnection.fresh fd true true true)).conns
      w.ext.accepted = XConnection.fresh fd true true true := World.setConn_self ..
  have hfresh : (XConnection.fresh fd true true true).sock_ = fd := rfl
  unfold acceptNewConnection XConnection.makeConnected XConnection.beginConnected
  simp only [wp_bind, wp_get, wp_modify, XConnection.wp_onLoop, World.setConn_loop, hsock, hfresh,
    hreg, XConnection.wp_emit]
  -- where the finished callback is called, the connection is complete
  generalize hw₁ : (World.log _ _ .connFinish : World ServerTable) = w₁
  have hothers : ∀ d, d ≠ w.ext.accepted → w₁.conns d = w.conns d := by
    intro d hd
    simp [← hw₁, hd]
  have hinv : TableInv w₁ := by
    apply h.inv.accepting hfd _ hothers
    · rw [hreg, ← hw₁]
      rfl
    · rw [← hw₁]
      exact hsynced
    · simp [← hw₁]
    · simp [← hw₁, hfresh]
  have hsince : Since w w₁ := by
    refine ⟨hinv, ?_, ?_⟩
    · rw [← hw₁]
      exact Nat.le_succ _
    · intro d hd hclosed
      rw [hothers d (Nat.ne_of_lt hd)]
      exact hclosed
  exact (h.trans hsince).rebase (hcbs.connFinishCb w₁ w.ext.accepted)

/-! ## Section 7: The callbacks -/

theorem sendMsgToBuffer_since (hcbs : KeepServer cbs) (c : ConnId) (msg : List UInt8) :
    Maintains Survivable (Since w₀) (XConnection.sendMsgToBuffer cbs c msg) :=
  XConnection.sendMsgToBuffer_maintains survivable_exception (since_survivesTraffic c)
    (hcbs.traffic w₀ c).sentBytesCb msg

theorem sendMsgString_since (hcbs : KeepServer cbs) (c : ConnId) (msg : List UInt8) :
    Maintains Survivable (Since w₀) (XConnection.sendMsgString cbs c msg) :=
  XConnection.sendMsgString_maintains (sendMsgToBuffer_since hcbs c) msg

/-- A call on a connection that has been accepted. -/
theorem onConnection_since {d : ConnId} {call : LoopM ServerTable Unit}
    (hcall : ∀ w, d < w.ext.accepted → Maintains Survivable (Since w) call) :
    Maintains Survivable (Since w₀) (onConnection d call) := by
  intro w h
  show wp (get >>= fun w => _) _ _ w
  rw [wp_bind, wp_get, wp_ite]
  split
  · rename_i hexists
    exact h.rebase ((hcall w hexists.1).catching
      (XConnection.caught_live survivable_exception) (Maintains.pure ()))
  · exact h

theorem others_since (op : RegistryOp Handler) :
    Maintains Survivable (Since w₀) (others op) := by
  intro w h
  show wp (get >>= fun w => _) _ _ w
  rw [wp_bind, wp_get, wp_ite]
  split
  · exact h
  · rename_i hforeign
    obtain ⟨hopen, hown⟩ := not_or.mp hforeign
    obtain ⟨loop, hop, hsynced⟩ := h.inv.synced.apply op
    rw [XConnection.wp_onLoop, hop]
    refine h.congr (fun _ => rfl) (fun _ => rfl) (fun _ => rfl) hsynced ?_ rfl
    intro fd c
    constructor
    · intro hfd
      refine (XLoop.callbackOf_of_apply hop hfd).resolve_left ?_
      intro heq
      rw [heq] at hown
      exact hown rfl
    · intro hfd
      obtain ⟨hc, hconnected, hsock⟩ := (h.inv.table fd c).mp ((h.inv.registered fd c).mp hfd)
      have hne : fd ≠ op.fd := by
        rintro rfl
        exact hopen ⟨c, hc, h.inv.alive c hc hconnected, hsock⟩
      show loop.callbackOf fd = _
      rw [XLoop.apply_callbackOf_of_ne hop hne]
      exact hfd

theorem userAct_since (hcbs : KeepServer cbs) (a : ServerAct) :
    Maintains Survivable (Since w₀) (userAct cbs a) := by
  cases a with
  | sendMsg d msg => exact onConnection_since fun w _ => sendMsgString_since hcbs d msg
  | closeConnection d =>
    exact onConnection_since fun w hd =>
      XConnection.closeConnection_maintains (hcbs.closeConn w d hd)
  | others op => exact others_since op

theorem userCallback_since (hcbs : KeepServer cbs) :
    Maintains Survivable (Since w₀) (userCallback cbs) := by
  have hnext : Maintains Survivable (Since w₀) nextScript :=
    Maintains.nextAnswer fun _ _ h =>
      h.congr (fun _ => rfl) (fun _ => rfl) (fun _ => rfl) h.inv.synced (fun _ _ => Iff.rfl) rfl
  apply hnext.bind
  intro s
  exact (Maintains.sequence s.acts fun a _ => userAct_since hcbs a).bind fun _ => Maintains.pure _

/-- The callbacks of one level, when those below keep the invariant. -/
theorem keepServer_callbacksOf (hcbs : KeepServer cbs) :
    KeepServer (XConnection.callbacksOf (serverCallback cbs)) := by
  have huser : ∀ w₀, Maintains Survivable (Since w₀) (userCallback cbs) :=
    fun _ => userCallback_since hcbs
  have hdefault : ∀ w₀ (isSet : ServerTable → Bool) (n : Int), Maintains Survivable (Since w₀)
      (do let w ← get; if isSet w.ext then userCallback cbs else return n) := fun w₀ _ _ =>
    Maintains.get.bind fun _ => Maintains.ite (huser w₀) (Maintains.pure _)
  refine ⟨fun w₀ c => ⟨?_, ?_, ?_⟩, ?_, ?_⟩
  · intro _ buffLen
    exact hdefault w₀ (·.msgDecodeCb_) buffLen
  · intro _
    exact (Maintains.pure _).bind fun _ => Maintains.pure ()
  · intro _
    exact (hdefault w₀ (·.sentBytesCb_) 0).bind fun _ => Maintains.pure ()
  · intro w₀ _
    exact (hdefault w₀ (·.connFinishedCb_) 0).bind fun _ => Maintains.pure ()
  · intro w₀ c hc
    have hunit : ∀ w₀, Maintains Survivable (Since w₀) (userCallbackUnit cbs) := fun w₀ =>
      (huser w₀).bind fun _ => Maintains.pure ()
    apply closeConn_since hunit _ hc
    simp [XConnection.callbacksOf, serverCallback]

/-- Induction on the nesting depth. -/
theorem keepServer (depth : Nat) :
    KeepServer (XConnection.nestedCallbacks serverCallback depth) := by
  apply XConnection.nestedCallbacks_induction _ fun cbs => keepServer_callbacksOf
  have hthrow : ∀ {α : Type} w₀,
      Maintains Survivable (Since w₀) (throw .outOfFuel : LoopM ServerTable α) :=
    fun _ => Maintains.throw _
  refine ⟨fun w₀ c => ⟨fun _ _ => hthrow w₀, fun _ => hthrow w₀, fun _ => hthrow w₀⟩,
    fun w₀ _ => hthrow w₀, ?_⟩
  -- a close that gets to its callback runs out of depth, and is not survived
  intro w₀ c hc w h
  unfold XConnection.closeConn
  rw [wp_bind]
  apply wp_beginClose_table h.inv (Nat.lt_of_lt_of_le hc h.accepted)
  · exact h
  · intro _ _ _ _
    rw [if_pos rfl, wp_catching]
    exact fun hl => absurd rfl hl

/-! ## Section 8: Runs -/

theorem handleEvent_since (hcbs : KeepServer cbs) (fuel : Nat) (fd : Fd) (emask : Mask) :
    Maintains Survivable (Since w₀) (handleEvent cbs fuel fd emask) := by
  intro w h
  show wp (get >>= fun w => _) _ _ w
  rw [wp_bind, wp_get]
  split
  · rename_i c hreg
    have hc : c < w.ext.accepted := ((h.inv.table fd c).mp ((h.inv.registered fd c).mp hreg)).1
    apply h.rebase
    exact XConnection.HandleEvent_maintains survivable_exception (since_ignoresInput c)
      (hcbs.traffic w c)
      (fun e he => (since_survivesTraffic c).emit (by rintro rfl; cases he))
      (XConnection.sendMsg_maintains survivable_exception (since_survivesTraffic c)
        (hcbs.traffic w c).sentBytesCb)
      (hcbs.closeConn w c hc) emask
  · exact h

theorem posted_since {d : ConnId} {call : LoopM ServerTable Unit}
    (hcall : ∀ w, d < w.ext.accepted → Maintains Survivable (Since w) call) :
    Maintains Survivable (Since w₀) (posted d call) := by
  intro w h
  show wp (get >>= fun w => _) _ _ w
  rw [wp_bind, wp_get, wp_ite]
  split
  · rename_i hexists
    exact h.rebase (hcall w hexists.1)
  · exact h

theorem destroy_since (d : ConnId) : Maintains Survivable (Since w₀) (destroy d) := by
  intro w h
  show wp (get >>= fun w => _) _ _ w
  rw [wp_bind, wp_get, wp_ite]
  split
  · exact h
  · rename_i hclosed
    refine ⟨{ h.inv with alive := ?_ }, h.accepted, h.closed⟩
    intro c hc hconnected
    have hne : c ≠ d := by
      rintro rfl
      exact hclosed hconnected
    show Function.update w.ext.live d false c = true
    rw [Function.update_of_ne hne]
    exact h.inv.alive c hc hconnected

theorem tableStep_since (hcbs : KeepServer cbs) (fuel : Nat) (step : TableStep) :
    Maintains Survivable (Since w₀) (tableStep cbs fuel step) := by
  cases step with
  | handleAccept fd =>
    intro w h
    show wp (get >>= fun w => _) _ _ w
    rw [wp_bind, wp_get, wp_ite]
    split
    · exact h
    · exact acceptNewConnection_since hcbs h ‹_›
  | event fd emask => exact handleEvent_since hcbs fuel fd emask
  | closeConn d => exact posted_since fun w hd => hcbs.closeConn w d hd
  | sendMsgToBuffer d msg => exact posted_since fun w _ => sendMsgToBuffer_since hcbs d msg
  | doSendResponse uid buffer =>
    intro w h
    show wp (get >>= fun w => _) _ _ w
    rw [wp_bind, wp_get]
    split
    · exact h
    · exact sendMsgString_since hcbs _ buffer w h
  | act a => exact userAct_since hcbs a
  | destroy d => exact destroy_since d

theorem tableInv_started (h : Started w) : TableInv w := by
  obtain ⟨wakeupFd, ops, hloop⟩ := h.loop
  have hnone : ∀ c, ¬ c < w.ext.accepted := by
    intro c
    rw [h.accepted]
    exact Nat.not_lt_zero c
  refine ⟨XLoop.synced_of_created hloop, ?_, ?_, fun c hc => absurd hc (hnone c), fun c hc => absurd hc (hnone c),
    fun c hc => absurd hc (hnone c), ?_, ?_, ?_⟩
  · intro fd c
    simp [h.empty fd, hnone c]
  · intro fd c
    simp [h.empty fd, h.not_registered fd c]
  · simp [h.logs.1]
  · intro c
    simp [h.logs.2, hnone c]
  · simp [h.logs.2]

/-- **The connection table.**  In every run of the loop, however far it gets,
    with any accepts, events, posted calls and callbacks: the table has exactly
    the connected connections, each under its own descriptor and registered
    there; every `erase` has found its entry; and the closed callback has been
    called once for each closed connection, when the connection had left the
    table and was not yet marked closed.  A connection that leaves the table
    stays an object to the end of the call; `ConnectionLifetime` says when it is
    destroyed. -/
theorem table_sound {w₀ : World ServerTable} (hstart : Started w₀) (depth fuel : Nat)
    (steps : List TableStep)
    (hdepth : raised .outOfFuel ((runServer depth fuel steps).run w₀) = false) :
    Sound (finalState ((runServer depth fuel steps).run w₀)) := by
  have hsteps : Maintains Survivable (Since w₀) (runServer depth fuel steps) :=
    Maintains.sequence steps fun step _ => tableStep_since (keepServer depth) fuel step
  have hrun := hsteps w₀ (Since.refl (tableInv_started hstart))
  unfold wp at hrun
  cases hres : (runServer depth fuel steps).run w₀ with
  | ok _ w =>
    rw [hres] at hrun
    exact hrun.inv.sound
  | error e w =>
    rw [hres] at hrun hdepth
    have he : Survivable e := by
      rintro rfl
      cases hdepth
    exact (hrun he).inv.sound

/-- A server on a loop with the wakeup descriptor and a listener. -/
def tableStart (scripts : List ServerScript) : World ServerTable where
  conns c := XConnection.fresh c true true true
  loop :=
    { register_ := Function.update (Function.update (fun _ => none) 9
        (some ⟨XE_READABLE, 0, .wakeUpCallBack⟩)) 3 (some ⟨XE_READABLE, 0, .listenerHandleEvent⟩)
      poller_ := Function.update (Function.update (fun _ => none) 9
        (some (XEpoller.epollMask XE_READABLE))) 3 (some (XEpoller.epollMask XE_READABLE)) }
  errno := .other
  writes := []
  reads := []
  script := []
  trace _ := []
  ext :=
    { connections_ := fun _ => none
      msgDecodeCb_ := true
      sentBytesCb_ := true
      connCloseCb_ := true
      connFinishedCb_ := true
      accepted := 0
      live := fun _ => false
      scripts := scripts
      erased := []
      closedCalls := [] }

theorem started_tableStart (scripts : List ServerScript) : Started (tableStart scripts) where
  empty _ := rfl
  accepted := rfl
  logs := ⟨rfl, rfl⟩
  not_registered := by
    intro fd c h
    simp only [XLoop.callbackOf, tableStart, Function.update_apply] at h
    split at h
    · cases h
    · split at h <;> cases h
  loop := ⟨9, [.reg 3 0 XE_READABLE .listenerHandleEvent], rfl⟩

/-- The first connection is closed in its own finished callback and destroyed;
    the second one gets its descriptor, and is closed by a hangup. -/
theorem table_sound_reused : ∃ w : World ServerTable,
    w = finalState ((runServer 3 5 [.handleAccept 5, .destroy 0, .handleAccept 5,
        .event 5 XE_HUP]).run (tableStart [⟨[.closeConnection 0], 0⟩, ⟨[.sendMsg 0 [1]], 0⟩,
          ⟨[], 0⟩, ⟨[.closeConnection 1], 0⟩])) ∧
    w.ext.accepted = 2 ∧ w.ext.erased = [1, 1] ∧ w.ext.closedCalls.map (·.conn) = [0, 1] ∧
    Sound w := by
  refine ⟨_, rfl, ?_, ?_, ?_, table_sound (started_tableStart _) 3 5 _ ?_⟩ <;> decide +kernel

end ServerTable

end XFast
