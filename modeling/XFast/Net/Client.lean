import XFast.Base.InterestList
import XFast.Net.ConnectionRules

/-! # xClient and xConnector

    Model of `net/xclient.cpp` and `net/connector.cpp`.  The state of a client
    is in three places: in the client, in its connector with the timers that
    the connector leaves behind, and in the connections.  The client's member
    functions are bound to the callbacks of the connector and of the
    connections, with the plain pointer to the client.

    The run is that of the loop thread.  What other threads do to the client
    is a step of its own, between the steps of the loop and inside the
    callbacks of the user, where the loop thread is outside the client; it
    leaves functors in the mailbox of the loop.

    A member function that is called after the destructor finds the client as
    the destructor has left it.  A log is kept of what happens; no function
    reads it. -/

namespace XFast

open Program XConnStatus

/-! ## Section 1: The client -/

/-- The member functions that the client binds to callbacks. -/
inductive Member where
  | connectedToServer
  | defaultMsgDecode
  | messageComing
  | defaultSentBytes
  | connectionClosed
  | connectionFinished
  deriving DecidableEq, Repr

/-- A functor in the mailbox of the loop. -/
inductive Posted where
  | beforeConnect
  | closeConn (c : ConnId)
  | setConnectionClosedCallBack (c : ConnId)
  deriving DecidableEq, Repr

/-- What happens to a client. -/
inductive ClientEvent where
  /-- `start()` is called; `idle` says that nothing is under way and every
      connection is closed. -/
  | start (idle : Bool)
  /-- `stop()` is called with this established connection; `quiet` says that
      no attempt to connect is under way. -/
  | stop (connection : Option ConnId) (quiet : Bool)
  /-- Another thread calls `start()` or `stop()`. -/
  | otherStart
  | otherStop (connection : Option ConnId)
  /-- The destructor runs. -/
  | destroyed (idle : Bool)
  /-- A member function is called back. -/
  | member (f : Member)
  /-- A connection is created; `othersClosed` says that the others are closed. -/
  | created (c : ConnId) (othersClosed : Bool)
  /-- `connectionFinished` is called with a connection or with `nullptr`. -/
  | finished (connection : Option ConnId)
  /-- A decode callback returns a length, or a commit callback returns with
      bytes left in `readBuff_`: the parse loop goes on. -/
  | resumes
  /-- The user's closed callback is called. -/
  | userClosed (c : ConnId)
  /-- `lock_` is locked by the thread that holds it. -/
  | relock
  deriving DecidableEq, Repr

/-- What the user's callbacks and the code around them do. -/
inductive ClientAct where
  | start
  | stop
  | destroy
  /-- The same by another thread. -/
  | otherStart
  | otherStop
  | otherDestroy
  | sendMsg (c : ConnId) (msg : List UInt8)
  | closeConnection (c : ConnId)
  deriving DecidableEq, Repr

/-- One invocation of a user callback. -/
structure ClientScript where
  acts : List ClientAct
  throws : Bool
  ret : Int
  deriving DecidableEq, Repr

/-- A client with its connector.  Of the user's callbacks it is recorded
    whether they are set, and of a connection's `connCloseCb_` whether it has
    been replaced by the function that calls the user.  `attempts` has the
    descriptors that the connector watches, `retries` counts its timers,
    `connects` has the results of `connectNonblock`. -/
structure XClient where
  isConnected_ : Bool
  connectionPtr_ : Option ConnId
  lockHeld : Bool
  msgDecodeCb_ : Bool
  msgCommitCb_ : Bool
  sentBytesCb_ : Bool
  connCloseCb_ : Bool
  connFinishedCb_ : Bool
  destroyed : Bool
  reConnMs_ : Int
  status_ : XConnStatus
  created : Nat
  replaced : ConnId → Bool
  attempts : List Fd
  retries : Nat
  posted : List Posted
  connects : List (Option Fd)
  scripts : List ClientScript
  log : List ClientEvent

/-- What can be seen of a client and its connections. -/
structure ClientView where
  created : Nat
  status : ConnId → XConnStatus
  connectionPtr_ : Option ConnId
  connCloseCb_ : Bool
  destroyed : Bool
  replaced : ConnId → Bool
  attempts : Nat
  retries : Nat
  posted : List Posted
  log : List ClientEvent

namespace ClientView

/-- No attempt to connect is under way. -/
def Quiet (v : ClientView) : Prop :=
  v.attempts = 0 ∧ v.retries = 0 ∧ .beforeConnect ∉ v.posted

def AllClosed (v : ClientView) : Prop := ∀ c < v.created, (v.status c).Closed

/-- The established connection, as `stop` looks for it. -/
def connection (v : ClientView) : Option ConnId :=
  v.connectionPtr_.filter fun c => v.status c = XF_CONN_STATUS_CONNECTED

instance (v : ClientView) : Decidable v.Quiet := inferInstanceAs (Decidable (_ ∧ _ ∧ _))

instance (v : ClientView) : Decidable v.AllClosed :=
  inferInstanceAs (Decidable (∀ c < v.created, _))

end ClientView

/-- What is below a call: the callbacks that the client binds in its
    connections, and a callback of the user. -/
structure ClientCallbacks where
  conn : Callbacks XClient
  user : LoopM XClient Int

/-- The user's callback where the result does not matter. -/
def ClientCallbacks.userUnit (cbs : ClientCallbacks) : LoopM XClient Unit := do
  let _ ← cbs.user

namespace XClient

def view (w : World XClient) : ClientView where
  created := w.ext.created
  status := fun c => (w.conns c).connStatus_
  connectionPtr_ := w.ext.connectionPtr_
  connCloseCb_ := w.ext.connCloseCb_
  destroyed := w.ext.destroyed
  replaced := w.ext.replaced
  attempts := w.ext.attempts.length
  retries := w.ext.retries
  posted := w.ext.posted
  log := w.ext.log

/-- Change the client. -/
def update (f : XClient → XClient) : LoopM XClient Unit :=
  modify fun w => { w with ext := f w.ext }

def note (e : ClientEvent) : LoopM XClient Unit :=
  update fun x => { x with log := x.log ++ [e] }

/-! ## Section 2: The lock -/

/-- `lock_` is an error-checking mutex: it throws when its owner locks it. -/
def lock : LoopM XClient Unit := do
  let w ← get
  if w.ext.lockHeld then do
    note .relock
    throw .exception
  else
    update fun x => { x with lockHeld := true }

def unlock : LoopM XClient Unit := update fun x => { x with lockHeld := false }

/-- A scope with an `xMutexLockGuard`. -/
def withLock (p : LoopM XClient Unit) : LoopM XClient Unit := do
  lock
  withDestructor isException p unlock

/-! ## Section 3: The callbacks of the connector and the connections -/

def connectionFinished (connFinishedCb : LoopM XClient Unit) (connPtr : Option ConnId) :
    LoopM XClient Unit := do
  note (.member .connectionFinished)
  note (.finished connPtr)
  let w ← get
  if w.ext.connFinishedCb_ then catching isException connFinishedCb (pure ()) else return ()

/-- `connectedToServer`, with an error code that is 0 if there is a socket. -/
def connectedToServer (cbs : ClientCallbacks)
    (connSock : Option Fd) : LoopM XClient Unit := do
  note (.member .connectedToServer)
  match connSock with
  | none => connectionFinished cbs.userUnit none
  | some fd => do
      let w ← get
      let c := w.ext.created
      modify fun w => { w.setConn c (XConnection.fresh fd true true true) with
        ext := { w.ext with
          created := c + 1
          replaced := Function.update w.ext.replaced c false
          attempts := w.ext.attempts.erase fd } }
      note (.created c (view w).AllClosed)
      withLock (update fun x => { x with connectionPtr_ := some c })
      XConnection.makeConnected cbs.conn c

/-- `setConnectionClosedCallBack` with the function that calls the user. -/
def setConnectionClosedCallBack (c : ConnId) : LoopM XClient Unit :=
  update fun x => { x with replaced := Function.update x.replaced c true }

def doCloseConnection (c : ConnId) : LoopM XClient Unit := do
  withLock (update fun x => { x with connectionPtr_ := none })
  setConnectionClosedCallBack c

def connectionClosed (c : ConnId) : LoopM XClient Unit := do
  note (.member .connectionClosed)
  doCloseConnection c

/-- The function `closeConnection` that replaces the close callback.  Calling a
    callback that is not set throws. -/
def closeConnection (connCloseCb : LoopM XClient Unit) (c : ConnId) : LoopM XClient Unit := do
  let w ← get
  if w.ext.connCloseCb_ then do
    note (.userClosed c)
    connCloseCb
    XConnection.setClosed c
  else
    throw .exception

/-! ## Section 4: The connector -/

def ReConnntervalMs : Int := 500
def ReConnMaxTimeMs : Int := 3000

/-- The descriptor is open. -/
def Open (w : World XClient) (fd : Fd) : Prop :=
  fd ∈ w.ext.attempts ∨
    ∃ c < w.ext.created, ¬ (w.conns c).connStatus_.Closed ∧ (w.conns c).sock_ = fd

instance (w : World XClient) (fd : Fd) : Decidable (Open w fd) :=
  inferInstanceAs (Decidable (_ ∨ ∃ c < w.ext.created, _))

/-- `xSocket::connectNonblock(peerAddr_)`. -/
def nextConnect : LoopM XClient (Option Fd) :=
  nextAnswer (·.ext.connects) (fun rest w => { w with ext := { w.ext with connects := rest } })
    .infeasible

def setStatus (status : XConnStatus) : LoopM XClient Unit :=
  update fun x => { x with status_ := status }

def beforeConnect (cbs : ClientCallbacks) :
    LoopM XClient Unit := do
  let outcome ← nextConnect
  match outcome with
  | none => do
      setStatus XF_CONN_STATUS_UNKOWN
      connectedToServer cbs none
  | some fd => do
      let w ← get
      if Open w fd then
        throw .infeasible
      else do
        setStatus XF_CONN_STATUS_CONNECTING
        XConnection.onLoop (·.reg fd 0 XE_WRITABLE .connectorOnEventHandle)
        update fun x => { x with attempts := x.attempts ++ [fd] }

def connectOnError (cbs : ClientCallbacks) (fd : Fd) :
    LoopM XClient Unit := do
  setStatus XF_CONN_STATUS_DISCONNECTED
  XConnection.onLoop (·.remove fd)
  update fun x => { x with attempts := x.attempts.erase fd }
  let w ← get
  if w.ext.reConnMs_ < ReConnMaxTimeMs then
    update fun x => { x with retries := x.retries + 1 }
  else
    connectedToServer cbs none

def connectOnSucc (cbs : ClientCallbacks) (fd : Fd) :
    LoopM XClient Unit := do
  setStatus XF_CONN_STATUS_CONNECTED
  connectedToServer cbs (some fd)

/-- `onEventHandle`; `rc` is the error that the socket has. -/
def onEventHandle (cbs : ClientCallbacks) (fd : Fd)
    (emask : Mask) (rc : Int) : LoopM XClient Unit := do
  let w ← get
  if emask &&& XE_ERROR ≠ 0 ∨ emask &&& XE_HUP ≠ 0 ∨
      w.ext.status_ = XF_CONN_STATUS_DISCONNECTED then
    connectOnError cbs fd
  else if emask &&& XE_WRITABLE ≠ 0 then
    if rc ≠ 0 then connectOnError cbs fd
    else connectOnSucc cbs fd
  else
    return ()

def onReConnect (cbs : ClientCallbacks) :
    LoopM XClient Unit := do
  update fun x => { x with reConnMs_ := toInt32 (x.reConnMs_ + ReConnntervalMs) }
  beforeConnect cbs

/-! ## Section 5: What the user calls -/

def start (cbs : ClientCallbacks) :
    LoopM XClient Unit := do
  let w ← get
  note (.start ((view w).Quiet ∧ (view w).AllClosed))
  update fun x => { x with isConnected_ := true }
  beforeConnect cbs

def stop (cbs : ClientCallbacks) : LoopM XClient Unit := do
  let w ← get
  note (.stop (view w).connection (view w).Quiet)
  update fun x => { x with isConnected_ := false }
  withLock (do
    let w ← get
    match w.ext.connectionPtr_ with
    | none => return ()
    | some c => XConnection.closeConnection cbs.conn c)

/-- `~xClient`. -/
def destroy : LoopM XClient Unit := do
  let w ← get
  note (.destroyed ((view w).Quiet ∧ (view w).AllClosed))
  update fun x => { x with destroyed := true }
  withLock (pure ())
  match w.ext.connectionPtr_ with
  | none => return ()
  | some c => setConnectionClosedCallBack c

def post (f : Posted) : LoopM XClient Unit :=
  update fun x => { x with posted := x.posted ++ [f] }

/-- `start()` in another thread. -/
def otherStart : LoopM XClient Unit := do
  note .otherStart
  update fun x => { x with isConnected_ := true }
  post .beforeConnect

/-- `stop()` in another thread. -/
def otherStop : LoopM XClient Unit := do
  let w ← get
  note (.otherStop (view w).connection)
  update fun x => { x with isConnected_ := false }
  match (view w).connection with
  | none => return ()
  | some c => post (.closeConn c)

/-- `~xClient` in another thread. -/
def otherDestroy : LoopM XClient Unit := do
  let w ← get
  note (.destroyed ((view w).Quiet ∧ (view w).AllClosed))
  update fun x => { x with destroyed := true }
  match w.ext.connectionPtr_ with
  | none => return ()
  | some c => post (.setConnectionClosedCallBack c)

/-- A call on the client, which only exists until it is destroyed. -/
def onClient (call : LoopM XClient Unit) : LoopM XClient Unit := do
  let w ← get
  if w.ext.destroyed then return () else call

/-- A call on a connection that the user has a pointer to. -/
def onConnection (c : ConnId) (call : LoopM XClient Unit) : LoopM XClient Unit := do
  let w ← get
  if c < w.ext.created then catching isException call (pure ()) else return ()

def clientAct (cbs : ClientCallbacks) :
    ClientAct → LoopM XClient Unit
  | .start => onClient (start cbs)
  | .stop => onClient (stop cbs)
  | .destroy => onClient destroy
  | .otherStart => onClient otherStart
  | .otherStop => onClient otherStop
  | .otherDestroy => onClient otherDestroy
  | .sendMsg c msg => onConnection c (XConnection.sendMsgString cbs.conn c msg)
  | .closeConnection c => onConnection c (XConnection.closeConnection cbs.conn c)

def nextScript : LoopM XClient ClientScript :=
  nextAnswer (·.ext.scripts) (fun rest w => { w with ext := { w.ext with scripts := rest } })
    .infeasible

/-- A callback of the user follows the script. -/
def userCallback (cbs : ClientCallbacks) : LoopM XClient Int := do
  let s ← nextScript
  sequence (clientAct cbs) s.acts
  if s.throws then throw .exception else return s.ret

/-! ## Section 6: Its run -/

/-- What `defaultMsgDecode` returns. -/
def callMsgDecode (msgDecodeCb : LoopM XClient Int) (buffLen : Int) : LoopM XClient Int := do
  let w ← get
  if w.ext.msgDecodeCb_ then
    catching isException msgDecodeCb (return XConnection.XF_MSG_DECODE_ERR)
  else
    return buffLen

/-- `defaultMsgDecode`, whose result is an `int`. -/
def defaultMsgDecode (msgDecodeCb : LoopM XClient Int) (buffLen : Int) : LoopM XClient Int := do
  note (.member .defaultMsgDecode)
  let ret ← callMsgDecode msgDecodeCb buffLen
  if toInt32 ret = XConnection.XF_MSG_DECODE_ERR ∨
      toInt32 ret = XConnection.XF_MSG_DECODE_NOT_ENOUGH then
    return ret
  else do
    note .resumes
    return ret

def callMsgCommit (msgCommitCb : LoopM XClient Unit) : LoopM XClient Unit := do
  let w ← get
  if w.ext.msgCommitCb_ then catching isException msgCommitCb (pure ()) else return ()

def messageComing (msgCommitCb : LoopM XClient Unit) (c : ConnId) : LoopM XClient Unit := do
  note (.member .messageComing)
  callMsgCommit msgCommitCb
  let w ← get
  if (w.conns c).readBuff_.readableBytes ≠ 0 then note .resumes else return ()

def defaultSentBytes (sentBytesCb : LoopM XClient Unit) : LoopM XClient Unit := do
  note (.member .defaultSentBytes)
  let w ← get
  if w.ext.sentBytesCb_ then sentBytesCb else return ()

/-- What the client binds in its connections, over a callback of the user. -/
def connectionCallbacks (user : LoopM XClient Int) : Callbacks XClient where
  decodeCb_ := fun _ _ buffLen => defaultMsgDecode user buffLen
  msgCommitCb_ := fun c _ => messageComing (do let _ ← user) c
  sentBytesCb_ := fun _ _ => defaultSentBytes (do let _ ← user)
  connCloseCb_ := fun c => do
    let w ← get
    if w.ext.replaced c then closeConnection (do let _ ← user) c else connectionClosed c
  connFinishCb_ := fun c => connectionFinished (do let _ ← user) (some c)

/-- The callbacks, nested at most `depth` deep. -/
def clientCallbacks : (depth : Nat) → ClientCallbacks
  | 0 => ⟨connectionCallbacks (throw .outOfFuel), throw .outOfFuel⟩
  | depth + 1 =>
      let user := userCallback (clientCallbacks depth)
      ⟨connectionCallbacks user, user⟩

inductive ClientInput where
  /-- Code in the loop thread, or another thread, calls. -/
  | act (a : ClientAct)
  /-- The poller reports an event on a descriptor, whose socket has the error
      `rc`. -/
  | event (fd : Fd) (emask : Mask) (rc : Int)
  /-- The loop runs the next functor of its mailbox. -/
  | runPosted
  /-- A retry timer of the connector expires. -/
  | onReConnect
  /-- A `closeConn` posted by another thread or by a timer is run. -/
  | closeConn (c : ConnId)
  /-- A `sendMsgToBuffer` posted by another thread is run. -/
  | sendMsgToBuffer (c : ConnId) (msg : List UInt8)
  deriving DecidableEq, Repr

def handleEvent (cbs : ClientCallbacks) (fuel : Nat) (fd : Fd) (emask : Mask) (rc : Int) :
    LoopM XClient Unit := do
  let w ← get
  match w.loop.callbackOf fd with
  | some (.connHandleEvent c) => XConnection.HandleEvent cbs.conn fuel c emask
  | some .connectorOnEventHandle => onEventHandle cbs fd emask rc
  | _ => return ()

def runPosted (cbs : ClientCallbacks) : LoopM XClient Unit := do
  let w ← get
  match w.ext.posted with
  | [] => return ()
  | f :: rest => do
      update fun x => { x with posted := rest }
      match f with
      | .beforeConnect => beforeConnect cbs
      | .closeConn c => XConnection.closeConn cbs.conn c
      | .setConnectionClosedCallBack c => setConnectionClosedCallBack c

def timerExpires (cbs : ClientCallbacks) : LoopM XClient Unit := do
  let w ← get
  match w.ext.retries with
  | 0 => return ()
  | retries + 1 => do
      update fun x => { x with retries := retries }
      onReConnect cbs

/-- A posted functor holds a pointer to its connection. -/
def ofConnection (c : ConnId) (call : LoopM XClient Unit) : LoopM XClient Unit := do
  let w ← get
  if c < w.ext.created then call else return ()

def clientInput (cbs : ClientCallbacks) (fuel : Nat) : ClientInput → LoopM XClient Unit
  | .act a => clientAct cbs a
  | .event fd emask rc => handleEvent cbs fuel fd emask rc
  | .runPosted => runPosted cbs
  | .onReConnect => timerExpires cbs
  | .closeConn c => ofConnection c (XConnection.closeConn cbs.conn c)
  | .sendMsgToBuffer c msg => ofConnection c (XConnection.sendMsgToBuffer cbs.conn c msg)

def runClient (depth fuel : Nat) (inputs : List ClientInput) : LoopM XClient Unit :=
  sequence (clientInput (clientCallbacks depth) fuel) inputs

/-- The constructor has run, on a loop of this program. -/
structure Constructed (w : World XClient) : Prop where
  client : w.ext.connectionPtr_ = none ∧ w.ext.lockHeld = false ∧ w.ext.destroyed = false
  connector : w.ext.reConnMs_ = 0 ∧ w.ext.status_ = XF_CONN_STATUS_UNKOWN ∧
    w.ext.attempts = [] ∧ w.ext.retries = 0
  created : w.ext.created = 0
  posted : w.ext.posted = []
  log : w.ext.log = []
  not_registered : ∀ fd, w.loop.callbackOf fd ≠ some .connectorOnEventHandle ∧
    ∀ c, w.loop.callbackOf fd ≠ some (.connHandleEvent c)
  loop : ∃ wakeupFd ops,
    (XLoop.create wakeupFd .wakeUpCallBack >>= (·.applyAll ops)) = .ok w.loop

/-- A new client on a new loop, whose wakeup descriptor is 9.  The user has
    set no callback but, perhaps, the closed callback. -/
def newClient (connCloseCb : Bool) (connects : List (Option Fd)) (reads : List (List ReadvResult))
    (scripts : List ClientScript) : World XClient where
  conns _ := XConnection.fresh 0 false false false
  loop :=
    { register_ := Function.update (fun _ => none) 9 (some ⟨XE_READABLE, 0, .wakeUpCallBack⟩)
      poller_ := Function.update (fun _ => none) 9 (some (XEpoller.epollMask XE_READABLE)) }
  errno := .other
  writes := []
  reads := reads
  script := []
  trace _ := []
  ext :=
    { isConnected_ := false
      connectionPtr_ := none
      lockHeld := false
      msgDecodeCb_ := false
      msgCommitCb_ := false
      sentBytesCb_ := false
      connCloseCb_ := connCloseCb
      connFinishedCb_ := false
      destroyed := false
      reConnMs_ := 0
      status_ := XF_CONN_STATUS_UNKOWN
      created := 0
      replaced := fun _ => false
      attempts := []
      retries := 0
      posted := []
      connects := connects
      scripts := scripts
      log := [] }

theorem constructed_newClient (connCloseCb : Bool) (connects : List (Option Fd))
    (reads : List (List ReadvResult)) (scripts : List ClientScript) :
    Constructed (newClient connCloseCb connects reads scripts) where
  client := ⟨rfl, rfl, rfl⟩
  connector := ⟨rfl, rfl, rfl, rfl⟩
  created := rfl
  posted := rfl
  log := rfl
  not_registered := by
    intro fd
    have hwakeup : ∀ handler, (newClient connCloseCb connects reads scripts).loop.callbackOf fd =
        some handler → handler = .wakeUpCallBack := by
      intro handler h
      simp only [XLoop.callbackOf, newClient, Function.update_apply] at h
      split at h
      · exact (Option.some.inj h).symm
      · cases h
    constructor
    · intro h
      cases hwakeup _ h
    · intro c h
      cases hwakeup _ h
  loop := ⟨9, [], rfl⟩

end XClient

end XFast
