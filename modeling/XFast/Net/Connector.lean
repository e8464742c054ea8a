import XFast.Base.InterestList
import XFast.Framework.Steps
import XFast.Net.Client
import XFast.Net.SockApi

/-! # xConnector and its attempts to connect

    Model of `net/connector.cpp` with the callback that `net/xclient.cpp`
    binds, over the registry of the loop and the descriptors of the process.
    The model of the client has its connector inside and counts the attempts;
    here they are told apart.

    A call of `doConnect` starts a chain of attempts; what the connector leaves
    behind for it is a functor in the mailbox, a registration or a timer.  None
    of them says which call it goes back to.  In the model each is labelled
    with its chain; no function looks at the label.

    The steps are those of the loop thread.  The functions call
    `connFinishedCb_` last, and that calls the user last: calls on the
    connector from within are steps of their own that come after.  A
    `doReConnect` in another thread is its three statements, a step each, with
    any steps in between.  An `xConnection` is constructed without an exception
    where there is a socket.  `startTimestamp_` is read by trace messages only
    and is left out. -/

namespace XFast

open Program SockApi XConnStatus

/-! ## Section 1: The connector -/

/-- A callback in the registry of the loop: `onEventHandle`, bound for an
    attempt of a chain, or something else. -/
inductive Watcher where
  | onEventHandle (chain : Nat)
  | other
  deriving DecidableEq, Repr

/-- An invocation of `connFinishedCb_`, with the object that its socket refers
    to, if it refers to one. -/
structure FinishCall where
  chain : Nat
  connSock : Option Nat
  errcode : Int
  deriving DecidableEq, Repr

/-- A connector with its loop and the descriptors of its process.  `posted` and
    `timers` have the chains of the functors in the mailbox and of the retry
    timers; `chains` counts the chains that have been started.

    The last four are a history: the invocations of the callback, the objects
    that `connectNonblock` gave, and those that the connector has deregistered
    and closed. -/
structure XConnector where
  reConnMs_ : Int
  status_ : XConnStatus
  loop_ : XLoop Watcher
  sock : SockWorld
  posted : List Nat
  timers : List Nat
  chains : Nat
  finishes : List FinishCall
  obtained : List Nat
  deregistered : List Nat
  closed : List Nat

abbrev ConnectorM (α : Type) := Program Halt XConnector α

/-- What the kernel answers while `connectNonblock` runs, and `errno` as
    `beforeConnect` reads it after a failure. -/
structure ConnectAnswers where
  answers : Answers
  getsockname : Bool
  errno : Int
  deriving DecidableEq, Repr

namespace XConnector

/-- The descriptors of the process. -/
abbrev table (w : XConnector) : Descriptors.Table Fd := w.sock.table

def onLoop (f : XLoop Watcher → Except Halt (XLoop Watcher)) : ConnectorM Unit := do
  let w ← get
  let loop ← lift (f w.loop_)
  modify fun w => { w with loop_ := loop }

def onSock {α : Type} (p : SockM α) : ConnectorM α :=
  zoom XConnector.sock (fun sock w => { w with sock := sock }) p

def setStatus (status : XConnStatus) : ConnectorM Unit :=
  modify fun w => { w with status_ := status }

/-- `loop_->remove(fd)`. -/
def remove (fd : Fd) : ConnectorM Unit := do
  modify fun w => { w with
    deregistered := w.deregistered ++
      if (w.loop_.callbackOf fd).isSome then (w.table.objectOf fd).toList else [] }
  onLoop (·.remove fd)

/-- `::close(fd)`. -/
def close (fd : Fd) : ConnectorM Unit := do
  modify fun w => { w with closed := w.closed ++ (w.table.objectOf fd).toList }
  onSock (SockApi.close fd)

/-! ## Section 2: The callback -/

/-- The constructor of an `xConnection` makes its socket non-blocking, which
    throws when there is none. -/
def newConnection (connSock : Fd) : ConnectorM Unit :=
  if connSock = INVALID_SOCK then throw .exception else return ()

/-- `xConnection::makeConnected`, up to the user's callback. -/
def makeConnected (connSock : Fd) : ConnectorM Unit :=
  onLoop (·.reg connSock 0 XE_READABLE .other)

/-- `xClient::connectedToServer`, up to the user's callback, with the
    descriptor that is left in `connSock`. -/
def connectedToServer (connSock : Fd) (errcode : Int) : ConnectorM Fd :=
  if errcode ≠ 0 then return connSock
  else do
    newConnection connSock
    makeConnected connSock
    return INVALID_SOCK

/-- `connFinishedCb_(std::move(connSock), localAddr, errcode)`, and then the
    destructor of the socket. -/
def connFinishedCb (chain : Nat) (connSock : Fd) (errcode : Int) : ConnectorM Unit := do
  modify fun w => { w with
    finishes := w.finishes ++ [⟨chain, w.table.objectOf connSock, errcode⟩] }
  let left ← connectedToServer connSock errcode
  if left ≠ INVALID_SOCK then close left else return ()

/-! ## Section 3: Attempts -/

/-- `xSocket::connectNonblock`, to an address of the family. -/
def connectNonblock (family : Int) (kernel : ConnectAnswers) : SockM Fd := do
  let fd ← tcpConnectAddr XFNET_CONNECT_NONBLOCK family kernel.answers kernel.getsockname
  if fd = XFNET_ERR then return INVALID_SOCK else return fd

def beforeConnect (family : Int) (chain : Nat) (kernel : ConnectAnswers) : ConnectorM Unit := do
  let fd ← onSock (connectNonblock family kernel)
  if fd = INVALID_SOCK then do
    setStatus XF_CONN_STATUS_UNKOWN
    connFinishedCb chain INVALID_SOCK kernel.errno
  else do
    modify fun w => { w with obtained := w.obtained ++ (w.table.objectOf fd).toList }
    setStatus XF_CONN_STATUS_CONNECTING
    onLoop (·.reg fd 0 XE_WRITABLE (.onEventHandle chain))

def connectOnError (chain : Nat) (fd : Fd) : ConnectorM Unit := do
  setStatus XF_CONN_STATUS_DISCONNECTED
  remove fd
  close fd
  let w ← get
  if w.reConnMs_ < XClient.ReConnMaxTimeMs then
    -- `runAfter(ReConnntervalMs, onReConnect)`
    modify fun w => { w with timers := w.timers ++ [chain] }
  else
    connFinishedCb chain INVALID_SOCK (-7)

def connectOnSucc (chain : Nat) (fd : Fd) : ConnectorM Unit := do
  setStatus XF_CONN_STATUS_CONNECTED
  connFinishedCb chain fd 0

/-- `onEventHandle`; `rc` is the error that the socket has. -/
def onEventHandle (chain : Nat) (fd : Fd) (emask : Mask) (rc : Int) : ConnectorM Unit := do
  let w ← get
  if emask &&& XE_ERROR ≠ 0 ∨ emask &&& XE_HUP ≠ 0 ∨
      w.status_ = XF_CONN_STATUS_DISCONNECTED then
    connectOnError chain fd
  else if emask &&& XE_WRITABLE ≠ 0 then
    if rc ≠ 0 then connectOnError chain fd else connectOnSucc chain fd
  else
    return ()

def onReConnect (family : Int) (chain : Nat) (kernel : ConnectAnswers) : ConnectorM Unit := do
  modify fun w => { w with reConnMs_ := toInt32 (w.reConnMs_ + XClient.ReConnntervalMs) }
  beforeConnect family chain kernel

/-! ## Section 4: Calls -/

/-- A call of `doConnect` begins. -/
def startChain : ConnectorM Nat := do
  let w ← get
  modify fun w => { w with chains := w.chains + 1 }
  return w.chains

/-- `doConnect` in the loop thread, where `scheduleToLoopThread` calls the
    functor. -/
def doConnect (family : Int) (kernel : ConnectAnswers) : ConnectorM Unit := do
  let chain ← startChain
  beforeConnect family chain kernel

/-- `doConnect` in another thread, which posts it. -/
def otherDoConnect : ConnectorM Unit := do
  let chain ← startChain
  modify fun w => { w with posted := w.posted ++ [chain] }

def resetReConnMs : ConnectorM Unit := modify fun w => { w with reConnMs_ := 0 }

def doReConnect (family : Int) (kernel : ConnectAnswers) : ConnectorM Unit := do
  resetReConnMs
  setStatus XF_CONN_STATUS_UNKOWN
  doConnect family kernel

/-! ## Section 5: The loop -/

/-- `xLoop::process`, for an event on a descriptor. -/
def handleEvent (fd : Fd) (emask : Mask) (rc : Int) : ConnectorM Unit := do
  let w ← get
  match w.loop_.callbackOf fd with
  | some (.onEventHandle chain) => onEventHandle chain fd emask rc
  | _ => return ()

/-- The functor at the head of the mailbox is run. -/
def runPosted (family : Int) (kernel : ConnectAnswers) : ConnectorM Unit := do
  let w ← get
  match w.posted with
  | [] => return ()
  | chain :: rest => do
      modify fun w => { w with posted := rest }
      beforeConnect family chain kernel

/-- A timer expires. -/
def timerExpires (family : Int) (chain : Nat) (kernel : ConnectAnswers) : ConnectorM Unit := do
  let w ← get
  if chain ∈ w.timers then do
    modify fun w => { w with timers := w.timers.erase chain }
    onReConnect family chain kernel
  else
    throw .infeasible

/-! ## Section 6: Everything else in the process -/

/-- The descriptor is open and not one of an attempt. -/
def IsOther (w : XConnector) (fd : Fd) : Prop :=
  w.table.IsOpen fd ∧ ∀ chain, w.loop_.callbackOf fd ≠ some (.onEventHandle chain)

instance (w : XConnector) (fd : Fd) :
    Decidable (∀ chain, w.loop_.callbackOf fd ≠ some (.onEventHandle chain)) :=
  match w.loop_.callbackOf fd with
  | some (.onEventHandle chain) => isFalse fun hne => hne chain rfl
  | some .other => isTrue fun _ => nofun
  | none => isTrue fun _ => nofun

instance (w : XConnector) (fd : Fd) : Decidable (w.IsOther fd) :=
  inferInstanceAs (Decidable (_ ∧ _))

/-- Other code gets a new descriptor. -/
def otherOpens (fd : Fd) : ConnectorM Unit := do
  let w ← get
  if fd < 0 ∨ w.table.IsOpen fd then throw .infeasible
  else onSock (modify fun sock => { sock with table := sock.table.acquire fd })

/-- Other code, such as a connection that was given its socket, calls an
    operation of the registry for a descriptor of its own. -/
def otherRegistry (op : RegistryOp Unit) : ConnectorM Unit := do
  let w ← get
  if w.IsOther op.fd then onLoop (·.apply (op.map fun _ => .other))
  else throw .infeasible

/-- Other code closes a descriptor of its own, which it has deregistered. -/
def otherCloses (fd : Fd) : ConnectorM Unit := do
  let w ← get
  if w.table.IsOpen fd ∧ w.loop_.callbackOf fd = none then onSock (SockApi.close fd)
  else throw .infeasible

/-! ## Section 7: Runs -/

inductive Input where
  /-- The loop thread calls, from inside a callback or not. -/
  | doConnect (kernel : ConnectAnswers)
  | doReConnect (kernel : ConnectAnswers)
  /-- Another thread calls `doConnect`, which is also the last statement of its
      `doReConnect`. -/
  | otherDoConnect
  /-- The two statements before it. -/
  | otherReConnMs
  | otherStatus
  /-- The loop runs the next functor of its mailbox. -/
  | runPosted (kernel : ConnectAnswers)
  /-- The poller reports an event on a descriptor, whose socket has the error
      `rc`. -/
  | event (fd : Fd) (emask : Mask) (rc : Int)
  /-- A retry timer of the chain expires. -/
  | timer (chain : Nat) (kernel : ConnectAnswers)
  | otherOpens (fd : Fd)
  | otherRegistry (op : RegistryOp Unit)
  | otherCloses (fd : Fd)

/-- A call of `doConnect` or `doReConnect`. -/
def Input.isCall : Input → Bool
  | .doConnect _ | .doReConnect _ | .otherDoConnect => true
  | .otherReConnMs | .otherStatus | .runPosted _ | .event _ _ _ | .timer _ _ | .otherOpens _
  | .otherRegistry _ | .otherCloses _ => false

/-- What the connector of a server with an address of the family does. -/
def input (family : Int) : Input → ConnectorM Unit
  | .doConnect kernel => doConnect family kernel
  | .doReConnect kernel => doReConnect family kernel
  | .otherDoConnect => otherDoConnect
  | .otherReConnMs => resetReConnMs
  | .otherStatus => setStatus XF_CONN_STATUS_UNKOWN
  | .runPosted kernel => runPosted family kernel
  | .event fd emask rc => handleEvent fd emask rc
  | .timer chain kernel => timerExpires family chain kernel
  | .otherOpens fd => otherOpens fd
  | .otherRegistry op => otherRegistry op
  | .otherCloses fd => otherCloses fd

/-- A step of a run that goes on. -/
def step (family : Int) (w : XConnector) (i : Input) : Option XConnector :=
  match (input family i).run w with
  | .ok _ w' => some w'
  | .error _ _ => none

/-- The constructor has run, on a loop of this program: what is registered is
    open, and is something else. -/
structure Constructed (w : XConnector) : Prop where
  connector : w.reConnMs_ = 0 ∧ w.status_ = XF_CONN_STATUS_UNKOWN ∧ w.chains = 0
  nothing_pending : w.posted = [] ∧ w.timers = []
  no_history : w.finishes = [] ∧ w.obtained = [] ∧ w.deregistered = [] ∧ w.closed = []
  table : w.table.Sound
  numbers : ∀ fd, w.table.IsOpen fd → 0 ≤ fd
  registered : ∀ fd callback, w.loop_.callbackOf fd = some callback →
    w.table.IsOpen fd ∧ callback = .other
  loop : ∃ wakeupFd ops, (XLoop.create wakeupFd .other >>= (·.applyAll ops)) = .ok w.loop_

/-- A new connector on a new loop, whose wakeup descriptor is 9. -/
def newConnector : XConnector where
  reConnMs_ := 0
  status_ := XF_CONN_STATUS_UNKOWN
  loop_ :=
    { register_ := Function.update (fun _ => none) 9 (some ⟨XE_READABLE, 0, .other⟩)
      poller_ := Function.update (fun _ => none) 9 (some (XEpoller.epollMask XE_READABLE)) }
  sock :=
    { table := { entries := [(9, 0)], created := 1, closed := [], stray := [] }
      sockets := []
      err := ""
      localAddr := none }
  posted := []
  timers := []
  chains := 0
  finishes := []
  obtained := []
  deregistered := []
  closed := []

theorem constructed_newConnector : Constructed newConnector where
  connector := ⟨rfl, rfl, rfl⟩
  nothing_pending := ⟨rfl, rfl⟩
  no_history := ⟨rfl, rfl, rfl, rfl⟩
  table := ⟨by decide, by decide⟩
  numbers := by
    intro fd hopen
    have hfd : fd = 9 := List.mem_singleton.mp hopen
    rw [hfd]
    decide
  registered := by
    intro fd callback hcallback
    simp only [XLoop.callbackOf, newConnector, Function.update_apply] at hcallback
    split at hcallback
    · rename_i hfd
      rw [hfd]
      exact ⟨by decide, (Option.some.inj hcallback).symm⟩
    · cases hcallback
  loop := ⟨9, [], rfl⟩

end XConnector

end XFast
