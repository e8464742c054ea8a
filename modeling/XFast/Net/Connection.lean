import XFast.Base.XLoop
import XFast.Framework.Program
import XFast.Net.BufferRefinement

/-! # xConnection

    Model of `net/connection.cpp` and `net/include/connection.h`, in the loop
    thread.  A connection function is a program over the world that the loop
    thread sees: the connections, the registry of the loop, what the kernel
    will answer, and what the user's callbacks will do.

    The callbacks of a connection are parameters.  They run inline and may
    call back into the connection; `userCallbacks` gives them the behaviour
    that a script prescribes, nested to any depth.

    The world also keeps a trace for each connection: which callbacks were
    invoked, what was appended, what the kernel took.  No function reads it. -/

namespace XFast

open Program

/-! ## Section 1: The world of the loop thread -/

abbrev ConnId : Type := Nat

inductive XConnStatus where
  | XF_CONN_STATUS_UNKOWN
  | XF_CONN_STATUS_CONNECTING
  | XF_CONN_STATUS_CONNECTED
  | XF_CONN_STATUS_TIMEOUT
  | XF_CONN_STATUS_DISCONNECTING
  | XF_CONN_STATUS_DISCONNECTED
  deriving DecidableEq, Repr

open XConnStatus

/-- `closeConn` has run. -/
def XConnStatus.Closed (status : XConnStatus) : Prop :=
  status = XF_CONN_STATUS_DISCONNECTED ∨ status = XF_CONN_STATUS_DISCONNECTING

instance (status : XConnStatus) : Decidable status.Closed :=
  inferInstanceAs (Decidable (_ ∨ _))

/-- A connection.  Of `sentBytesCb_`, `decodeCb_` and `connCloseCb_` it is
    recorded here whether they are set; what they do is in `Callbacks`. -/
structure XConnection where
  connStatus_ : XConnStatus
  writeEnabled_ : Bool
  sock_ : Fd
  readBuff_ : XBuffer
  writeBuff_ : XBuffer
  sentBytesCb_ : Bool
  decodeCb_ : Bool
  connCloseCb_ : Bool
  deriving DecidableEq, Repr

/-- The constructor, up to `setNonBlock`. -/
def XConnection.new (sock : Fd) (sentBytesCb decodeCb connCloseCb : Bool) :
    Except Halt XConnection := do
  let readBuff ← XBuffer.new XBuffer.kInitialSize
  let writeBuff ← XBuffer.new XBuffer.kInitialSize
  return ⟨XF_CONN_STATUS_CONNECTING, false, sock, readBuff, writeBuff, sentBytesCb, decodeCb,
    connCloseCb⟩

/-- What can be registered in the loop. -/
inductive Handler where
  | wakeUpCallBack
  | listenerHandleEvent
  | connectorOnEventHandle
  | connHandleEvent (c : ConnId)
  deriving DecidableEq, Repr

/-- What happens on a connection, as seen from outside. -/
inductive ConnEvent where
  /-- A message is appended to `writeBuff_`. -/
  | append (msg : List UInt8)
  /-- `writeFd` ran with these outcomes; the kernel took `accepted`, and
      `writeEnabled_` had this value. -/
  | flush (writeEnabled : Bool) (outs : List WriteOutcome) (accepted : List UInt8)
  /-- The loop is asked to take the writable event away. -/
  | disarm
  /-- `sentBytesCb_` is invoked. -/
  | sentBytes (bytes : Nat)
  /-- `decodeCb_` is invoked. -/
  | decode
  /-- `decodeCb_` returns. -/
  | decodeReturn (ret : Int)
  /-- `msgCommitCb_` is invoked with a buffer. -/
  | msgCommit (frame : List UInt8)
  /-- `msgCommitCb_` returns; so many bytes are left in `readBuff_`. -/
  | commitReturn (left : Nat)
  /-- `connFinishCb_` is invoked. -/
  | connFinish
  /-- `connCloseCb_` is invoked. -/
  | connClose
  deriving DecidableEq, Repr

/-- What a user callback does with the connection it is invoked for. -/
inductive UserAct where
  | sendMsg (msg : List UInt8)
  | closeConnection
  deriving DecidableEq, Repr

/-- One invocation of a user callback: its calls, in order, whether it ends
    with a `std::exception`, and what it returns if it is a decoder. -/
structure CbScript where
  acts : List UserAct
  throws : Bool
  ret : Int
  deriving DecidableEq, Repr

/-- The world of the loop thread.  `writes` has the outcomes of the `::write`
    calls, a list for each call of `writeFd`; `reads` has the results of the
    `::readv` calls, a list for each call of `readMsg`; `script` has what the
    user's callbacks do, an entry for each invocation.  `ext` is whatever else
    there is, such as a server. -/
structure World (σ : Type) where
  conns : ConnId → XConnection
  loop : XLoop Handler
  errno : Errno
  writes : List (List WriteOutcome)
  reads : List (List ReadvResult)
  script : List CbScript
  trace : ConnId → List ConnEvent
  ext : σ

/-- Programs of the loop thread. -/
abbrev LoopM (σ α : Type) := Program Halt (World σ) α

variable {σ : Type}

/-- The callbacks that a connection holds. -/
structure Callbacks (σ : Type) where
  decodeCb_ : ConnId → (buffer : List UInt8) → (buffLen : Int) → LoopM σ Int
  msgCommitCb_ : ConnId → XBuffer → LoopM σ Unit
  sentBytesCb_ : ConnId → (bytes : Nat) → LoopM σ Unit
  connCloseCb_ : ConnId → LoopM σ Unit
  connFinishCb_ : ConnId → LoopM σ Unit

/-- What `catch(const std::exception&)` catches. -/
def isException (h : Halt) : Bool := h = .exception

theorem eq_of_isException {e : Halt} (h : isException e) : e = .exception := by
  simpa [isException] using h

/-! ## Section 2: Access to the world -/

namespace World

def setConn (w : World σ) (c : ConnId) (x : XConnection) : World σ :=
  { w with conns := Function.update w.conns c x }

def log (w : World σ) (c : ConnId) (e : ConnEvent) : World σ :=
  { w with trace := Function.update w.trace c (w.trace c ++ [e]) }

@[simp] theorem setConn_self (w : World σ) (c : ConnId) (x : XConnection) :
    (w.setConn c x).conns c = x := Function.update_self ..

@[simp] theorem setConn_ne (w : World σ) {c d : ConnId} (x : XConnection) (h : d ≠ c) :
    (w.setConn c x).conns d = w.conns d := Function.update_of_ne h ..

@[simp] theorem setConn_loop (w : World σ) (c : ConnId) (x : XConnection) :
    (w.setConn c x).loop = w.loop := rfl

@[simp] theorem setConn_errno (w : World σ) (c : ConnId) (x : XConnection) :
    (w.setConn c x).errno = w.errno := rfl

@[simp] theorem setConn_writes (w : World σ) (c : ConnId) (x : XConnection) :
    (w.setConn c x).writes = w.writes := rfl

@[simp] theorem setConn_reads (w : World σ) (c : ConnId) (x : XConnection) :
    (w.setConn c x).reads = w.reads := rfl

@[simp] theorem setConn_trace (w : World σ) (c : ConnId) (x : XConnection) :
    (w.setConn c x).trace = w.trace := rfl

@[simp] theorem setConn_ext (w : World σ) (c : ConnId) (x : XConnection) :
    (w.setConn c x).ext = w.ext := rfl

@[simp] theorem log_self (w : World σ) (c : ConnId) (e : ConnEvent) :
    (w.log c e).trace c = w.trace c ++ [e] := Function.update_self ..

@[simp] theorem log_conns (w : World σ) (c : ConnId) (e : ConnEvent) :
    (w.log c e).conns = w.conns := rfl

@[simp] theorem log_loop (w : World σ) (c : ConnId) (e : ConnEvent) :
    (w.log c e).loop = w.loop := rfl

@[simp] theorem log_errno (w : World σ) (c : ConnId) (e : ConnEvent) :
    (w.log c e).errno = w.errno := rfl

@[simp] theorem log_writes (w : World σ) (c : ConnId) (e : ConnEvent) :
    (w.log c e).writes = w.writes := rfl

@[simp] theorem log_reads (w : World σ) (c : ConnId) (e : ConnEvent) :
    (w.log c e).reads = w.reads := rfl

@[simp] theorem log_ext (w : World σ) (c : ConnId) (e : ConnEvent) :
    (w.log c e).ext = w.ext := rfl

end World

namespace XConnection

/-- Append an event to the trace of a connection. -/
def emit (c : ConnId) (e : ConnEvent) : LoopM σ Unit :=
  modify fun w => w.log c e

/-- An operation on `writeBuff_`. -/
def onWriteBuff (c : ConnId) (f : XBuffer → Except Halt XBuffer) : LoopM σ Unit := do
  let w ← get
  let b ← lift (f (w.conns c).writeBuff_)
  modify fun w => w.setConn c { w.conns c with writeBuff_ := b }

/-- An operation on `readBuff_`. -/
def onReadBuff (c : ConnId) (f : XBuffer → Except Halt XBuffer) : LoopM σ Unit := do
  let w ← get
  let b ← lift (f (w.conns c).readBuff_)
  modify fun w => w.setConn c { w.conns c with readBuff_ := b }

/-- An operation of the loop. -/
def onLoop (f : XLoop Handler → Except Halt (XLoop Handler)) : LoopM σ Unit := do
  let w ← get
  let loop ← lift (f w.loop)
  modify fun w => { w with loop := loop }

/-- The outcomes of the next call of `writeFd`. -/
def nextWrites : LoopM σ (List WriteOutcome) :=
  nextAnswer (·.writes) (fun rest w => { w with writes := rest }) .infeasible

/-- The results of the `::readv` calls of the next call of `readMsg`. -/
def nextReads : LoopM σ (List ReadvResult) :=
  nextAnswer (·.reads) (fun rest w => { w with reads := rest }) .infeasible

/-! ## Section 3: Sending -/

/-- `xSockApi::writeFd(sock_.getFd(), writeBuff_.peek(), (int)writeBuff_.readableBytes())`. -/
def writeFd (c : ConnId) : LoopM σ Int := do
  let outs ← nextWrites
  let w ← get
  let x := w.conns c
  let r ← lift (FileApi.writeFd outs x.writeBuff_.peek (toInt32 x.writeBuff_.readableBytes))
  modify fun w => { w with errno := r.errno.getD w.errno }
  emit c (.flush x.writeEnabled_ outs r.accepted)
  return r.ret

/-- The end of `sendMsg`: ask the loop for the writable event when a backlog
    is left, and take it away when none is. -/
def updateWriteEvent (c : ConnId) : LoopM σ Unit := do
  let w ← get
  let x := w.conns c
  -- the source has two `if`s in a row; the second one looks at a flag that the
  -- first one has just set, so at most one of them is taken
  if x.writeBuff_.readableBytes ≠ 0 ∧ x.writeEnabled_ = false then do
    onLoop (·.addEvent x.sock_ XE_WRITABLE)
    modify fun w => w.setConn c { w.conns c with writeEnabled_ := true }
  else if x.writeBuff_.readableBytes = 0 ∧ x.writeEnabled_ = true then do
    emit c .disarm
    onLoop (·.removeEvent x.sock_ XE_WRITABLE)
    modify fun w => w.setConn c { w.conns c with writeEnabled_ := false }
  else
    return ()

/-- The call of `sentBytesCb_` in `sendMsg`. -/
def callSentBytes (cbs : Callbacks σ) (c : ConnId) (sent : Nat) : LoopM σ Unit := do
  let w ← get
  if (w.conns c).sentBytesCb_ then do
    emit c (.sentBytes sent)
    catching isException (cbs.sentBytesCb_ c sent) (pure ())
  else
    return ()

/-- `sendMsg` from the write to `moveOver`: what was sent leaves `writeBuff_`,
    unless the write failed. -/
def flushBacklog (c : ConnId) : LoopM σ Int := do
  let sent ← writeFd c
  if sent < 0 then
    -- whatever `writeFd` has written before the error stays in `writeBuff_`
    return sent
  else do
    onWriteBuff c (·.moveOver (toSize sent))
    return sent

/-- `sendMsg()`, called by the descriptor event and by `sendMsgToBuffer`. -/
def sendMsg (cbs : Callbacks σ) (c : ConnId) : LoopM σ Int := do
  let w ← get
  if (w.conns c).connStatus_ ≠ XF_CONN_STATUS_CONNECTED then
    return -1
  else if (w.conns c).writeBuff_.readableBytes ≠ 0 then do
    -- there is something to send
    let sent ← flushBacklog c
    if sent < 0 then do
      -- on `EAGAIN` the source returns without asking for the writable event
      let w ← get
      return if w.errno = .EAGAIN then 0 else -1
    else do
      callSentBytes cbs c (toSize sent)
      updateWriteEvent c
      return sent
  else do
    updateWriteEvent c
    return 0

/-- `writeBuff_.append(msg)` in `sendMsgToBuffer`. -/
def appendMsg (c : ConnId) (msg : List UInt8) : LoopM σ Unit := do
  onWriteBuff c (·.append msg)
  emit c (.append msg)

def sendMsgToBuffer (cbs : Callbacks σ) (c : ConnId) (msg : List UInt8) : LoopM σ Unit := do
  appendMsg c msg
  let _ ← sendMsg cbs c

/-- `sendMsg(const string& buffer)` in the loop thread. -/
def sendMsgString (cbs : Callbacks σ) (c : ConnId) (buffer : List UInt8) : LoopM σ Unit := do
  let w ← get
  if (w.conns c).connStatus_ ≠ XF_CONN_STATUS_CONNECTED then
    return ()
  else
    sendMsgToBuffer cbs c buffer

/-! ## Section 4: Closing -/

/-- `closeConn` up to the callback; says whether the callback is called. -/
def beginClose (c : ConnId) : LoopM σ Bool := do
  let w ← get
  let x := w.conns c
  if x.connStatus_ = XF_CONN_STATUS_DISCONNECTED ∨
      x.connStatus_ = XF_CONN_STATUS_DISCONNECTING then
    return false
  else do
    -- the status comes first: a close from inside the callback does nothing
    modify fun w => w.setConn c { w.conns c with connStatus_ := XF_CONN_STATUS_DISCONNECTING }
    onLoop (·.remove x.sock_)
    if x.connCloseCb_ then do
      emit c .connClose
      return true
    else
      return false

def closeConn (cbs : Callbacks σ) (c : ConnId) : LoopM σ Unit := do
  let call ← beginClose c
  if call then
    catching isException (cbs.connCloseCb_ c) (pure ())
  else
    return ()

/-- `closeConnection()` in the loop thread. -/
def closeConnection (cbs : Callbacks σ) (c : ConnId) : LoopM σ Unit := do
  let w ← get
  if (w.conns c).connStatus_ ≠ XF_CONN_STATUS_CONNECTED then
    return ()
  else
    closeConn cbs c

def setClosed (c : ConnId) : LoopM σ Unit :=
  modify fun w => w.setConn c { w.conns c with connStatus_ := XF_CONN_STATUS_DISCONNECTED }

/-! ## Section 5: Receiving -/

def XF_MSG_DECODE_ERR : Int := -1
def XF_MSG_DECODE_NOT_ENOUGH : Int := -2

/-- `decodeCb_(readBuff_.peek(), bufferSize)`, whose result is an `int`. -/
def decode (cbs : Callbacks σ) (c : ConnId) (bufferSize : Int) : LoopM σ Int := do
  emit c .decode
  let w ← get
  let ret ← cbs.decodeCb_ c (w.conns c).readBuff_.peek bufferSize
  emit c (.decodeReturn (toInt32 ret))
  return toInt32 ret

/-- The last branch of the parse loop up to the callback: copy `ret` bytes
    into a new buffer and move over them. -/
def takeFrame (c : ConnId) (ret : Int) : LoopM σ XBuffer := do
  let commitBuffer ← lift (XBuffer.new (toSize ret))
  let w ← get
  let commitBuffer ← lift (commitBuffer.appendMem (w.conns c).readBuff_.peek (toSize ret))
  onReadBuff c (·.moveOver (toSize ret))
  emit c (.msgCommit commitBuffer.readable)
  return commitBuffer

/-- `msgCommitCb_(shared_from_this(), commitBuffer)`. -/
def commit (cbs : Callbacks σ) (c : ConnId) (commitBuffer : XBuffer) : LoopM σ Unit := do
  cbs.msgCommitCb_ c commitBuffer
  let w ← get
  emit c (.commitReturn (w.conns c).readBuff_.readableBytes)

/-- The loop of `parseProtocol`, for at most `fuel` iterations. -/
def parseLoop (cbs : Callbacks σ) (c : ConnId) : (fuel : Nat) → LoopM σ Unit
  | 0 => throw .outOfFuel
  | fuel + 1 => do
      let w ← get
      if (w.conns c).readBuff_.readableBytes = 0 then
        return ()
      else do
        let bufferSize := toInt32 (w.conns c).readBuff_.readableBytes
        let ret ← decode cbs c bufferSize
        if ret = XF_MSG_DECODE_ERR then
          onReadBuff c (fun b => .ok b.reset)
        else if ret = XF_MSG_DECODE_NOT_ENOUGH then
          return ()
        else do
          -- any other result is a length; neither it nor the status of the
          -- connection is looked at again before the next iteration
          let commitBuffer ← takeFrame c (if ret > bufferSize then bufferSize else ret)
          commit cbs c commitBuffer
          parseLoop cbs c fuel

def parseProtocol (cbs : Callbacks σ) (fuel : Nat) (c : ConnId) : LoopM σ Unit := do
  let w ← get
  if (w.conns c).decodeCb_ then
    catching isException (parseLoop cbs c fuel) (onReadBuff c fun b => .ok b.reset)
  else
    return ()

/-- Linux moves no more bytes than that in one call. -/
def MAX_RW_COUNT : Nat := 0x7ffff000

/-- The loop of `readMsg`, over the results of its `::readv` calls.  It ends
    with `some readSize` on `EAGAIN`, with `none` where `readMsg` returns -1,
    and with the `errno` that the last call set.

    The source writes a line to its log between a failed `::readv` and the test
    of `errno`; the model assumes that logging leaves `errno` alone. -/
def readLoop : List ReadvResult → (readSize : Int) → XBuffer →
    Except Halt (Option Int × Option Errno × XBuffer)
  | [], _, _ => .error .infeasible
  | r :: rest, readSize, b => do
      let (n, b) ← b.fillFromFd r
      match r with
      -- the loop is left on an error and at end of stream, so these come last
      | .fail e =>
          if rest ≠ [] then .error .infeasible
          else if e = .EAGAIN then return (some readSize, some e, b)
          else return (none, some e, b)
      | .bytes [] =>
          if rest ≠ [] then .error .infeasible
          else return (none, none, b)
      -- `n` is positive, as no result has 2^31 bytes
      | .bytes (x :: d) =>
          if MAX_RW_COUNT < (x :: d).length then .error .infeasible
          else readLoop rest (toInt32 (readSize + n)) b

/-- The read loop of `readMsg` on the connection's own buffer. -/
def readAvailable (c : ConnId) : LoopM σ (Option Int) := do
  let outs ← nextReads
  let w ← get
  let (size, errno, b) ← lift (readLoop outs 0 (w.conns c).readBuff_)
  modify fun w => { w.setConn c { w.conns c with readBuff_ := b } with
    errno := errno.getD w.errno }
  return size

/-- `readMsg()`, on the same assumption about the log. -/
def readMsg (cbs : Callbacks σ) (fuel : Nat) (c : ConnId) : LoopM σ Int := do
  let size ← readAvailable c
  match size with
  -- an error or end of stream: what has been read is not parsed
  | none => return -1
  | some readSize =>
      if readSize > 0 then do
        parseProtocol cbs fuel c
        return readSize
      else
        return readSize

/-! ## Section 6: Events of the loop -/

/-- The writable branch of `HandleEvent`. -/
def handleWritable (cbs : Callbacks σ) (c : ConnId) (emask : Mask) : LoopM σ Unit := do
  if emask &&& XE_WRITABLE ≠ 0 then do
    let ret ← sendMsg cbs c
    if ret < 0 then closeConn cbs c else return ()
  else
    return ()

def HandleEvent (cbs : Callbacks σ) (fuel : Nat) (c : ConnId) (emask : Mask) :
    LoopM σ Unit := do
  if emask &&& XE_ERROR ≠ 0 ∨ emask &&& XE_HUP ≠ 0 then
    closeConn cbs c
  else if emask &&& XE_READABLE ≠ 0 then do
    -- the readable branch comes first; the writable one only if it went well
    let ret ← readMsg cbs fuel c
    if ret < 0 then closeConn cbs c else handleWritable cbs c emask
  else
    handleWritable cbs c emask

/-- `makeConnected` up to the callback, with `RegistReadEvent`. -/
def beginConnected (c : ConnId) : LoopM σ Unit := do
  let w ← get
  modify fun w => w.setConn c { w.conns c with connStatus_ := XF_CONN_STATUS_CONNECTED }
  onLoop (·.reg (w.conns c).sock_ 0 XE_READABLE (.connHandleEvent c))
  emit c .connFinish

def makeConnected (cbs : Callbacks σ) (c : ConnId) : LoopM σ Unit := do
  beginConnected c
  cbs.connFinishCb_ c

/-- One iteration of the event loop in `xLoop::process`: the callback of the
    descriptor is looked up, and called when it is `HandleEvent` of this
    connection.  The callbacks of other registrations are not part of its run. -/
def dispatch (cbs : Callbacks σ) (fuel : Nat) (c : ConnId) (fd : Fd) (emask : Mask) :
    LoopM σ Unit := do
  let w ← get
  if w.loop.callbackOf fd = some (.connHandleEvent c) then
    HandleEvent cbs fuel c emask
  else
    return ()

/-! ## Section 7: The user's callbacks -/

/-- What the next user callback does. -/
def nextScript : LoopM σ CbScript :=
  nextAnswer (·.script) (fun rest w => { w with script := rest }) .infeasible

def userAct (cbs : Callbacks σ) (c : ConnId) : UserAct → LoopM σ Unit
  | .sendMsg msg => sendMsgString cbs c msg
  | .closeConnection => closeConnection cbs c

/-- A user callback that follows the script; what it calls back into uses
    `cbs`. -/
def userCallback (cbs : Callbacks σ) (c : ConnId) : LoopM σ Int := do
  let s ← nextScript
  sequence (userAct cbs c) s.acts
  -- it may throw at its end; a throw before some of its calls is a shorter script
  if s.throws then throw .exception else return s.ret

/-- The same for a callback without a result. -/
def userCallbackUnit (cbs : Callbacks σ) (c : ConnId) : LoopM σ Unit := do
  let _ ← userCallback cbs c

/-- Callbacks that all follow the script, nested at most `depth` deep. -/
def userCallbacks : (depth : Nat) → Callbacks σ
  | 0 =>
      { decodeCb_ := fun _ _ _ => throw .outOfFuel
        msgCommitCb_ := fun _ _ => throw .outOfFuel
        sentBytesCb_ := fun _ _ => throw .outOfFuel
        connCloseCb_ := fun _ => throw .outOfFuel
        connFinishCb_ := fun _ => throw .outOfFuel }
  | depth + 1 =>
      { decodeCb_ := fun c _ _ => userCallback (userCallbacks depth) c
        msgCommitCb_ := fun c _ => userCallbackUnit (userCallbacks depth) c
        sentBytesCb_ := fun c _ => userCallbackUnit (userCallbacks depth) c
        connCloseCb_ := fun c => userCallbackUnit (userCallbacks depth) c
        connFinishCb_ := fun c => userCallbackUnit (userCallbacks depth) c }

/-! ## Section 8: Runs of one connection -/

/-- What reaches a connected connection in the loop thread. -/
inductive Input where
  /-- `sendMsg(const string&)` is called. -/
  | sendMsg (msg : List UInt8)
  /-- A `sendMsgToBuffer` posted by another thread is run. -/
  | sendMsgToBuffer (msg : List UInt8)
  /-- `closeConnection()` is called. -/
  | closeConnection
  /-- A `closeConn` posted by another thread or by a timer is run. -/
  | closeConn
  /-- The poller reports an event. -/
  | event (fd : Fd) (emask : Mask)
  deriving DecidableEq, Repr

/-- One input.  A `std::exception` that leaves it is caught by the caller. -/
def input (cbs : Callbacks σ) (fuel : Nat) (c : ConnId) (i : Input) : LoopM σ Unit :=
  catching isException
    (match i with
      | .sendMsg msg => sendMsgString cbs c msg
      | .sendMsgToBuffer msg => sendMsgToBuffer cbs c msg
      | .closeConnection => closeConnection cbs c
      | .closeConn => closeConn cbs c
      | .event fd emask => dispatch cbs fuel c fd emask)
    (pure ())

/-- A run: the connection is made, then the inputs come. -/
def runConnection (cbs : Callbacks σ) (fuel : Nat) (c : ConnId) (inputs : List Input) :
    LoopM σ Unit := do
  catching isException (makeConnected cbs c) (pure ())
  sequence (input cbs fuel c) inputs

/-- The world in which a run from `w₀` ends, however it ends. -/
def endOfRun (depth fuel : Nat) (c : ConnId) (inputs : List Input) (w₀ : World σ) : World σ :=
  finalState ((runConnection (userCallbacks depth) fuel c inputs).run w₀)

end XConnection

/-- Before the run the connection is constructed and nothing has happened on
    it; its descriptor is not registered. -/
structure Initial (c : ConnId) (w : World σ) : Prop where
  constructed : ∃ sock sentBytesCb decodeCb connCloseCb,
    XConnection.new sock sentBytesCb decodeCb connCloseCb = .ok (w.conns c)
  no_trace : w.trace c = []
  not_registered : ∀ fd, w.loop.callbackOf fd ≠ some (.connHandleEvent c)

/-- The connection that the constructor builds. -/
def XConnection.fresh (sock : Fd) (sentBytesCb decodeCb connCloseCb : Bool) : XConnection :=
  ⟨XF_CONN_STATUS_CONNECTING, false, sock, XBuffer.fresh XBuffer.kInitialSize,
    XBuffer.fresh XBuffer.kInitialSize, sentBytesCb, decodeCb, connCloseCb⟩

theorem XConnection.new_eq (sock : Fd) (sentBytesCb decodeCb connCloseCb : Bool) :
    XConnection.new sock sentBytesCb decodeCb connCloseCb =
      .ok (XConnection.fresh sock sentBytesCb decodeCb connCloseCb) := by
  have hbuff : XBuffer.new XBuffer.kInitialSize = .ok (XBuffer.fresh XBuffer.kInitialSize) :=
    XBuffer.new_eq (by decide)
  unfold XConnection.new
  rw [hbuff]
  rfl

/-- A world in which every connection is just constructed, on the descriptor
    of its own number, and nothing is registered. -/
def World.start (sentBytesCb decodeCb connCloseCb : Bool) (writes : List (List WriteOutcome))
    (reads : List (List ReadvResult)) (script : List CbScript) : World Unit where
  conns c := XConnection.fresh c sentBytesCb decodeCb connCloseCb
  loop := ⟨fun _ => none, fun _ => none⟩
  errno := .other
  writes := writes
  reads := reads
  script := script
  trace _ := []
  ext := ()

theorem World.initial_start (sentBytesCb decodeCb connCloseCb : Bool)
    (writes : List (List WriteOutcome)) (reads : List (List ReadvResult))
    (script : List CbScript) (c : ConnId) :
    Initial c (World.start sentBytesCb decodeCb connCloseCb writes reads script) where
  constructed := ⟨c, _, _, _, XConnection.new_eq ..⟩
  no_trace := rfl
  not_registered := by
    intro fd h
    cases h

end XFast
