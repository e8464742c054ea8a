import XFast.Net.ConnectionRules

/-! # Accepting a connection, with exceptions

    Model of `xListener::handleAccept` and `xServer::acceptNewConnection`,
    with the descriptor in the hands of C++ objects: first the local `xSocket`
    of `handleAccept`, then the member `sock_` of the connection.  An object
    that holds a descriptor closes it in its destructor, also when an
    exception leaves its scope, and the handler in `handleAccept` closes the
    number once more.

    So a failed accept leaves a trace wherever the exception comes from: the
    object that held the descriptor has been destroyed, and the descriptor
    has been closed twice; or the object is still there, and will close
    whatever has the number then. -/

namespace XFast

open Program XConnStatus

/-! ## Section 1: Objects and descriptors -/

def INVALID_SOCK : Fd := -1

/-- What there is besides the loop: the table of the server, the connection
    objects that exist, those to which the user keeps a pointer, the `fd_` of
    the local `xSocket` in `handleAccept`, and the calls of `::close` so far. -/
structure Objects where
  connections_ : Fd → Option ConnId
  live : ConnId → Bool
  kept : ConnId → Bool
  sock : Fd
  closes : List Fd

/-- Which part of an accept throws: the callbacks of the connection cannot be
    built, the constructor fails after it has taken the socket (a buffer, or
    `setNonBlock`), or the entry of `connections_` cannot be made. -/
inductive AcceptFate where
  | binding
  | constructing
  | inserting
  | proceeds
  deriving DecidableEq, Repr

namespace Accept

/-- The world after `::close(fd)`; the kernel takes the descriptor out of the
    interest list. -/
def closing (fd : Fd) (w : World Objects) : World Objects :=
  { w with
    loop := { w.loop with poller_ := Function.update w.loop.poller_ fd none }
    ext := { w.ext with closes := w.ext.closes ++ [fd] } }

def closeFd (fd : Fd) : LoopM Objects Unit := modify (closing fd)

/-- `~xSocket`. -/
def socketDtor (fd : Fd) : LoopM Objects Unit :=
  if fd ≠ INVALID_SOCK then closeFd fd else return ()

/-- `~xConnection`, which destroys the member `sock_`. -/
def connectionDtor (c : ConnId) : LoopM Objects Unit := do
  let w ← get
  modify fun w => { w with ext := { w.ext with live := Function.update w.ext.live c false } }
  socketDtor (w.conns c).sock_

/-- Something else than the caller points to the connection: the table, the
    callback registered in the loop, or the user. -/
def Referenced (w : World Objects) (c : ConnId) : Prop :=
  w.ext.connections_ (w.conns c).sock_ = some c ∨
    w.loop.callbackOf (w.conns c).sock_ = some (.connHandleEvent c) ∨ w.ext.kept c = true

instance (w : World Objects) (c : ConnId) : Decidable (Referenced w c) :=
  inferInstanceAs (Decidable (_ ∨ _ ∨ _))

/-- A pointer to the connection goes out of scope or is overwritten. -/
def releasePtr (c : ConnId) : LoopM Objects Unit := do
  let w ← get
  if Referenced w c ∨ w.ext.live c = false then return () else connectionDtor c

/-! ## Section 2: The accept -/

/-- `new xConnection(...)`: the member `sock_` takes the descriptor from the
    local socket; when the rest of the constructor throws, it is destroyed. -/
def construct (fate : AcceptFate) (c : ConnId) : LoopM Objects Unit := do
  modify fun w => { w.setConn c (XConnection.fresh w.ext.sock true true true) with
    ext := { w.ext with live := Function.update w.ext.live c true, sock := INVALID_SOCK } }
  if fate = .constructing then do
    connectionDtor c
    throw .exception
  else
    return ()

/-- `connections_[connPtr->GetConnFd()] = connPtr`. -/
def assignConnection (c : ConnId) : LoopM Objects Unit := do
  let w ← get
  let fd := (w.conns c).sock_
  modify fun w => { w with
    ext := { w.ext with connections_ := Function.update w.ext.connections_ fd (some c) } }
  match w.ext.connections_ fd with
  | none => return ()
  | some old => releasePtr old

/-- What `acceptNewConnection` does while it holds `connPtr`. -/
def enterConnection (cbs : Callbacks Objects) (fate : AcceptFate) (c : ConnId) :
    LoopM Objects Unit := do
  if fate = .inserting then throw .exception
  else do
    assignConnection c
    XConnection.makeConnected cbs c

def acceptNewConnection (cbs : Callbacks Objects) (fate : AcceptFate) (c : ConnId) :
    LoopM Objects Unit := do
  if fate = .binding then throw .exception
  else do
    construct fate c
    withDestructor isException (enterConnection cbs fate c) (releasePtr c)

/-- The `try` block of `handleAccept`, for the new object `c`. -/
def tryAccept (cbs : Callbacks Objects) (fate : AcceptFate) (c : ConnId) (connfd : Fd) :
    LoopM Objects Unit := do
  modify fun w => { w with ext := { w.ext with sock := connfd } }
  withDestructor isException (acceptNewConnection cbs fate c) (do
    let w ← get
    socketDtor w.ext.sock)

/-- `handleAccept`, when `accept` has returned a descriptor. -/
def handleAccept (cbs : Callbacks Objects) (fate : AcceptFate) (c : ConnId) (connfd : Fd) :
    LoopM Objects Unit :=
  catching isException (tryAccept cbs fate c connfd) (closeFd connfd)

/-! ## Section 3: The callbacks of the server -/

/-- `connectionClosed`, which in the loop thread is `doCloseConnection`. -/
def doCloseConnection (connCloseCb : LoopM Objects Unit) (c : ConnId) : LoopM Objects Unit := do
  let w ← get
  let fd := (w.conns c).sock_
  lift (cAssert (w.ext.connections_ fd).isSome)
  modify fun w => { w with
    ext := { w.ext with connections_ := Function.update w.ext.connections_ fd none } }
  catching isException connCloseCb (pure ())
  modify fun w => w.setConn c { w.conns c with connStatus_ := XF_CONN_STATUS_DISCONNECTED }

/-- The callbacks that the server gives to its connections, nested at most
    `depth` deep; what the user does in them follows the script.  Of
    `messageComing` nothing touches this world. -/
def serverCallbacks : (depth : Nat) → Callbacks Objects
  | 0 =>
      { decodeCb_ := fun _ _ _ => throw .outOfFuel
        msgCommitCb_ := fun _ _ => throw .outOfFuel
        sentBytesCb_ := fun _ _ => throw .outOfFuel
        connCloseCb_ := fun _ => throw .outOfFuel
        connFinishCb_ := fun _ => throw .outOfFuel }
  | depth + 1 =>
      { decodeCb_ := fun c _ _ => XConnection.userCallback (serverCallbacks depth) c
        msgCommitCb_ := fun _ _ => pure ()
        sentBytesCb_ := fun c _ => XConnection.userCallbackUnit (serverCallbacks depth) c
        connCloseCb_ := fun c =>
          doCloseConnection (XConnection.userCallbackUnit (serverCallbacks depth) c) c
        connFinishCb_ := fun c => XConnection.userCallbackUnit (serverCallbacks depth) c }

/-! ## Section 4: What is to be shown -/

/-- After an accept from `w` has failed in `w'`: the descriptor has been closed
    once, it is not registered, the table is as before, and no connection is
    left that would close the number later. -/
structure NoTrace (connfd : Fd) (w w' : World Objects) : Prop where
  closed_once : w'.ext.closes.count connfd = w.ext.closes.count connfd + 1
  not_registered : w'.loop.register_ connfd = none
  table : w'.ext.connections_ = w.ext.connections_
  no_owner : ∀ d, w'.ext.live d = true → (w'.conns d).sock_ ≠ connfd

/-! ## Section 5: Who holds the descriptor -/

/-- The connection object exists and holds the descriptor, which has been
    closed at least `k` times. -/
structure Held (c : ConnId) (connfd : Fd) (k : Nat) (w : World Objects) : Prop where
  live : w.ext.live c = true
  sock : (w.conns c).sock_ = connfd
  closes : k ≤ w.ext.closes.count connfd

/-- What a callback must not do to the connection that its caller holds: it
    does not destroy it, nor does it change its socket. -/
def HoldsConnection (c : ConnId) (cb : LoopM Objects Unit) : Prop :=
  ∀ connfd k, Maintains (· = .exception) (Held c connfd k) cb

/-- The object that had the descriptor has closed it, or something else than
    the frames that have been left points to the object. -/
def Unwound (c : ConnId) (connfd : Fd) (k : Nat) (w : World Objects) : Prop :=
  k + 1 ≤ w.ext.closes.count connfd ∨ (Held c connfd k w ∧ Referenced w c)

variable {c : ConnId} {connfd : Fd} {k : Nat} {w : World Objects}

theorem count_closing_self (fd : Fd) (w : World Objects) :
    (closing fd w).ext.closes.count fd = w.ext.closes.count fd + 1 := by
  simp only [closing, List.count_append, List.count_singleton_self]

theorem count_le_closing (fd fd' : Fd) (w : World Objects) :
    w.ext.closes.count fd' ≤ (closing fd w).ext.closes.count fd' := by
  simp only [closing, List.count_append]
  exact Nat.le_add_right _ _

theorem Held.closing (h : Held c connfd k w) (fd : Fd) : Held c connfd k (closing fd w) :=
  ⟨h.live, h.sock, Nat.le_trans h.closes (count_le_closing fd connfd w)⟩

/-- Closing changes neither the table nor the registry. -/
theorem Unwound.closing (h : Unwound c connfd k w) (fd : Fd) :
    Unwound c connfd k (closing fd w) := by
  rcases h with hclosed | ⟨hheld, href⟩
  · exact Or.inl (Nat.le_trans hclosed (count_le_closing fd connfd w))
  · exact Or.inr ⟨hheld.closing fd, href⟩

theorem wp_socketDtor {Q : Unit → World Objects → Prop} {E : Halt → World Objects → Prop}
    (fd : Fd) : wp (socketDtor fd) Q E w ↔
      if fd ≠ INVALID_SOCK then Q () (closing fd w) else Q () w := by
  unfold socketDtor
  rw [wp_ite]
  rfl

/-- The destructor of a connection that holds the descriptor closes it. -/
theorem connectionDtor_spec {E : Halt → World Objects → Prop} (hvalid : connfd ≠ INVALID_SOCK)
    (h : Held c connfd k w) :
    wp (connectionDtor c) (fun _ w' => k + 1 ≤ w'.ext.closes.count connfd) E w := by
  simp only [connectionDtor, wp_bind, wp_get, wp_modify]
  rw [wp_socketDtor, h.sock, if_pos hvalid, count_closing_self]
  exact Nat.succ_le_succ h.closes

theorem releasePtr_spec {E : Halt → World Objects → Prop} (hvalid : connfd ≠ INVALID_SOCK)
    (h : Held c connfd k w) : wp (releasePtr c) (fun _ => Unwound c connfd k) E w := by
  simp only [releasePtr, wp_bind, wp_get, wp_ite]
  split
  · rename_i hkeep
    rcases hkeep with href | hdead
    · exact Or.inr ⟨h, href⟩
    · rw [h.live] at hdead
      cases hdead
  · exact wp_mono (fun _ _ hclosed => Or.inl hclosed) (fun _ _ herr => herr)
      (connectionDtor_spec hvalid h)

/-- The entry that is overwritten may go; the new one is in the table. -/
theorem assignConnection_maintains :
    Maintains (· = .exception) (Held c connfd k) (assignConnection c) := by
  intro w h
  simp only [assignConnection, wp_bind, wp_get, wp_modify]
  have htable : Held c connfd k { w with ext := { w.ext with
      connections_ := Function.update w.ext.connections_ (w.conns c).sock_ (some c) } } :=
    ⟨h.live, h.sock, h.closes⟩
  split
  · exact htable
  · rename_i old _
    simp only [releasePtr, wp_bind, wp_get, wp_ite]
    split
    · exact htable
    · rename_i hdrop
      rw [not_or] at hdrop
      have hne : c ≠ old := by
        intro heq
        apply hdrop.1
        left
        rw [← heq]
        exact Function.update_self ..
      simp only [connectionDtor, wp_bind, wp_get, wp_modify]
      rw [wp_socketDtor]
      have hheld : Held c connfd k { w with ext := { w.ext with
          connections_ := Function.update w.ext.connections_ (w.conns c).sock_ (some c)
          live := Function.update w.ext.live old false } } := by
        refine ⟨?_, h.sock, h.closes⟩
        show Function.update w.ext.live old false c = true
        rw [Function.update_of_ne hne]
        exact h.live
      split
      · exact hheld.closing _
      · exact hheld

/-! ## Section 6: The callbacks of the server hold the connection -/

theorem held_ignoresState : XConnection.IgnoresState (Held c connfd k) c where
  script _ _ h := ⟨h.live, h.sock, h.closes⟩
  writes _ _ h := ⟨h.live, h.sock, h.closes⟩
  errno _ _ h := ⟨h.live, h.sock, h.closes⟩
  loop _ _ h := ⟨h.live, h.sock, h.closes⟩
  log _ _ h := ⟨h.live, h.sock, h.closes⟩
  conn w x hx h := by
    refine ⟨h.live, ?_, h.closes⟩
    rw [World.setConn_self, hx]
    exact h.sock

theorem doCloseConnection_maintains {cb : LoopM Objects Unit}
    (hcb : Maintains (· = .exception) (Held c connfd k) cb) :
    Maintains (· = .exception) (Held c connfd k) (doCloseConnection cb c) := by
  apply Maintains.get.bind
  intro w
  apply (Maintains.lift _).bind
  intro _
  apply Maintains.bind (Maintains.modify fun w h => ⟨h.live, h.sock, h.closes⟩)
  intro _
  apply (hcb.catching (fun _ => eq_of_isException) (Maintains.pure ())).bind
  intro _
  exact Maintains.modify fun w h => held_ignoresState.conn w _ rfl h

/-- Induction on the nesting depth, as for the callbacks of a connection
    without a server. -/
theorem serverCallbacks_keep (depth : Nat) :
    XConnection.KeepCallbacks (· = .exception) (Held c connfd k) c (serverCallbacks depth) := by
  induction depth with
  | zero =>
    exact ⟨fun _ _ => .throw _, fun _ => .throw _, fun _ => .throw _, .throw _, .throw _⟩
  | succ depth ih =>
    have hcb : Maintains (· = .exception) (Held c connfd k)
        (XConnection.userCallback (serverCallbacks depth) c) := by
      apply XConnection.userCallback_maintains held_ignoresState.script
      · exact XConnection.sendMsgString_maintains
          (XConnection.sendMsgToBuffer_maintains rfl held_ignoresState.survivesTraffic ih.sentBytesCb)
      · exact XConnection.closeConnection_maintains (XConnection.closeConn_maintains rfl ih
          (XConnection.beginClose_maintains held_ignoresState))
    have hunit : Maintains (· = .exception) (Held c connfd k)
        (XConnection.userCallbackUnit (serverCallbacks depth) c) :=
      hcb.bind fun _ => Maintains.pure ()
    exact ⟨fun _ _ => hcb, fun _ => Maintains.pure (), fun _ => hunit,
      doCloseConnection_maintains hunit, hunit⟩

theorem serverCallbacks_hold (depth : Nat) (c : ConnId) :
    HoldsConnection c ((serverCallbacks depth).connFinishCb_ c) :=
  fun _ _ => (serverCallbacks_keep depth).connFinishCb

/-! ## Section 7: A failed accept -/

variable {cbs : Callbacks Objects}

theorem enterConnection_maintains (fate : AcceptFate)
    (hcb : HoldsConnection c (cbs.connFinishCb_ c)) :
    Maintains (· = .exception) (Held c connfd k) (enterConnection cbs fate c) := by
  apply Maintains.ite (Maintains.throw _)
  apply assignConnection_maintains.bind
  intro _
  exact (XConnection.beginConnected_maintains held_ignoresState).bind fun _ => hcb connfd k

/-- An exception that leaves `acceptNewConnection` leaves the descriptor in
    the local socket, or it has been taken from there and unwound. -/
theorem acceptNewConnection_failed (fate : AcceptFate) (hvalid : connfd ≠ INVALID_SOCK)
    (hcb : HoldsConnection c (cbs.connFinishCb_ c)) (hsock : w.ext.sock = connfd)
    (hk : k ≤ w.ext.closes.count connfd) :
    wp (acceptNewConnection cbs fate c) (fun _ _ => True)
      (fun e w' => e = .exception →
        (w'.ext.sock = connfd ∧ k ≤ w'.ext.closes.count connfd) ∨ Unwound c connfd k w') w := by
  unfold acceptNewConnection
  rw [wp_ite]
  split
  · exact fun _ => Or.inl ⟨hsock, hk⟩
  · -- the member `sock_` has taken the descriptor
    have hheld : Held c connfd k { w.setConn c (XConnection.fresh w.ext.sock true true true) with
        ext := { w.ext with
          live := Function.update w.ext.live c true, sock := INVALID_SOCK } } := by
      refine ⟨Function.update_self .., ?_, hk⟩
      show ((w.setConn c (XConnection.fresh w.ext.sock true true true)).conns c).sock_ = connfd
      rw [World.setConn_self]
      exact hsock
    simp only [construct, wp_bind, wp_modify, wp_ite, wp_pure, wp_throw]
    split
    · exact wp_mono (fun _ _ hclosed _ => Or.inr (Or.inl hclosed)) (fun _ _ herr => herr)
        (connectionDtor_spec hvalid hheld)
    · rw [wp_withDestructor]
      apply wp_mono _ _ (enterConnection_maintains fate hcb _ hheld)
      · intro _ w' h'
        exact wp_mono (fun _ _ _ => trivial) (fun _ _ hunwound _ => Or.inr hunwound)
          (releasePtr_spec hvalid h')
      · intro e w' h'
        split
        · rename_i hexc
          exact wp_mono (fun _ _ hunwound _ => Or.inr hunwound)
            (fun _ _ hunwound _ => Or.inr hunwound)
            (releasePtr_spec hvalid (h' (eq_of_isException hexc)))
        · rename_i hother
          intro heq
          rw [heq] at hother
          exact absurd rfl hother

/-- When the exception has left the `try` block, the local socket has closed
    the descriptor too, if it still had it. -/
theorem tryAccept_failed (fate : AcceptFate) (hvalid : connfd ≠ INVALID_SOCK)
    (hcb : HoldsConnection c (cbs.connFinishCb_ c)) (hk : k ≤ w.ext.closes.count connfd) :
    wp (tryAccept cbs fate c connfd) (fun _ _ => True)
      (fun e w' => e = .exception → Unwound c connfd k w') w := by
  have hbody := acceptNewConnection_failed fate (w := { w with ext := { w.ext with sock := connfd } })
    hvalid hcb rfl hk
  simp only [tryAccept, wp_bind, wp_modify]
  rw [wp_withDestructor]
  apply wp_mono _ _ hbody
  · intro _ w' _
    simp only [wp_bind, wp_get]
    rw [wp_socketDtor]
    split <;> trivial
  · intro e w' h'
    split
    · rename_i hexc
      simp only [wp_bind, wp_get]
      rw [wp_socketDtor]
      rcases h' (eq_of_isException hexc) with ⟨hsock, hcount⟩ | hunwound
      · rw [hsock, if_pos hvalid]
        intro _
        left
        rw [count_closing_self]
        exact Nat.succ_le_succ hcount
      · split
        · exact fun _ => hunwound.closing _
        · exact fun _ => hunwound
    · rename_i hother
      intro heq
      rw [heq] at hother
      exact absurd rfl hother

/-- What the handler of `handleAccept` adds: the descriptor has been closed
    twice, or there is still an object that holds it. -/
theorem closing_unwound (h : Unwound c connfd k w) :
    k + 2 ≤ (closing connfd w).ext.closes.count connfd ∨
      (Held c connfd k (closing connfd w) ∧ Referenced w c) := by
  rcases h with hclosed | ⟨hheld, href⟩
  · left
    rw [count_closing_self]
    exact Nat.succ_le_succ hclosed
  · exact Or.inr ⟨hheld.closing connfd, href⟩

/-- **Failed accepts.**  From every state, with every descriptor, wherever the
    exception comes from and whatever the user's callbacks have done before:
    once `handleAccept` has caught it, a trace is left.  Either the descriptor
    has been closed twice, or the connection object still holds its number;
    and then it is registered, in the table, or in the hands of the user. -/
theorem failed_accept_leaves_trace (cbs : Callbacks Objects) (fate : AcceptFate) (c : ConnId)
    (connfd : Fd) (w w₁ : World Objects) (haccepted : 0 ≤ connfd)
    (hcb : HoldsConnection c (cbs.connFinishCb_ c))
    (hthrow : (tryAccept cbs fate c connfd).run w = .error .exception w₁) :
    (handleAccept cbs fate c connfd).run w = .ok () (closing connfd w₁) ∧
    ¬ NoTrace connfd w (closing connfd w₁) ∧
    (w.ext.closes.count connfd + 2 ≤ (closing connfd w₁).ext.closes.count connfd ∨
      (w₁.ext.live c = true ∧ (w₁.conns c).sock_ = connfd ∧
        (w₁.ext.connections_ connfd = some c ∨
          w₁.loop.callbackOf connfd = some (.connHandleEvent c) ∨ w₁.ext.kept c = true))) := by
  have hvalid : connfd ≠ INVALID_SOCK := by
    intro heq
    rw [heq] at haccepted
    exact absurd haccepted (by decide)
  have hunwound : Unwound c connfd (w.ext.closes.count connfd) w₁ := by
    have hwp := tryAccept_failed fate hvalid hcb (Nat.le_refl (w.ext.closes.count connfd))
    unfold wp at hwp
    rw [hthrow] at hwp
    exact hwp rfl
  have hafter := closing_unwound hunwound
  refine ⟨?_, ?_, ?_⟩
  · have hrun : tryAccept cbs fate c connfd w = .error .exception w₁ := hthrow
    simp only [handleAccept, EStateM.run, catching, hrun]
    rfl
  · intro htrace
    rcases hafter with htwice | ⟨hheld, _⟩
    · have honce := htrace.closed_once
      omega
    · exact htrace.no_owner c hheld.live hheld.sock
  · rcases hafter with htwice | ⟨hheld, href⟩
    · exact Or.inl htwice
    · have hsock : (w₁.conns c).sock_ = connfd := hheld.sock
      unfold Referenced at href
      rw [hsock] at href
      exact Or.inr ⟨hheld.live, hsock, href⟩

/-- A server without connections. -/
def idle (script : List CbScript) : World Objects where
  conns c := XConnection.fresh c true true true
  loop := ⟨fun _ => none, fun _ => none⟩
  errno := .other
  writes := []
  reads := []
  script := script
  trace _ := []
  ext := ⟨fun _ => none, fun _ => false, fun _ => false, INVALID_SOCK, []⟩

/-- The constructor of the connection throws: descriptor 5 is closed twice. -/
theorem failed_accept_leaves_trace_twice : ∃ w w₁, w = idle [] ∧
    (tryAccept (serverCallbacks 1) .constructing 0 5).run w = .error .exception w₁ ∧
    (closing 5 w₁).ext.closes = [5, 5] ∧ ¬ NoTrace 5 w (closing 5 w₁) := by
  have hthrow : (tryAccept (serverCallbacks 1) .constructing 0 5).run (idle []) =
      .error .exception (finalState
        ((tryAccept (serverCallbacks 1) .constructing 0 5).run (idle []))) :=
    eq_error_of_raised (by decide +kernel)
  refine ⟨_, _, rfl, hthrow, by decide +kernel, ?_⟩
  exact (failed_accept_leaves_trace (serverCallbacks 1) .constructing 0 5 _ _ (by decide)
    (serverCallbacks_hold 1 0) hthrow).2.1

/-- The connection-finished callback throws: the number 5 stays registered and
    in the table.  When the kernel hands out the number again, `epoll_ctl`
    fails for the next connection, and the process aborts. -/
theorem number_blocked_after_failed_accept : ∃ w w', w = idle [⟨[], true, 0⟩] ∧
    (handleAccept (serverCallbacks 1) .proceeds 0 5).run w = .ok () w' ∧
    w'.ext.closes = [5] ∧ w'.loop.maskOf 5 = some XE_READABLE ∧
    w'.ext.connections_ 5 = some 0 ∧ ¬ NoTrace 5 w w' ∧
    raised .assertFailed ((handleAccept (serverCallbacks 1) .proceeds 1 5).run w') := by
  refine ⟨_, _, rfl, eq_ok_of_returned (by decide +kernel), by decide +kernel, by decide +kernel,
    by decide +kernel, ?_, by decide +kernel⟩
  intro htrace
  have htable := congrFun htrace.table 5
  exact absurd htable (by decide +kernel)

end Accept

end XFast
