import XFast.Base.Mailbox
import XFast.Net.Connection
import XFast.Net.WireFormat

/-! # xServer: connections, requests and responses

    Model of `net/xserver.cpp`, `net/handler.cpp` and `net/handler_group.cpp`
    as far as a message and its response travel.  A message that a connection
    commits gets the connection's descriptor number prepended and goes into
    the queue of the workers; a worker reads the number back, and its
    response is posted to the loop with that number; the loop looks the
    number up in `connections_`.

    The parties take their steps in any order: the kernel hands out
    descriptor numbers that are not open, connections close and are destroyed,
    workers dispatch and answer, the loop runs what was posted.  Requests and
    responses are kept together with the connection on which the request
    arrived; no step reads it. -/

namespace XFast

open Steps XConnStatus

/-! ## Section 1: The parties -/

/-- A connection object: its socket and its status. -/
structure ConnState where
  sock_ : Fd
  connStatus_ : XConnStatus
  deriving DecidableEq, Repr

/-- A message in the queue of the workers. -/
structure Request where
  buffer : XBuffer
  origin : ConnId
  deriving DecidableEq, Repr

/-- A `dispatch(uid, buffer)` whose uid may still be answered: it is running, or
    it has returned and the handler has kept the uid. -/
structure Dispatch where
  uid : Int
  buffer : XBuffer
  origin : ConnId
  deriving DecidableEq, Repr

/-- A posted `doSendResponse(uid, buffer)`. -/
structure Response where
  uid : Int
  buffer : List UInt8
  origin : ConnId
  deriving DecidableEq, Repr

/-- The server, its workers and the mailbox of its loop.  `conns` has the
    connection objects that exist, `accepted` how many have been accepted,
    `dispatching` the dispatches whose uid may still be answered, `sent` what
    `doSendResponse` did with each response: the connection it appended it to,
    or none. -/
structure XServer where
  conns : ConnId → Option ConnState
  accepted : Nat
  connections_ : Fd → Option ConnId
  msgQueue_ : List Request
  dispatching : List Dispatch
  mailbox : Mailbox Response
  sent : List (Response × Option ConnId)

inductive ServerStep where
  /-- A connection is accepted; the kernel gives it the number `fd`. -/
  | acceptNewConnection (fd : Fd)
  /-- A connection commits a message; so many handlers are running. -/
  | messageComing (c : ConnId) (payload : List UInt8) (activeHandlers : Nat)
  /-- A connection is closed, for whatever reason. -/
  | closeConn (c : ConnId)
  /-- The last pointer to a closed connection goes, and its socket with it. -/
  | destroy (c : ConnId)
  /-- A worker takes a message and calls `dispatch`. -/
  | run
  /-- The uid of the `i`-th of these dispatches is not answered any more:
      `dispatch` has returned or thrown, and nobody has kept it. -/
  | dispatchReturns (i : Nat)
  /-- The `i`-th of these dispatches is answered with `sendResponse`, by
      `dispatch` or by whoever has kept its uid. -/
  | sendResponse (i : Nat) (resp : XBuffer)
  /-- The loop takes a step over the posted functors. -/
  | process (l : MailboxStep Response)

namespace XServer

def initial : XServer :=
  ⟨fun _ => none, 0, fun _ => none, [], [], Mailbox.initial, []⟩

/-! ## Section 2: The steps -/

/-- The connection is constructed, entered into the table and made connected,
    all in the loop thread. -/
def acceptNewConnection (s : XServer) (fd : Fd) : XServer :=
  { s with
    conns := Function.update s.conns s.accepted (some ⟨fd, XF_CONN_STATUS_CONNECTED⟩)
    accepted := s.accepted + 1
    connections_ := Function.update s.connections_ fd (some s.accepted) }

theorem accept_conns_self (s : XServer) (fd : Fd) :
    (s.acceptNewConnection fd).conns s.accepted = some ⟨fd, XF_CONN_STATUS_CONNECTED⟩ :=
  Function.update_self ..

theorem accept_conns_of_ne (s : XServer) (fd : Fd) {c : ConnId} (h : c ≠ s.accepted) :
    (s.acceptNewConnection fd).conns c = s.conns c := Function.update_of_ne h ..

theorem accept_connections_self (s : XServer) (fd : Fd) :
    (s.acceptNewConnection fd).connections_ fd = some s.accepted := Function.update_self ..

theorem accept_connections_of_ne (s : XServer) {fd fd' : Fd} (h : fd' ≠ fd) :
    (s.acceptNewConnection fd).connections_ fd' = s.connections_ fd' := Function.update_of_ne h ..

/-- The buffer in which `parseProtocol` commits a message. -/
def commitBuffer (payload : List UInt8) : Except Halt XBuffer := do
  let b ← XBuffer.new payload.length
  b.append payload

def messageComing (s : XServer) (c : ConnId) (fd : Fd) (activeHandlers : Nat) (buffer : XBuffer) :
    Except Halt XServer :=
  if activeHandlers ≠ 0 then do
    let buffer ← buffer.prependInt32 fd
    return { s with msgQueue_ := s.msgQueue_ ++ [⟨buffer, c⟩] }
  else
    return s

/-- `closeConn` leads to `connectionClosed` and, in the loop thread, to
    `doCloseConnection` at once. -/
def doCloseConnection (s : XServer) (c : ConnId) (x : ConnState) : Except Halt XServer := do
  cAssert (s.connections_ x.sock_).isSome
  return { s with
    conns := Function.update s.conns c (some { x with connStatus_ := XF_CONN_STATUS_DISCONNECTED })
    connections_ := Function.update s.connections_ x.sock_ none }

/-- The connection found under the number, if its `sendMsg` takes messages. -/
def receiver (s : XServer) (uid : Int) : Option ConnId :=
  match s.connections_ uid with
  | none => none
  | some c =>
      if (s.conns c).map ConnState.connStatus_ = some XF_CONN_STATUS_CONNECTED then some c
      else none

def doSendResponse (s : XServer) (r : Response) : XServer :=
  { s with sent := s.sent ++ [(r, s.receiver r.uid)] }

/-- The steps of the loop over `extraEvents_`. -/
def process (s : XServer) : MailboxStep Response → Option XServer
  | .scheduleToLoopThread _ => none
  | .runNext =>
      match s.mailbox.next?, s.mailbox.step .runNext with
      | some fun_, some mailbox => some ({ s with mailbox := mailbox }.doSendResponse fun_.2)
      | _, _ => none
  | l => (s.mailbox.step l).map fun mailbox => { s with mailbox := mailbox }

/-- A step that would end the process is not taken.  The length of a message
    is an `int`. -/
def step (s : XServer) : ServerStep → Option XServer
  | .acceptNewConnection fd =>
      if 0 ≤ fd ∧ fd < 2 ^ 31 ∧ ∀ c < s.accepted, (s.conns c).map ConnState.sock_ ≠ some fd then
        some (s.acceptNewConnection fd)
      else none
  | .messageComing c payload activeHandlers =>
      match s.conns c with
      | none => none
      | some x =>
          if payload.length < 2 ^ 31 then
            (commitBuffer payload >>= s.messageComing c x.sock_ activeHandlers).toOption
          else none
  | .closeConn c =>
      match s.conns c with
      | none => none
      | some x =>
          if x.connStatus_ = XF_CONN_STATUS_CONNECTED then (s.doCloseConnection c x).toOption
          else none
  | .destroy c =>
      match s.conns c with
      | none => none
      | some x =>
          if x.connStatus_ = XF_CONN_STATUS_DISCONNECTED then
            some { s with conns := Function.update s.conns c none }
          else none
  | .run =>
      match s.msgQueue_ with
      | [] => none
      | r :: rest =>
          match r.buffer.readInt32 with
          | .ok (uid, buffer) =>
              some { s with
                msgQueue_ := rest
                dispatching := s.dispatching ++ [⟨uid, buffer, r.origin⟩] }
          | .error _ => none
  | .dispatchReturns i =>
      if i < s.dispatching.length then some { s with dispatching := s.dispatching.eraseIdx i }
      else none
  | .sendResponse i resp =>
      match s.dispatching[i]?, resp.readAll with
      | some d, .ok (buffer, _) =>
          (s.mailbox.step (.scheduleToLoopThread ⟨d.uid, buffer, d.origin⟩)).map
            fun mailbox => { s with mailbox := mailbox }
      | _, _ => none
  | .process l => s.process l

/-! ## Section 3: What each step can do -/

theorem commitBuffer_valid {payload : List UInt8} {b : XBuffer} (hlen : payload.length < 2 ^ 31)
    (h : commitBuffer payload = .ok b) : b.Valid := by
  have hmax : XBuffer.kDiscardableSize + payload.length ≤ vectorMaxSize := by
    unfold XBuffer.kDiscardableSize vectorMaxSize
    omega
  obtain ⟨b₀, hnew, happend⟩ := bind_eq_ok h
  rw [XBuffer.new_eq hmax] at hnew
  cases hnew
  exact (XBuffer.append_ok (XBuffer.valid_fresh hmax) happend).1

/-- What each step can do, with its guard. -/
inductive StepTo (s : XServer) : ServerStep → XServer → Prop where
  | acceptNewConnection (fd : Fd) (hlo : 0 ≤ fd) (hhi : fd < 2 ^ 31)
      (hfree : ∀ c < s.accepted, (s.conns c).map ConnState.sock_ ≠ some fd) :
      StepTo s (.acceptNewConnection fd) (s.acceptNewConnection fd)
  | dropMessage (c : ConnId) (payload : List UInt8) (activeHandlers : Nat) :
      StepTo s (.messageComing c payload activeHandlers) s
  | addMsg (c : ConnId) (payload : List UInt8) (activeHandlers : Nat) (x : ConnState)
      (b buffer : XBuffer) (hconn : s.conns c = some x) (hvalid : b.Valid)
      (hprepend : b.prependInt32 x.sock_ = .ok buffer) :
      StepTo s (.messageComing c payload activeHandlers)
        { s with msgQueue_ := s.msgQueue_ ++ [⟨buffer, c⟩] }
  | closeConn (c : ConnId) (x : ConnState) (hconn : s.conns c = some x) :
      StepTo s (.closeConn c)
        { s with
          conns := Function.update s.conns c
            (some { x with connStatus_ := XF_CONN_STATUS_DISCONNECTED })
          connections_ := Function.update s.connections_ x.sock_ none }
  | destroy (c : ConnId) (x : ConnState) (hconn : s.conns c = some x)
      (hclosed : x.connStatus_ = XF_CONN_STATUS_DISCONNECTED) :
      StepTo s (.destroy c) { s with conns := Function.update s.conns c none }
  | run (r : Request) (rest : List Request) (uid : Int) (buffer : XBuffer)
      (hqueue : s.msgQueue_ = r :: rest) (hread : r.buffer.readInt32 = .ok (uid, buffer)) :
      StepTo s .run
        { s with
          msgQueue_ := rest
          dispatching := s.dispatching ++ [⟨uid, buffer, r.origin⟩] }
  | dispatchReturns (i : Nat) :
      StepTo s (.dispatchReturns i) { s with dispatching := s.dispatching.eraseIdx i }
  | sendResponse (i : Nat) (resp : XBuffer) (d : Dispatch) (buffer : List UInt8)
      (mailbox : Mailbox Response) (hd : d ∈ s.dispatching)
      (hpost : s.mailbox.step (.scheduleToLoopThread ⟨d.uid, buffer, d.origin⟩) = some mailbox) :
      StepTo s (.sendResponse i resp) { s with mailbox := mailbox }
  | runNext (fun_ : Nat × Response) (mailbox : Mailbox Response)
      (hnext : s.mailbox.next? = some fun_) (hstep : s.mailbox.step .runNext = some mailbox) :
      StepTo s (.process .runNext) ({ s with mailbox := mailbox }.doSendResponse fun_.2)
  | process (l : MailboxStep Response) (mailbox : Mailbox Response)
      (hl : ∀ r, l ≠ .scheduleToLoopThread r) (hstep : s.mailbox.step l = some mailbox) :
      StepTo s (.process l) { s with mailbox := mailbox }

theorem step_cases {s s' : XServer} {l : ServerStep} (h : s.step l = some s') : StepTo s l s' := by
  cases l with
  | acceptNewConnection fd =>
    dsimp only [step] at h
    split at h
    · rename_i hguard
      obtain ⟨hlo, hhi, hfree⟩ := hguard
      cases h
      exact .acceptNewConnection fd hlo hhi hfree
    · cases h
  | messageComing c payload activeHandlers =>
    dsimp only [step] at h
    split at h
    · cases h
    · rename_i x hconn
      split at h
      · rename_i hlen
        obtain ⟨b, hb, hcoming⟩ := bind_eq_ok (eq_ok_of_toOption h)
        have hvalid := commitBuffer_valid hlen hb
        unfold messageComing at hcoming
        split at hcoming
        · obtain ⟨buffer, hprepend, hs'⟩ := bind_eq_ok hcoming
          cases hs'
          exact .addMsg c payload activeHandlers x b buffer hconn hvalid hprepend
        · cases hcoming
          exact .dropMessage c payload activeHandlers
      · cases h
  | closeConn c =>
    dsimp only [step] at h
    split at h
    · cases h
    · rename_i x hconn
      split at h
      · obtain ⟨_, _, hs'⟩ := bind_eq_ok (eq_ok_of_toOption h)
        cases hs'
        exact .closeConn c x hconn
      · cases h
  | destroy c =>
    dsimp only [step] at h
    split at h
    · cases h
    · rename_i x hconn
      split at h
      · rename_i hclosed
        cases h
        exact .destroy c x hconn hclosed
      · cases h
  | run =>
    dsimp only [step] at h
    split at h
    · cases h
    · rename_i r rest hqueue
      split at h
      · rename_i uid buffer hread
        cases h
        exact .run r rest uid buffer hqueue hread
      · cases h
  | dispatchReturns i =>
    dsimp only [step] at h
    split at h
    · cases h
      exact .dispatchReturns i
    · cases h
  | sendResponse i resp =>
    dsimp only [step] at h
    split at h
    · rename_i d buffer b hd hresp
      obtain ⟨mailbox, hpost, rfl⟩ := Option.map_eq_some_iff.mp h
      exact .sendResponse i resp d buffer mailbox (List.mem_of_getElem? hd) hpost
    · cases h
  | process l =>
    dsimp only [step] at h
    unfold process at h
    split at h
    · cases h
    · split at h
      · rename_i fun_ mailbox hnext hstep
        cases h
        exact .runNext fun_ mailbox hnext hstep
      · cases h
    · rename_i hpost hrun
      obtain ⟨mailbox, hstep, rfl⟩ := Option.map_eq_some_iff.mp h
      exact .process l mailbox hpost hstep

/-! ## Section 4: The connections and the table -/

/-- The connections that exist have different sockets, and the table holds
    connected ones, each under its own number. -/
structure Inv (s : XServer) : Prop where
  fresh : ∀ c, s.accepted ≤ c → s.conns c = none
  owner : ∀ c d x y, s.conns c = some x → s.conns d = some y → x.sock_ = y.sock_ → c = d
  range : ∀ c x, s.conns c = some x → 0 ≤ x.sock_ ∧ x.sock_ < 2 ^ 31
  table : ∀ fd c, s.connections_ fd = some c →
    ∃ x, s.conns c = some x ∧ x.sock_ = fd ∧ x.connStatus_ = XF_CONN_STATUS_CONNECTED

theorem inv_initial : initial.Inv where
  fresh _ _ := rfl
  owner _ _ _ _ h := by cases h
  range _ _ h := by cases h
  table _ _ h := by cases h

/-- Nobody has the number that the kernel hands out. -/
theorem Inv.sock_ne {s : XServer} (h : s.Inv) {fd : Fd}
    (hfree : ∀ c < s.accepted, (s.conns c).map ConnState.sock_ ≠ some fd) {c : ConnId}
    {x : ConnState} (hconn : s.conns c = some x) : x.sock_ ≠ fd := by
  intro heq
  have hlt : c < s.accepted := by
    by_contra hge
    rw [h.fresh c (Nat.le_of_not_lt hge)] at hconn
    cases hconn
  apply hfree c hlt
  rw [hconn, Option.map_some, heq]

theorem Inv.accept {s : XServer} (h : s.Inv) {fd : Fd} (hlo : 0 ≤ fd) (hhi : fd < 2 ^ 31)
    (hfree : ∀ c < s.accepted, (s.conns c).map ConnState.sock_ ≠ some fd) :
    (s.acceptNewConnection fd).Inv := by
  have hold : ∀ c x, c ≠ s.accepted → (s.acceptNewConnection fd).conns c = some x →
      s.conns c = some x := by
    intro c x hne hconn
    rwa [accept_conns_of_ne s fd hne] at hconn
  have hnew := accept_conns_self s fd
  constructor
  · intro c hle
    have hle : s.accepted + 1 ≤ c := hle
    rw [accept_conns_of_ne s fd (Nat.ne_of_gt hle)]
    exact h.fresh c (Nat.le_of_succ_le hle)
  · intro c d x y hc hd hsock
    -- the new connection has a number that no other one has
    by_cases hcn : c = s.accepted
    · by_cases hdn : d = s.accepted
      · rw [hcn, hdn]
      · rw [hcn, hnew] at hc
        cases hc
        exact absurd hsock.symm (h.sock_ne hfree (hold d y hdn hd))
    · by_cases hdn : d = s.accepted
      · rw [hdn, hnew] at hd
        cases hd
        exact absurd hsock (h.sock_ne hfree (hold c x hcn hc))
      · exact h.owner c d x y (hold c x hcn hc) (hold d y hdn hd) hsock
  · intro c x hc
    by_cases hcn : c = s.accepted
    · rw [hcn, hnew] at hc
      cases hc
      exact ⟨hlo, hhi⟩
    · exact h.range c x (hold c x hcn hc)
  · intro fd' c htable
    by_cases hfd : fd' = fd
    · rw [hfd, accept_connections_self] at htable
      cases htable
      exact ⟨_, hnew, hfd.symm, rfl⟩
    · rw [accept_connections_of_ne s hfd] at htable
      obtain ⟨x, hx, hsock, hstatus⟩ := h.table fd' c htable
      have hcn : c ≠ s.accepted := by
        intro hcn
        rw [hcn, h.fresh s.accepted (Nat.le_refl _)] at hx
        cases hx
      refine ⟨x, ?_, hsock, hstatus⟩
      rw [accept_conns_of_ne s fd hcn]
      exact hx

theorem Inv.close {s : XServer} (h : s.Inv) {c : ConnId} {x : ConnState}
    (hconn : s.conns c = some x) : Inv { s with
      conns := Function.update s.conns c
        (some { x with connStatus_ := XF_CONN_STATUS_DISCONNECTED })
      connections_ := Function.update s.connections_ x.sock_ none } := by
  -- every connection has the socket it had
  have hold : ∀ d y, Function.update s.conns c
      (some { x with connStatus_ := XF_CONN_STATUS_DISCONNECTED }) d = some y →
      ∃ y', s.conns d = some y' ∧ y'.sock_ = y.sock_ := by
    intro d y hd
    by_cases hdc : d = c
    · rw [hdc, Function.update_self] at hd
      cases hd
      exact ⟨x, by rw [hdc]; exact hconn, rfl⟩
    · rw [Function.update_of_ne hdc] at hd
      exact ⟨y, hd, rfl⟩
  constructor
  · intro d hle
    have hdc : d ≠ c := by
      intro hdc
      rw [← hdc, h.fresh d hle] at hconn
      cases hconn
    show Function.update s.conns c _ d = none
    rw [Function.update_of_ne hdc]
    exact h.fresh d hle
  · intro d e y z hd he hsock
    obtain ⟨y', hy', hys⟩ := hold d y hd
    obtain ⟨z', hz', hzs⟩ := hold e z he
    exact h.owner d e y' z' hy' hz' (by rw [hys, hzs, hsock])
  · intro d y hd
    obtain ⟨y', hy', hys⟩ := hold d y hd
    rw [← hys]
    exact h.range d y' hy'
  · intro fd d htable
    have htable : Function.update s.connections_ x.sock_ none fd = some d := htable
    by_cases hfd : fd = x.sock_
    · rw [hfd, Function.update_self] at htable
      cases htable
    · rw [Function.update_of_ne hfd] at htable
      obtain ⟨y, hy, hsock, hstatus⟩ := h.table fd d htable
      have hdc : d ≠ c := by
        intro hdc
        rw [hdc, hconn] at hy
        cases hy
        exact hfd hsock.symm
      refine ⟨y, ?_, hsock, hstatus⟩
      show Function.update s.conns c _ d = some y
      rw [Function.update_of_ne hdc]
      exact hy

theorem Inv.destroy {s : XServer} (h : s.Inv) {c : ConnId} {x : ConnState}
    (hconn : s.conns c = some x) (hclosed : x.connStatus_ = XF_CONN_STATUS_DISCONNECTED) :
    Inv { s with conns := Function.update s.conns c none } := by
  have hold : ∀ d y, Function.update s.conns c none d = some y → s.conns d = some y := by
    intro d y hd
    by_cases hdc : d = c
    · rw [hdc, Function.update_self] at hd
      cases hd
    · rwa [Function.update_of_ne hdc] at hd
  constructor
  · intro d hle
    show Function.update s.conns c none d = none
    by_cases hdc : d = c
    · rw [hdc, Function.update_self]
    · rw [Function.update_of_ne hdc]
      exact h.fresh d hle
  · intro d e y z hd he hsock
    exact h.owner d e y z (hold d y hd) (hold e z he) hsock
  · intro d y hd
    exact h.range d y (hold d y hd)
  · intro fd d htable
    obtain ⟨y, hy, hsock, hstatus⟩ := h.table fd d htable
    -- what is destroyed is closed, so it is not in the table
    have hdc : d ≠ c := by
      intro hdc
      rw [hdc, hconn] at hy
      cases hy
      rw [hclosed] at hstatus
      cases hstatus
    refine ⟨y, ?_, hsock, hstatus⟩
    show Function.update s.conns c none d = some y
    rw [Function.update_of_ne hdc]
    exact hy

theorem inv_step (s : XServer) (l : ServerStep) (s' : XServer) (h : s.Inv)
    (hstep : s.step l = some s') : s'.Inv := by
  cases step_cases hstep with
  | acceptNewConnection fd hlo hhi hfree => exact h.accept hlo hhi hfree
  | closeConn c x hconn => exact h.close hconn
  | destroy c x hconn hclosed => exact h.destroy hconn hclosed
  -- the other steps leave the connections and the table alone
  | _ => exact ⟨h.fresh, h.owner, h.range, h.table⟩

end XServer

end XFast
