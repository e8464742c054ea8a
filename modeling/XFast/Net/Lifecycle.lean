import Mathlib.Data.List.Chain
import XFast.Base.InterestList
import XFast.Net.ConnectionRules

/-! # The life of a connection

    `closeConn` is reached by several routes: an event, a call, a functor that
    another thread posted, a timer, and each of these may be inside a callback
    whose caller goes on after the close.  Whatever the order, the connection
    is closed once and for all: its status goes forward only, and once it has
    been closed it does nothing more to the loop.

    The run is looked at in moments: between the steps of the loop thread,
    where a callback of the connection starts, and after each of its calls.
    Other objects use the loop as well, between the steps and in the
    callbacks; what they do is told apart from what the connection does. -/

namespace XFast

open Program XConnStatus

/-! ## Section 1: Moments -/

/-- The life of a connection. -/
def lifecycle : List XConnStatus :=
  [XF_CONN_STATUS_CONNECTING, XF_CONN_STATUS_CONNECTED, XF_CONN_STATUS_DISCONNECTING,
    XF_CONN_STATUS_DISCONNECTED]

namespace XConnStatus

/-- The same status, or a later one. -/
def Forward (status status' : XConnStatus) : Prop :=
  status ∈ lifecycle ∧ status' ∈ lifecycle ∧ lifecycle.idxOf status ≤ lifecycle.idxOf status'

instance (status status' : XConnStatus) : Decidable (Forward status status') :=
  inferInstanceAs (Decidable (_ ∧ _ ∧ _))

theorem Forward.trans {a b c : XConnStatus} (h : Forward a b) (h' : Forward b c) : Forward a c :=
  ⟨h.1, h'.2.1, Nat.le_trans h.2.2 h'.2.2⟩

theorem Forward.closed {a b : XConnStatus} (h : Forward a b) (ha : Closed a) : Closed b := by
  revert h ha
  cases a <;> cases b <;> decide

theorem forward_disconnecting {a : XConnStatus} (ha : a ∈ lifecycle) (hopen : ¬ Closed a) :
    Forward a XF_CONN_STATUS_DISCONNECTING := by
  revert ha hopen
  cases a <;> decide

theorem forward_disconnected {a : XConnStatus} (ha : Closed a) :
    Forward a XF_CONN_STATUS_DISCONNECTED := by
  revert ha
  cases a <;> decide

end XConnStatus

/-- What a look at a connection and its loop shows. -/
structure Moment where
  status : XConnStatus
  loop : XLoop Handler
  /-- Since the moment before, another object has used the loop, and the
      connection has done nothing. -/
  byOthers : Bool

/-- What the code in a callback does. -/
inductive LifeAct where
  | sendMsg (msg : List UInt8)
  | closeConnection
  /-- `setClosed()`, which the owner calls for a connection that is closed. -/
  | setClosed
  /-- Another object uses the loop. -/
  | others (op : RegistryOp Handler)

/-- One invocation of a callback. -/
structure LifeScript where
  acts : List LifeAct
  throws : Bool
  ret : Int

/-- What there is besides the connection and the loop.  `made` says that
    `makeConnected` was called. -/
structure Life where
  made : Bool
  scripts : List LifeScript
  moments : List Moment

/-- The descriptor of the connection is open, so the kernel gives its number to
    no other object; and other objects register handlers of their own. -/
def RegistryOp.Foreign (op : RegistryOp Handler) (c : ConnId) (sock : Fd) : Prop :=
  op.fd ≠ sock ∧ op.callback? ≠ some (.connHandleEvent c)

instance (op : RegistryOp Handler) (c : ConnId) (sock : Fd) : Decidable (op.Foreign c sock) :=
  inferInstanceAs (Decidable (_ ∧ _))

namespace XConnection

/-! ## Section 2: Runs -/

def observe (c : ConnId) (byOthers : Bool) : LoopM Life Unit :=
  modify fun w =>
    { w with ext := { w.ext with
      moments := w.ext.moments ++ [⟨(w.conns c).connStatus_, w.loop, byOthers⟩] } }

/-- Another object uses the loop. -/
def others (c : ConnId) (op : RegistryOp Handler) : LoopM Life Unit := do
  let w ← get
  if op.Foreign c (w.conns c).sock_ then do
    observe c false
    onLoop (·.apply op)
    observe c true
  else
    return ()

def nextLifeScript : LoopM Life LifeScript :=
  nextAnswer (·.ext.scripts) (fun rest w => { w with ext := { w.ext with scripts := rest } })
    .infeasible

def lifeAct (cbs : Callbacks Life) (c : ConnId) : LifeAct → LoopM Life Unit
  | .sendMsg msg => catching isException (sendMsgString cbs c msg) (pure ())
  | .closeConnection => catching isException (closeConnection cbs c) (pure ())
  | .setClosed => do
      let w ← get
      if (w.conns c).connStatus_.Closed then setClosed c else return ()
  | .others op => others c op

/-- A callback of the connection, whichever it is. -/
def lifeCallback (cbs : Callbacks Life) (_ : Invocation) (c : ConnId) : LoopM Life Int := do
  observe c false
  let s ← nextLifeScript
  sequence (fun act => do lifeAct cbs c act; observe c false) s.acts
  if s.throws then throw .exception else return s.ret

inductive LifeStep where
  /-- `makeConnected()`, unless it has been called. -/
  | makeConnected
  | input (i : Input)
  /-- Another object uses the loop. -/
  | others (op : RegistryOp Handler)

/-- Posted functors come from `sendMsg`, `closeConnection` and
    `closeConnectionAfter`, which post them if they see a connection that is
    connected: not before `makeConnected`. -/
def Input.posted : Input → Bool
  | .sendMsgToBuffer _ | .closeConn => true
  | .sendMsg _ | .closeConnection | .event _ _ => false

def makeOnce (cbs : Callbacks Life) (c : ConnId) : LoopM Life Unit := do
  let w ← get
  if w.ext.made then
    return ()
  else do
    modify fun w => { w with ext := { w.ext with made := true } }
    catching isException (makeConnected cbs c) (pure ())

def lifeInput (cbs : Callbacks Life) (fuel : Nat) (c : ConnId) (i : Input) :
    LoopM Life Unit := do
  let w ← get
  if i.posted ∧ w.ext.made = false then return () else input cbs fuel c i

def lifeStep (cbs : Callbacks Life) (fuel : Nat) (c : ConnId) : LifeStep → LoopM Life Unit
  | .makeConnected => makeOnce cbs c
  | .input i => lifeInput cbs fuel c i
  | .others op => others c op

/-- A run of a connection from its construction. -/
def runLife (cbs : Callbacks Life) (fuel : Nat) (c : ConnId) (steps : List LifeStep) :
    LoopM Life Unit := do
  observe c false
  sequence (fun step => do lifeStep cbs fuel c step; observe c false) steps

/-- The world in which a run from `w₀` ends, however it ends. -/
def endOfLife (depth fuel : Nat) (c : ConnId) (steps : List LifeStep) (w₀ : World Life) :
    World Life :=
  finalState ((runLife (nestedCallbacks lifeCallback depth) fuel c steps).run w₀)

/-- The connection has just been constructed, on a loop of this program that
    other objects may have been using.  The descriptor itself may be
    registered: the connector has watched it. -/
structure Constructed (c : ConnId) (w : World Life) : Prop where
  constructed : ∃ sock sentBytesCb decodeCb connCloseCb,
    XConnection.new sock sentBytesCb decodeCb connCloseCb = .ok (w.conns c)
  no_trace : w.trace c = []
  life : w.ext.made = false ∧ w.ext.moments = []
  not_registered : ∀ fd, w.loop.callbackOf fd ≠ some (.connHandleEvent c)
  loop : ∃ wakeupFd ops,
    (XLoop.create wakeupFd .wakeUpCallBack >>= (·.applyAll ops)) = .ok w.loop

/-- The life of a connection goes one way. -/
structure OneWay (c : ConnId) (w : World Life) : Prop where
  forward : w.ext.moments.Pairwise fun m m' => m.status.Forward m'.status
  once : (w.trace c).count .connClose ≤ 1
  unregistered : ∀ m ∈ w.ext.moments, m.status.Closed →
    m.loop.register_ (w.conns c).sock_ = none
  untouched : w.ext.moments.IsChain fun m m' =>
    m.status.Closed → m'.byOthers = false → m'.loop = m.loop

/-! ## Section 3: The invariant -/

/-- The moments so far and the connection as it is now go one way. -/
structure LifeInv (c : ConnId) (w : World Life) : Prop where
  synced : w.loop.Synced
  alive : (w.conns c).connStatus_ ∈ lifecycle
  moments : w.ext.moments.Pairwise fun m m' => m.status.Forward m'.status
  now : ∀ m ∈ w.ext.moments, m.status.Forward (w.conns c).connStatus_
  calls : (w.trace c).count .connClose ≤ if (w.conns c).connStatus_.Closed then 1 else 0
  removed : (w.conns c).connStatus_.Closed → w.loop.register_ (w.conns c).sock_ = none
  unregistered : ∀ m ∈ w.ext.moments, m.status.Closed →
    m.loop.register_ (w.conns c).sock_ = none
  untouched : w.ext.moments.IsChain fun m m' =>
    m.status.Closed → m'.byOthers = false → m'.loop = m.loop
  kept : ∀ m ∈ w.ext.moments.getLast?, m.status.Closed → w.loop = m.loop

variable {c : ConnId} {w w' : World Life}

theorem LifeInv.oneWay (h : LifeInv c w) : OneWay c w where
  forward := h.moments
  once := by
    have hcalls := h.calls
    split at hcalls <;> omega
  unregistered := h.unregistered
  untouched := h.untouched

/-- What the invariant does not look at may change. -/
theorem LifeInv.congr (h : LifeInv c w)
    (hstatus : (w'.conns c).connStatus_ = (w.conns c).connStatus_)
    (hsock : (w'.conns c).sock_ = (w.conns c).sock_) (hloop : w'.loop = w.loop)
    (hcalls : (w'.trace c).count .connClose = (w.trace c).count .connClose)
    (hmoments : w'.ext.moments = w.ext.moments) : LifeInv c w' where
  synced := by rw [hloop]; exact h.synced
  alive := by rw [hstatus]; exact h.alive
  moments := by rw [hmoments]; exact h.moments
  now := by rw [hmoments, hstatus]; exact h.now
  calls := by rw [hcalls, hstatus]; exact h.calls
  removed := by rw [hstatus, hloop, hsock]; exact h.removed
  unregistered := by rw [hmoments, hsock]; exact h.unregistered
  untouched := by rw [hmoments]; exact h.untouched
  kept := by rw [hmoments, hloop]; exact h.kept

/-- As long as the connection is open, no moment has seen it closed. -/
theorem LifeInv.not_closed (h : LifeInv c w) (hopen : ¬ (w.conns c).connStatus_.Closed)
    {m : Moment} (hm : m ∈ w.ext.moments) : ¬ m.status.Closed :=
  fun hclosed => hopen ((h.now m hm).closed hclosed)

/-- The connection may change the loop as long as it is open. -/
theorem LifeInv.setLoop (h : LifeInv c w) {loop : XLoop Handler} (hsynced : loop.Synced)
    (hclosed : (w.conns c).connStatus_.Closed → loop = w.loop) :
    LifeInv c { w with loop := loop } where
  synced := hsynced
  alive := h.alive
  moments := h.moments
  now := h.now
  calls := h.calls
  removed := by
    intro hc
    show loop.register_ _ = none
    rw [hclosed hc]
    exact h.removed hc
  unregistered := h.unregistered
  untouched := h.untouched
  kept := by
    intro m hm hmc
    have hc := (h.now m (List.mem_of_getLast? hm)).closed hmc
    show loop = m.loop
    rw [hclosed hc]
    exact h.kept m hm hmc

/-- The status goes forward, to a closed one if it is closed. -/
theorem LifeInv.setStatus (h : LifeInv c w) {status : XConnStatus}
    (hforward : (w.conns c).connStatus_.Forward status)
    (hclosed : status.Closed → w.loop.register_ (w.conns c).sock_ = none) :
    LifeInv c (w.setConn c { w.conns c with connStatus_ := status }) where
  synced := h.synced
  alive := by
    rw [World.setConn_self]
    exact hforward.2.1
  moments := h.moments
  now := by
    rw [World.setConn_self]
    exact fun m hm => (h.now m hm).trans hforward
  calls := by
    rw [World.setConn_self, World.setConn_trace]
    apply Nat.le_trans h.calls
    split
    · rename_i hc
      rw [if_pos (hforward.closed hc)]
    · exact Nat.zero_le _
  removed := by
    rw [World.setConn_self]
    exact hclosed
  unregistered := by
    rw [World.setConn_self]
    exact h.unregistered
  untouched := h.untouched
  kept := h.kept

theorem LifeInv.observe (h : LifeInv c w) (byOthers : Bool) {loop : XLoop Handler}
    (hsynced : loop.Synced)
    (hremoved : (w.conns c).connStatus_.Closed → loop.register_ (w.conns c).sock_ = none)
    (hkept : byOthers = false → loop = w.loop) :
    LifeInv c { w with
      loop := loop
      ext := { w.ext with
        moments := w.ext.moments ++ [⟨(w.conns c).connStatus_, loop, byOthers⟩] } } where
  synced := hsynced
  alive := h.alive
  moments := by
    rw [List.pairwise_append]
    refine ⟨h.moments, List.pairwise_singleton _ _, ?_⟩
    intro m hm m' hm'
    rw [List.mem_singleton.mp hm']
    exact h.now m hm
  now := by
    intro m hm
    rcases List.mem_append.mp hm with hm | hm
    · exact h.now m hm
    · rw [List.mem_singleton.mp hm]
      exact ⟨h.alive, h.alive, Nat.le_refl _⟩
  calls := h.calls
  removed := hremoved
  unregistered := by
    intro m hm
    rcases List.mem_append.mp hm with hm | hm
    · exact h.unregistered m hm
    · rw [List.mem_singleton.mp hm]
      exact hremoved
  untouched := by
    rw [List.isChain_append]
    refine ⟨h.untouched, List.isChain_singleton _, ?_⟩
    intro m hm m' hm' hmc hown
    cases hm'
    exact (hkept hown).trans (h.kept m hm hmc)
  kept := by
    rw [List.getLast?_append, List.getLast?_singleton]
    intro m hm _
    cases hm
    rfl

/-! ## Section 4: What the connection does -/

/-- The invariant from the moment `makeConnected` is called. -/
structure MadeInv (c : ConnId) (w : World Life) : Prop where
  life : LifeInv c w
  made : w.ext.made = true

theorem MadeInv.congr (h : MadeInv c w)
    (hstatus : (w'.conns c).connStatus_ = (w.conns c).connStatus_)
    (hsock : (w'.conns c).sock_ = (w.conns c).sock_) (hloop : w'.loop = w.loop)
    (hcalls : (w'.trace c).count .connClose = (w.trace c).count .connClose)
    (hmoments : w'.ext.moments = w.ext.moments) (hmade : w'.ext.made = w.ext.made) :
    MadeInv c w' :=
  ⟨h.life.congr hstatus hsock hloop hcalls hmoments, hmade.trans h.made⟩

theorem madeInv_ignoresInput : IgnoresInput (MadeInv c) c where
  script := fun _ _ h => h.congr rfl rfl rfl rfl rfl rfl
  reads := fun _ _ h => h.congr rfl rfl rfl rfl rfl rfl
  errno := fun _ _ h => h.congr rfl rfl rfl rfl rfl rfl
  readBuff := fun _ _ h => h.congr (by simp) (by simp) rfl rfl rfl rfl

theorem count_connClose_log {e : ConnEvent} (he : e ≠ .connClose) (w : World Life) :
    ((w.log c e).trace c).count .connClose = (w.trace c).count .connClose := by
  rw [World.log_self, List.count_append, List.count_singleton, if_neg (by simpa using he),
    Nat.add_zero]

/-- On a closed connection, whose descriptor is not registered, the loop does
    nothing when it is asked for the writable event. -/
theorem madeInv_survivesTraffic : SurvivesTraffic (MadeInv c) c where
  script := fun _ _ h => h.congr rfl rfl rfl rfl rfl rfl
  writes := fun _ _ h => h.congr rfl rfl rfl rfl rfl rfl
  errno := fun _ _ h => h.congr rfl rfl rfl rfl rfl rfl
  log := fun w _ he h => h.congr rfl rfl rfl (count_connClose_log he w) rfl rfl
  conn := fun _ _ hstatus hsock _ h =>
    h.congr (by simpa using hstatus) (by simpa using hsock) rfl rfl rfl rfl
  addEvent := by
    intro w loop hadd h
    obtain ⟨_, hok, hsynced⟩ := h.life.synced.addEvent (w.conns c).sock_ XE_WRITABLE
    cases hok.symm.trans hadd
    refine ⟨h.life.setLoop hsynced fun hclosed => ?_, h.made⟩
    rw [XLoop.addEvent_of_none (h.life.removed hclosed)] at hadd
    exact (Except.ok.inj hadd).symm
  removeEvent := by
    intro w loop hremove h
    obtain ⟨_, hok, hsynced⟩ := h.life.synced.removeEvent (w.conns c).sock_ XE_WRITABLE
    cases hok.symm.trans hremove
    refine ⟨h.life.setLoop hsynced fun hclosed => ?_, h.made⟩
    rw [XLoop.removeEvent_of_none (h.life.removed hclosed)] at hremove
    exact (Except.ok.inj hremove).symm

variable {live : Halt → Prop} {cbs : Callbacks Life}

/-- The status is what a second call looks at; and by the time the callback is
    called the descriptor is gone from the loop. -/
theorem madeInv_beginClose : Maintains live (MadeInv c) (beginClose c) := by
  intro w h
  show wp (get >>= fun w => _) _ _ w
  rw [wp_bind, wp_get, wp_ite]
  split
  · exact h
  · rename_i hstatus
    have hopen : ¬ (w.conns c).connStatus_.Closed := hstatus
    obtain ⟨loop, hremove, hsynced⟩ := h.life.synced.remove (w.conns c).sock_
    have hgone : loop.register_ (w.conns c).sock_ = none := by
      rw [XLoop.remove_register hremove, Function.update_self]
    have hremoved : LifeInv c { w with loop := loop } :=
      h.life.setLoop hsynced fun hclosed => absurd hclosed hopen
    have hclosed := hremoved.setStatus (forward_disconnecting h.life.alive hopen) fun _ => hgone
    rw [wp_bind, wp_modify, wp_bind, wp_onLoop]
    simp only [World.setConn_loop, hremove]
    rw [wp_ite]
    split
    · rw [wp_bind, wp_emit]
      -- the callback is called for the first time, since the connection was open
      have hcalls : (w.trace c).count .connClose = 0 := by
        have hle := h.life.calls
        rw [if_neg hopen] at hle
        exact Nat.le_zero.mp hle
      refine ⟨{ hclosed with calls := ?_ }, h.made⟩
      show ((World.log _ c .connClose).trace c).count .connClose ≤ _
      rw [World.log_self, List.count_append]
      show (w.trace c).count .connClose + 1 ≤ _
      rw [hcalls]
      simp [XConnStatus.Closed]
    · exact ⟨hclosed, h.made⟩

theorem madeInv_sendMsgToBuffer (hlive : live .exception)
    (hcbs : KeepCallbacks live (MadeInv c) c cbs) (msg : List UInt8) :
    Maintains live (MadeInv c) (sendMsgToBuffer cbs c msg) :=
  sendMsgToBuffer_maintains hlive madeInv_survivesTraffic hcbs.sentBytesCb msg

theorem madeInv_observe : Maintains live (MadeInv c) (observe c false) :=
  Maintains.modify fun _ h =>
    ⟨h.life.observe false h.life.synced h.life.removed fun _ => rfl, h.made⟩

/-! ## Section 5: What other objects do -/

/-- The moment before and the moment after tell what they did. -/
theorem wp_others {op : RegistryOp Handler} (h : LifeInv c w) :
    wp (others c op) (fun _ w' => LifeInv c w' ∧ w'.ext.made = w.ext.made ∧
        (w'.conns c).connStatus_ = (w.conns c).connStatus_ ∧
        ∀ fd, w'.loop.callbackOf fd = some (.connHandleEvent c) →
          w.loop.callbackOf fd = some (.connHandleEvent c))
      (fun _ _ => False) w := by
  show wp (get >>= fun w => _) _ _ w
  rw [wp_bind, wp_get, wp_ite]
  split
  · rename_i hforeign
    obtain ⟨loop, hop, hsynced⟩ := h.synced.apply op
    have hsock := XLoop.apply_callbackOf_of_ne hop (Ne.symm hforeign.1)
    have hhandler : ∀ fd, loop.callbackOf fd = some (.connHandleEvent c) →
        w.loop.callbackOf fd = some (.connHandleEvent c) := fun fd hfd =>
      (XLoop.callbackOf_of_apply hop hfd).resolve_left hforeign.2
    have hbefore := h.observe false h.synced h.removed fun _ => rfl
    have hremoved : (w.conns c).connStatus_.Closed → loop.register_ (w.conns c).sock_ = none := by
      intro hclosed
      rw [← XLoop.callbackOf_eq_none, hsock, XLoop.callbackOf_eq_none]
      exact h.removed hclosed
    have hafter := hbefore.observe true hsynced hremoved nofun
    show wp (modify _ >>= fun _ => _) _ _ w
    rw [wp_bind, wp_modify, wp_bind, wp_onLoop]
    simp only [hop]
    exact ⟨hafter, rfl, rfl, hhandler⟩
  · exact ⟨h, rfl, rfl, fun _ h => h⟩

theorem madeInv_others (op : RegistryOp Handler) : Maintains live (MadeInv c) (others c op) := by
  intro w h
  apply wp_mono _ _ (wp_others h.life)
  · rintro _ w' ⟨hlife, hmade, _, _⟩
    exact ⟨hlife, hmade.trans h.made⟩
  · exact fun _ _ hfalse => hfalse.elim

/-! ## Section 6: Callbacks and runs -/

theorem madeInv_lifeAct (hlive : live .exception) (hcbs : KeepCallbacks live (MadeInv c) c cbs)
    (act : LifeAct) : Maintains live (MadeInv c) (lifeAct cbs c act) := by
  cases act with
  | sendMsg msg =>
    have hsend := sendMsgString_maintains (madeInv_sendMsgToBuffer hlive hcbs) msg
    exact hsend.catching (caught_live hlive) (Maintains.pure ())
  | closeConnection =>
    have hclose := closeConnection_maintains (closeConn_maintains hlive hcbs madeInv_beginClose)
    exact hclose.catching (caught_live hlive) (Maintains.pure ())
  | setClosed =>
    intro w h
    show wp (get >>= fun w => _) _ _ w
    rw [wp_bind, wp_get, wp_ite]
    split
    · rename_i hclosed
      exact ⟨h.life.setStatus (forward_disconnected hclosed) fun _ => h.life.removed hclosed,
        h.made⟩
    · exact h
  | others op => exact madeInv_others op

theorem madeInv_lifeCallback (hlive : live .exception)
    (hcbs : KeepCallbacks live (MadeInv c) c cbs) (i : Invocation) :
    Maintains live (MadeInv c) (lifeCallback cbs i c) := by
  have hnext : Maintains live (MadeInv c) nextLifeScript :=
    Maintains.nextAnswer fun _ _ h => h.congr rfl rfl rfl rfl rfl rfl
  have hacts : ∀ acts, Maintains live (MadeInv c)
      (sequence (fun act => do lifeAct cbs c act; observe c false) acts) := fun acts =>
    Maintains.sequence acts fun act _ =>
      (madeInv_lifeAct hlive hcbs act).bind fun _ => madeInv_observe
  apply madeInv_observe.bind
  intro _
  apply hnext.bind
  intro s
  exact (hacts s.acts).bind fun _ => Maintains.ite (Maintains.throw _) (Maintains.pure _)

theorem madeInv_callbacks (hlive : live .exception) (depth : Nat) :
    KeepCallbacks live (MadeInv c) c (nestedCallbacks lifeCallback depth) :=
  nestedCallbacks_keep (fun _ hcbs i => madeInv_lifeCallback hlive hcbs i) depth

theorem madeInv_input (hlive : live .exception) (hcbs : KeepCallbacks live (MadeInv c) c cbs)
    (fuel : Nat) (i : Input) : Maintains live (MadeInv c) (input cbs fuel c i) := by
  apply Maintains.catching (caught_live hlive) _ (Maintains.pure ())
  cases i with
  | sendMsg msg => exact sendMsgString_maintains (madeInv_sendMsgToBuffer hlive hcbs) msg
  | sendMsgToBuffer msg => exact madeInv_sendMsgToBuffer hlive hcbs msg
  | closeConnection => exact closeConnection_maintains (closeConn_maintains hlive hcbs madeInv_beginClose)
  | closeConn => exact closeConn_maintains hlive hcbs madeInv_beginClose
  | event fd emask =>
    exact dispatch_maintains hlive madeInv_ignoresInput hcbs
      (fun e he => madeInv_survivesTraffic.emit (by rintro rfl; cases he))
      (sendMsg_maintains hlive madeInv_survivesTraffic hcbs.sentBytesCb) madeInv_beginClose
      fd emask

/-- Before `makeConnected` the connection is connecting, and its handler is not
    registered, so nothing reaches it. -/
structure LifeBefore (c : ConnId) (w : World Life) : Prop where
  life : LifeInv c w
  unmade : w.ext.made = false → (w.conns c).connStatus_ = XF_CONN_STATUS_CONNECTING ∧
    ∀ fd, w.loop.callbackOf fd ≠ some (.connHandleEvent c)

theorem MadeInv.lifeBefore (h : MadeInv c w) : LifeBefore c w :=
  ⟨h.life, fun hmade => absurd (h.made.symm.trans hmade) (by decide)⟩

theorem lifeBefore_observe : Maintains live (LifeBefore c) (observe c false) :=
  Maintains.modify fun _ h => ⟨h.life.observe false h.life.synced h.life.removed fun _ => rfl,
    h.unmade⟩

/-- What keeps the invariant of the made connection, when it does nothing to
    one that is not made. -/
theorem lifeBefore_of_madeInv {p : LoopM Life Unit} (hp : Maintains live (MadeInv c) p)
    (hunmade : ∀ w, LifeBefore c w → w.ext.made = false →
      wp p (fun _ => LifeBefore c) (fun e w => live e → LifeBefore c w) w) :
    Maintains live (LifeBefore c) p := by
  intro w h
  cases hmade : w.ext.made with
  | true =>
    exact wp_mono (fun _ _ h => h.lifeBefore) (fun _ _ h hl => (h hl).lifeBefore)
      (hp w ⟨h.life, hmade⟩)
  | false => exact hunmade w h hmade

/-- `makeConnected` up to its callback. -/
theorem wp_beginConnected_madeInv (h : MadeInv c w)
    (hstatus : (w.conns c).connStatus_ = XF_CONN_STATUS_CONNECTING) :
    wp (beginConnected c) (fun _ => MadeInv c) (fun _ _ => False) w := by
  obtain ⟨loop, hreg, hsynced⟩ :=
    h.life.synced.reg (w.conns c).sock_ 0 XE_READABLE (.connHandleEvent c)
  have hopen : ¬ XF_CONN_STATUS_CONNECTED.Closed := by decide
  have hforward : (w.conns c).connStatus_.Forward XF_CONN_STATUS_CONNECTED := by
    rw [hstatus]
    decide
  have hconnected := h.life.setStatus hforward fun hc => absurd hc hopen
  have hregistered := hconnected.setLoop hsynced fun hc => by
    rw [World.setConn_self] at hc
    exact absurd hc hopen
  show wp (get >>= fun w => _) _ _ w
  rw [wp_bind, wp_get, wp_bind, wp_modify, wp_bind, wp_onLoop]
  simp only [World.setConn_loop, hreg]
  exact madeInv_survivesTraffic.log _ _ (by simp) ⟨hregistered, h.made⟩

theorem lifeBefore_makeOnce (hlive : live .exception)
    (hcbs : KeepCallbacks live (MadeInv c) c cbs) :
    Maintains live (LifeBefore c) (makeOnce cbs c) := by
  intro w h
  show wp (get >>= fun w => _) _ _ w
  rw [wp_bind, wp_get, wp_ite]
  split
  · exact h
  · rename_i hmade
    obtain ⟨hstatus, _⟩ := h.unmade (Bool.eq_false_iff.mpr hmade)
    have hfirst : MadeInv c { w with ext := { w.ext with made := true } } :=
      ⟨h.life.congr rfl rfl rfl rfl rfl, rfl⟩
    have hmake : wp (makeConnected cbs c) (fun _ => MadeInv c)
        (fun e w => live e → MadeInv c w) { w with ext := { w.ext with made := true } } := by
      show wp (beginConnected c >>= fun _ => cbs.connFinishCb_ c) _ _ _
      rw [wp_bind]
      apply wp_mono _ (fun _ _ hfalse => hfalse.elim) (wp_beginConnected_madeInv hfirst hstatus)
      exact fun _ w₁ h₁ => hcbs.connFinishCb w₁ h₁
    rw [wp_bind, wp_modify, wp_catching]
    apply wp_mono (fun _ _ h => h.lifeBefore) _ hmake
    intro e w' hw'
    split
    · rename_i he
      exact (hw' (caught_live hlive e he)).lifeBefore
    · exact fun hl => (hw' hl).lifeBefore

theorem lifeBefore_lifeInput (hlive : live .exception)
    (hcbs : KeepCallbacks live (MadeInv c) c cbs) (fuel : Nat) (i : Input) :
    Maintains live (LifeBefore c) (lifeInput cbs fuel c i) := by
  apply lifeBefore_of_madeInv
  · apply Maintains.get.bind
    intro w
    exact Maintains.ite (Maintains.pure ()) (madeInv_input hlive hcbs fuel i)
  · intro w h hmade
    obtain ⟨hstatus, hreg⟩ := h.unmade hmade
    have hnot : (w.conns c).connStatus_ ≠ XF_CONN_STATUS_CONNECTED := by
      rw [hstatus]
      decide
    show wp (get >>= fun w => _) _ _ w
    rw [wp_bind, wp_get, wp_ite]
    cases i with
    | sendMsgToBuffer msg =>
      rw [if_pos ⟨rfl, hmade⟩]
      exact h
    | closeConn =>
      rw [if_pos ⟨rfl, hmade⟩]
      exact h
    | sendMsg msg =>
      rw [if_neg (by simp [Input.posted])]
      show wp (catching isException (get >>= fun w => _) _) _ _ w
      rw [wp_catching, wp_bind, wp_get, wp_ite, if_pos hnot]
      exact h
    | closeConnection =>
      rw [if_neg (by simp [Input.posted])]
      show wp (catching isException (get >>= fun w => _) _) _ _ w
      rw [wp_catching, wp_bind, wp_get, wp_ite, if_pos hnot]
      exact h
    | event fd emask =>
      rw [if_neg (by simp [Input.posted])]
      show wp (catching isException (get >>= fun w => _) _) _ _ w
      rw [wp_catching, wp_bind, wp_get, wp_ite, if_neg (hreg fd)]
      exact h

theorem lifeBefore_lifeStep (hlive : live .exception)
    (hcbs : KeepCallbacks live (MadeInv c) c cbs) (fuel : Nat) (step : LifeStep) :
    Maintains live (LifeBefore c) (lifeStep cbs fuel c step) := by
  cases step with
  | makeConnected => exact lifeBefore_makeOnce hlive hcbs
  | input i => exact lifeBefore_lifeInput hlive hcbs fuel i
  | others op =>
    apply lifeBefore_of_madeInv (madeInv_others op)
    intro w h hmade
    apply wp_mono _ (fun _ _ hfalse => hfalse.elim) (wp_others h.life)
    rintro _ w' ⟨hlife, _, hstatus, hhandler⟩
    refine ⟨hlife, fun _ => ?_⟩
    obtain ⟨hconnecting, hreg⟩ := h.unmade hmade
    exact ⟨hstatus.trans hconnecting, fun fd hfd => hreg fd (hhandler fd hfd)⟩

theorem lifeBefore_constructed (h : Constructed c w) : LifeBefore c w := by
  obtain ⟨sock, sb, dec, cc, hnew⟩ := h.constructed
  rw [XConnection.new_eq, Except.ok.injEq] at hnew
  have hstatus : (w.conns c).connStatus_ = XF_CONN_STATUS_CONNECTING := by
    rw [← hnew]
    rfl
  obtain ⟨wakeupFd, ops, hloop⟩ := h.loop
  have hopen : ¬ (w.conns c).connStatus_.Closed := by
    rw [hstatus]
    decide
  refine ⟨⟨?_, ?_, ?_, ?_, ?_, fun hc => absurd hc hopen, ?_, ?_, ?_⟩,
    fun _ => ⟨hstatus, h.not_registered⟩⟩
  · exact XLoop.synced_of_created hloop
  · rw [hstatus]
    decide
  · rw [h.life.2]
    exact List.Pairwise.nil
  · simp [h.life.2]
  · rw [h.no_trace]
    exact Nat.zero_le _
  · simp [h.life.2]
  · rw [h.life.2]
    exact List.isChain_nil
  · simp [h.life.2]

/-- **The life of a connection goes one way.**  In every run from the
    construction, with any inputs, any callbacks, and any use of the loop by
    other objects: the status goes forward only, the close callback is invoked
    at most once, and a closed connection is not registered in the loop and
    changes nothing there.  No object is destroyed inside a call here; when the
    connection goes is the subject of `ConnectionLifetime`. -/
theorem life_one_way {w₀ : World Life} (hinit : Constructed c w₀) (depth fuel : Nat)
    (steps : List LifeStep) : OneWay c (endOfLife depth fuel c steps w₀) := by
  have hlive : (fun _ : Halt => True) .exception := trivial
  have hcbs : KeepCallbacks (fun _ => True) (MadeInv c) c (nestedCallbacks lifeCallback depth) :=
    madeInv_callbacks hlive depth
  have hsteps : Maintains (fun _ => True) (LifeBefore c)
      (runLife (nestedCallbacks lifeCallback depth) fuel c steps) := by
    apply lifeBefore_observe.bind
    intro _
    apply Maintains.sequence steps
    intro step _
    exact (lifeBefore_lifeStep hlive hcbs fuel step).bind fun _ => lifeBefore_observe
  have hrun : wp (runLife (nestedCallbacks lifeCallback depth) fuel c steps)
      (fun _ => LifeBefore c) (fun _ => LifeBefore c) w₀ :=
    wp_mono (fun _ _ h => h) (fun _ _ h => h trivial) (hsteps w₀ (lifeBefore_constructed hinit))
  exact (wp_finalState hrun).life.oneWay

/-- A connection on descriptor 5, which the connector has watched. -/
def lifeStart (writes : List (List WriteOutcome)) (scripts : List LifeScript) : World Life where
  conns _ := XConnection.fresh 5 true true true
  loop :=
    { register_ := Function.update (Function.update (fun _ => none) 9
        (some ⟨XE_READABLE, 0, .wakeUpCallBack⟩)) 5 (some ⟨XE_WRITABLE, 0, .connectorOnEventHandle⟩)
      poller_ := Function.update (Function.update (fun _ => none) 9
        (some (XEpoller.epollMask XE_READABLE))) 5 (some (XEpoller.epollMask XE_WRITABLE)) }
  errno := .other
  writes := writes
  reads := []
  script := []
  trace _ := []
  ext := ⟨false, scripts, []⟩

theorem constructed_lifeStart (writes : List (List WriteOutcome)) (scripts : List LifeScript) :
    Constructed 0 (lifeStart writes scripts) where
  constructed := ⟨5, true, true, true, XConnection.new_eq ..⟩
  no_trace := rfl
  life := ⟨rfl, rfl⟩
  not_registered := by
    intro fd h
    simp only [XLoop.callbackOf, lifeStart, Function.update_apply] at h
    split at h
    · cases h
    · split at h <;> cases h
  loop := ⟨9, [.reg 5 0 XE_WRITABLE .connectorOnEventHandle], rfl⟩

/-- The finished callback sends; the sent-bytes callback closes while half of
    the message is left; the close callback sends again and marks the
    connection closed; then come a functor and an event that are too late. -/
theorem life_one_way_closed_in_sentBytes : ∃ w : World Life,
    w = endOfLife 4 5 0 [.makeConnected, .others (.reg 6 0 XE_READABLE .listenerHandleEvent),
        .input (.sendMsgToBuffer [3]), .input (.event 5 XE_READABLE)]
      (lifeStart [[.wrote 1, .zero]] [⟨[.sendMsg [1, 2]], false, 0⟩,
        ⟨[.closeConnection], false, 0⟩, ⟨[.sendMsg [4], .setClosed], false, 0⟩]) ∧
    w.ext.moments.map (·.status) = [XF_CONN_STATUS_CONNECTING, XF_CONN_STATUS_CONNECTED,
      XF_CONN_STATUS_CONNECTED, XF_CONN_STATUS_DISCONNECTING, XF_CONN_STATUS_DISCONNECTING,
      XF_CONN_STATUS_DISCONNECTED, XF_CONN_STATUS_DISCONNECTED, XF_CONN_STATUS_DISCONNECTED,
      XF_CONN_STATUS_DISCONNECTED, XF_CONN_STATUS_DISCONNECTED, XF_CONN_STATUS_DISCONNECTED,
      XF_CONN_STATUS_DISCONNECTED, XF_CONN_STATUS_DISCONNECTED, XF_CONN_STATUS_DISCONNECTED] ∧
    OneWay 0 w := by
  refine ⟨_, rfl, ?_, life_one_way (constructed_lifeStart _ _) 4 5 _⟩
  decide +kernel

end XConnection

end XFast
