import XFast.Net.BufferSpace
import XFast.Net.MessagePath

/-! # A server that sends every message back

    The program of `test/server/rollback`: a server with one handler, whose
    `Connected` greets a new connection and whose `dispatch` calls
    `sendResponse` once, with the buffer it was given.

    A message passes through both queues of the server: from the loop to the
    worker (`MessagePath`), and, as a response, from the worker back to the
    loop (`Mailbox`), which looks the number up in `connections_`.  What the
    handler prints is left out here; Section 5 is about it.

    The handler is attached before the loop is started, and nobody stops it. -/

namespace XFast

open Steps

/-! ## Section 1: What the steps of the path leave alone -/

namespace MessagePath

variable {s s' : MessagePath} {l : MessageStep}

/-- Only the call of `dispatch` adds to `seen`, only `messageComing` to
    `accepted`; a worker in `dispatch` stays there until `dispatch` ends. -/
structure Frame (s : MessagePath) (l : MessageStep) (s' : MessagePath) : Prop where
  seen : l ≠ .dispatch → s'.seen = s.seen
  accepted : s'.accepted = s.accepted ∨
    ∃ fd payload, l = .messageComing fd payload ∧ s'.accepted = s.accepted ++ [(fd, payload)]
  worker : s.worker = .dispatching → l ≠ .dispatchEnds → s'.worker = .dispatching
  isTerminate_ : l ≠ .stop → s'.isTerminate_ = s.isTerminate_

/-- A step that changes the queue and the worker, which is not in `dispatch`. -/
theorem Frame.of_queue {queue : XChan XBuffer} {worker : WorkerPhase}
    (hworker : s.worker = .dispatching → worker = .dispatching) :
    Frame s l { s with msgQueue_ := queue, worker := worker } :=
  ⟨fun _ => rfl, Or.inl rfl, fun h _ => hworker h, fun _ => rfl⟩

/-- A step that changes the worker, which is not in `dispatch`. -/
theorem Frame.of_worker {worker : WorkerPhase}
    (hworker : s.worker = .dispatching → worker = .dispatching) :
    Frame s l { s with worker := worker } :=
  -- the queue of `of_queue` is the one that is there
  show Frame s l { s with msgQueue_ := s.msgQueue_, worker := worker } from Frame.of_queue hworker

theorem frame_messageComing {fd : Int} {payload : List UInt8}
    (hstep : s.messageComing fd payload = some s') : Frame s (.messageComing fd payload) s' := by
  unfold messageComing at hstep
  split at hstep
  · cases hstep
    exact ⟨fun _ => rfl, Or.inl rfl, fun h _ => h, fun _ => rfl⟩
  · split at hstep
    · obtain ⟨queue, _, rfl⟩ := Option.map_eq_some_iff.mp hstep
      exact ⟨fun _ => rfl, Or.inr ⟨fd, payload, rfl, rfl⟩, fun h _ => h, fun _ => rfl⟩
    · cases hstep
      exact ⟨fun _ => rfl, Or.inl rfl, fun h _ => h, fun _ => rfl⟩

theorem step_frame (hstep : s.step l = some s') : Frame s l s' := by
  have hout : ∀ {phase : WorkerPhase} {worker : WorkerPhase}, phase ≠ .dispatching →
      s.worker = phase → s.worker = .dispatching → worker = .dispatching :=
    fun hne hphase h => absurd (hphase.symm.trans h) hne
  unfold step at hstep
  split at hstep
  · cases hstep
  · cases l with
    | messageComing fd payload =>
      dsimp only at hstep
      split at hstep
      · exact frame_messageComing hstep
      · cases hstep
    | addMsg =>
      obtain ⟨queue, _, rfl⟩ := Option.map_eq_some_iff.mp hstep
      exact Frame.of_queue fun h => h
    | loopTest =>
      dsimp only at hstep
      split at hstep
      · rename_i hworker
        split at hstep
        · cases hstep
          exact Frame.of_worker (hout (by decide) hworker)
        · obtain ⟨queue, _, rfl⟩ := Option.map_eq_some_iff.mp hstep
          exact Frame.of_queue (hout (by decide) hworker)
      · cases hstep
    | popNext =>
      dsimp only at hstep
      split at hstep
      · rename_i hworker
        obtain ⟨queue, _, rfl⟩ := Option.map_eq_some_iff.mp hstep
        exact Frame.of_queue (hout (by decide) hworker)
      · cases hstep
    | dispatch =>
      dsimp only at hstep
      split at hstep
      · split at hstep
        · cases hstep
          exact ⟨fun h => absurd rfl h, Or.inl rfl, fun _ _ => rfl, fun _ => rfl⟩
        · cases hstep
          exact ⟨fun h => absurd rfl h, Or.inl rfl, fun h _ => h, fun _ => rfl⟩
      · cases hstep
    | dispatchEnds =>
      dsimp only at hstep
      split at hstep
      · cases hstep
        exact ⟨fun _ => rfl, Or.inl rfl, fun _ h => absurd rfl h, fun _ => rfl⟩
      · cases hstep
    | stop =>
      cases hstep
      exact ⟨fun _ => rfl, Or.inl rfl, fun h _ => h, fun h => absurd rfl h⟩

/-- Under the invariant the call of `dispatch` is made, with what the buffer
    holds. -/
theorem step_dispatch (h : s.Inv) (hstep : s.step .dispatch = some s') :
    ∃ buffer uid rest, s.worker = .received buffer ∧ buffer.readInt32 = .ok (uid, rest) ∧
      rest.Valid ∧ s'.seen = s.seen ++ [(uid, rest.readable)] ∧ s'.worker = .dispatching := by
  unfold step at hstep
  rw [if_neg (by rw [h.passed]; exact Bool.false_ne_true)] at hstep
  dsimp only at hstep
  split at hstep
  · rename_i buffer hworker
    obtain ⟨rest', _, hcarry⟩ := h.messages
    rw [underway, hworker] at hcarry
    obtain ⟨message, _, hcarries, _, _⟩ := List.forall₂_cons_right_iff.mp hcarry
    obtain ⟨rest, hread, hvalid, _⟩ :=
      XBuffer.readInt32_spec hcarries.valid hcarries.readable hcarries.low hcarries.high
    rw [hread] at hstep
    cases hstep
    exact ⟨buffer, message.1, rest, hworker, hread, hvalid, rfl, rfl⟩
  · cases hstep

end MessagePath

/-! ## Section 2: The server -/

/-- What `RollBackHandler::Connected` sends. -/
def welcome : List UInt8 := "hello client, welcome".toList.map fun c => UInt8.ofNat c.toNat

/-- `handling` has the arguments of the running `dispatch`, as long as it has
    not called `sendResponse`; `sent` has the messages handed to `sendMsg`,
    with the number of the connection. -/
structure Rollback where
  path : MessagePath
  handling : Option (Int × XBuffer)
  mailbox : Mailbox (Int × List UInt8)
  connections_ : List Fd
  sent : List (Int × List UInt8)

inductive RollbackStep where
  /-- The kernel gives a connection a number that is not open; the handler is
      told. -/
  | acceptNewConnection (fd : Fd)
  /-- The connection with this number is closed. -/
  | closeConnection (fd : Fd)
  /-- A message goes on towards the worker. -/
  | message (l : MessageStep)
  /-- `dispatch` calls `sendResponse`. -/
  | sendResponse
  /-- The loop takes a step over the posted functors. -/
  | process (l : MailboxStep (Int × List UInt8))
  deriving DecidableEq, Repr

namespace Rollback

def initial : Rollback := ⟨MessagePath.initial, none, Mailbox.initial, [], []⟩

/-- The loop thread is not in the middle of `addMsg`. -/
def LoopFree (s : Rollback) : Prop := s.path.msgQueue_.pending = []

instance (s : Rollback) : Decidable s.LoopFree :=
  match h : s.path.msgQueue_.pending with
  | [] => isTrue h
  | _ :: _ => isFalse fun hnil => by rw [LoopFree, h] at hnil; cases hnil

/-- A message comes from a connection in the table, `dispatch` does not end
    before it has called `sendResponse`, and nobody stops the handler. -/
def Allows (s : Rollback) : MessageStep → Prop
  | .messageComing fd _ => fd ∈ s.connections_
  | .dispatchEnds => s.handling = none
  | .stop => False
  | .addMsg | .loopTest | .popNext | .dispatch => True

instance (s : Rollback) : ∀ l, Decidable (s.Allows l)
  | .messageComing fd _ => inferInstanceAs (Decidable (fd ∈ s.connections_))
  | .dispatchEnds => inferInstanceAs (Decidable (s.handling = none))
  | .stop => isFalse id
  | .addMsg | .loopTest | .popNext | .dispatch => isTrue trivial

/-- `dispatch` is called with the number and the rest of the buffer. -/
def handlingAfter (s : Rollback) : MessageStep → Option (Int × XBuffer)
  | .dispatch =>
      match s.path.worker with
      | .received buffer => buffer.readInt32.toOption
      | _ => s.handling
  | _ => s.handling

/-- `sendMsg` on a connection in the table, which is connected. -/
def sendMsg (s : Rollback) (fd : Fd) (msg : List UInt8) : Rollback :=
  { s with sent := s.sent ++ [(fd, msg)] }

/-- `connections_[fd] = connPtr`, and `handleConnected`. -/
def acceptNewConnection (s : Rollback) (fd : Fd) : Rollback :=
  let s := { s with connections_ := fd :: s.connections_ }
  if s.path.isTerminate_ then s else s.sendMsg fd welcome

def doSendResponse (s : Rollback) (uid : Int) (buffer : List UInt8) : Rollback :=
  if uid ∈ s.connections_ then s.sendMsg uid buffer else s

/-- The steps of the loop over `extraEvents_`. -/
def process (s : Rollback) : MailboxStep (Int × List UInt8) → Option Rollback
  | .scheduleToLoopThread _ => none
  | .runNext =>
      match s.mailbox.next?, s.mailbox.step .runNext with
      | some fun_, some mailbox =>
          some ({ s with mailbox := mailbox }.doSendResponse fun_.2.1 fun_.2.2)
      | _, _ => none
  | l => (s.mailbox.step l).map fun mailbox => { s with mailbox := mailbox }

def step (s : Rollback) : RollbackStep → Option Rollback
  | .acceptNewConnection fd =>
      if s.LoopFree ∧ fd ∉ s.connections_ then some (s.acceptNewConnection fd) else none
  | .closeConnection fd =>
      if s.LoopFree ∧ fd ∈ s.connections_ then
        some { s with connections_ := s.connections_.erase fd }
      else none
  | .message l =>
      if s.Allows l then
        (s.path.step l).map fun path => { s with path := path, handling := s.handlingAfter l }
      else none
  | .sendResponse =>
      match s.handling with
      | none => none
      | some (uid, buffer) =>
          match buffer.readAll with
          | .ok (resp, _) => (s.mailbox.step (.scheduleToLoopThread (uid, resp))).map
              fun mailbox => { s with mailbox := mailbox, handling := none }
          -- an `assert` of `readStr` has failed
          | .error _ => some { s with path := { s.path with failed := true } }
  | .process l => if s.LoopFree then s.process l else none

/-! ## Section 3: One step -/

/-- One constructor for each step, with its guard. -/
inductive StepTo (s : Rollback) : RollbackStep → Rollback → Prop where
  | acceptNewConnection (fd : Fd) (hfree : fd ∉ s.connections_) :
      StepTo s (.acceptNewConnection fd) (s.acceptNewConnection fd)
  | closeConnection (fd : Fd) :
      StepTo s (.closeConnection fd) { s with connections_ := s.connections_.erase fd }
  | message (l : MessageStep) (path : MessagePath) (hallows : s.Allows l)
      (hstep : s.path.step l = some path) :
      StepTo s (.message l) { s with path := path, handling := s.handlingAfter l }
  | sendResponse (uid : Int) (buffer : XBuffer) (resp : List UInt8) (rest : XBuffer)
      (mailbox : Mailbox (Int × List UInt8)) (hhandling : s.handling = some (uid, buffer))
      (hread : buffer.readAll = .ok (resp, rest))
      (hpost : s.mailbox.step (.scheduleToLoopThread (uid, resp)) = some mailbox) :
      StepTo s .sendResponse { s with mailbox := mailbox, handling := none }
  | asserts (uid : Int) (buffer : XBuffer) (hhandling : s.handling = some (uid, buffer))
      (hread : ∀ resp, buffer.readAll ≠ .ok resp) :
      StepTo s .sendResponse { s with path := { s.path with failed := true } }
  | runNext (fun_ : Nat × Int × List UInt8) (mailbox : Mailbox (Int × List UInt8))
      (hnext : s.mailbox.next? = some fun_) (hstep : s.mailbox.step .runNext = some mailbox) :
      StepTo s (.process .runNext)
        ({ s with mailbox := mailbox }.doSendResponse fun_.2.1 fun_.2.2)
  | process (l : MailboxStep (Int × List UInt8)) (mailbox : Mailbox (Int × List UInt8))
      (hpost : ∀ r, l ≠ .scheduleToLoopThread r) (hnot : l ≠ .runNext)
      (hstep : s.mailbox.step l = some mailbox) :
      StepTo s (.process l) { s with mailbox := mailbox }

theorem step_cases {s s' : Rollback} {l : RollbackStep} (h : s.step l = some s') :
    StepTo s l s' := by
  cases l with
  | acceptNewConnection fd =>
    dsimp only [step] at h
    split at h
    · rename_i hguard
      cases h
      exact .acceptNewConnection fd hguard.2
    · cases h
  | closeConnection fd =>
    dsimp only [step] at h
    split at h
    · cases h
      exact .closeConnection fd
    · cases h
  | message l =>
    dsimp only [step] at h
    split at h
    · rename_i hallows
      obtain ⟨path, hstep, rfl⟩ := Option.map_eq_some_iff.mp h
      exact .message l path hallows hstep
    · cases h
  | sendResponse =>
    dsimp only [step] at h
    split at h
    · cases h
    · rename_i uid buffer hhandling
      split at h
      · rename_i resp rest hread
        obtain ⟨mailbox, hpost, rfl⟩ := Option.map_eq_some_iff.mp h
        exact .sendResponse uid buffer resp rest mailbox hhandling hread hpost
      · rename_i hread
        cases h
        exact .asserts uid buffer hhandling fun resp hok => by rw [hread] at hok; cases hok
  | process l =>
    dsimp only [step] at h
    split at h
    · unfold process at h
      split at h
      · cases h
      · split at h
        · rename_i fun_ mailbox hnext hstep
          cases h
          exact .runNext fun_ mailbox hnext hstep
        · cases h
      · rename_i hpost hnot
        obtain ⟨mailbox, hstep, rfl⟩ := Option.map_eq_some_iff.mp h
        exact .process l mailbox hpost hnot hstep
    · cases h

/-! ## Section 4: Runs -/

/-- The message that `dispatch` has been called with and not answered yet. -/
def owed : Option (Int × XBuffer) → List (Int × List UInt8)
  | none => []
  | some (uid, buffer) => [(uid, buffer.readable)]

/-- Every message that `dispatch` was called with has been posted as a
    response, but for the one in its hands. -/
structure Inv (s : Rollback) : Prop where
  path : s.path.Inv
  mailbox : s.mailbox.Inv
  answered : s.path.seen = s.mailbox.posted.map Prod.snd ++ owed s.handling
  valid : ∀ uid buffer, s.handling = some (uid, buffer) → buffer.Valid
  worker : s.handling ≠ none → s.path.worker = .dispatching
  running : s.path.isTerminate_ = false

theorem inv_initial : initial.Inv where
  path := MessagePath.inv_initial
  mailbox := Mailbox.inv_initial
  answered := rfl
  valid _ _ h := by cases h
  worker h := absurd rfl h
  running := rfl

variable {s s' : Rollback}

/-- A step of the path other than the call of `dispatch`. -/
theorem Inv.message (h : s.Inv) {l : MessageStep} {path : MessagePath} (hl : l ≠ .dispatch)
    (hallows : s.Allows l) (hstep : s.path.step l = some path) :
    Inv { s with path := path, handling := s.handlingAfter l } := by
  have hframe := MessagePath.step_frame hstep
  have hhandling : s.handlingAfter l = s.handling := by
    cases l <;> first | rfl | exact absurd rfl hl
  rw [hhandling]
  refine ⟨MessagePath.inv_step _ _ _ h.path hstep, h.mailbox, ?_, h.valid, ?_, ?_⟩
  · show path.seen = _
    rw [hframe.seen hl]
    exact h.answered
  · intro hsome
    apply hframe.worker (h.worker hsome)
    rintro rfl
    exact hsome hallows
  · show path.isTerminate_ = false
    rw [hframe.isTerminate_ (by rintro rfl; exact hallows)]
    exact h.running

/-- The call of `dispatch`: the worker was not in `dispatch`, so nothing was
    owed. -/
theorem Inv.dispatch (h : s.Inv) {path : MessagePath} (hstep : s.path.step .dispatch = some path) :
    Inv { s with path := path, handling := s.handlingAfter .dispatch } := by
  obtain ⟨buffer, uid, rest, hworker, hread, hvalid, hseen, hworker'⟩ :=
    MessagePath.step_dispatch h.path hstep
  have hnone : s.handling = none := by
    by_contra hsome
    rw [h.worker hsome] at hworker
    cases hworker
  have hhandling : s.handlingAfter .dispatch = some (uid, rest) := by
    simp only [handlingAfter, hworker, hread, Except.toOption]
  have hanswered := h.answered
  rw [hnone] at hanswered
  rw [hhandling]
  refine ⟨MessagePath.inv_step _ _ _ h.path hstep, h.mailbox, ?_, ?_, fun _ => hworker', ?_⟩
  · show path.seen = s.mailbox.posted.map Prod.snd ++ [(uid, rest.readable)]
    rw [hseen, hanswered]
    exact congrArg (· ++ _) (List.append_nil _)
  · intro uid' buffer' heq
    cases heq
    exact hvalid
  · exact ((MessagePath.step_frame hstep).isTerminate_ (by decide)).trans h.running

/-- `readAll` takes all of the buffer. -/
theorem readAll_spec {b : XBuffer} (hv : b.Valid) :
    ∃ rest, b.readAll = .ok (b.readable, rest) := by
  obtain ⟨rest, hread, _, _⟩ := XBuffer.readStr_spec hv (Nat.le_refl b.readableBytes)
  refine ⟨rest, ?_⟩
  rw [XBuffer.readAll, hread, ← hv.length_readable, List.take_length]

theorem inv_step (s : Rollback) (l : RollbackStep) (s' : Rollback) (h : s.Inv)
    (hstep : s.step l = some s') : s'.Inv := by
  cases step_cases hstep with
  | acceptNewConnection fd _ =>
    unfold acceptNewConnection
    dsimp only
    split <;> exact ⟨h.path, h.mailbox, h.answered, h.valid, h.worker, h.running⟩
  | closeConnection fd => exact ⟨h.path, h.mailbox, h.answered, h.valid, h.worker, h.running⟩
  | message l path hallows hpath =>
    by_cases hl : l = .dispatch
    · subst hl
      exact h.dispatch hpath
    · exact h.message hl hallows hpath
  | sendResponse uid buffer resp rest mailbox hhandling hread hpost =>
    obtain ⟨_, hall⟩ := readAll_spec (h.valid uid buffer hhandling)
    rw [hall] at hread
    cases hread
    have hanswered := h.answered
    rw [hhandling] at hanswered
    refine ⟨h.path, Mailbox.inv_step _ _ _ h.mailbox hpost, ?_, nofun,
      fun hsome => absurd rfl hsome, h.running⟩
    cases hpost
    show s.path.seen = (s.mailbox.posted ++ [(_, (uid, buffer.readable))]).map Prod.snd ++ []
    rw [List.append_nil, List.map_append]
    exact hanswered
  | asserts uid buffer hhandling hread =>
    obtain ⟨rest, hall⟩ := readAll_spec (h.valid uid buffer hhandling)
    exact absurd hall (hread _)
  | runNext fun_ mailbox hnext hrun =>
    have hposted : mailbox.posted = s.mailbox.posted := by
      cases Mailbox.step_cases hrun
      rfl
    have hkept : Inv { s with mailbox := mailbox } :=
      ⟨h.path, Mailbox.inv_step _ _ _ h.mailbox hrun, by rw [hposted]; exact h.answered, h.valid,
        h.worker, h.running⟩
    unfold doSendResponse
    split
    · exact ⟨hkept.path, hkept.mailbox, hkept.answered, hkept.valid, hkept.worker, hkept.running⟩
    · exact hkept
  | process l mailbox hpost _ hrun =>
    have hposted : mailbox.posted = s.mailbox.posted := by
      cases Mailbox.step_cases hrun with
      | scheduleToLoopThread handle => exact absurd rfl (hpost handle)
      | _ => rfl
    exact ⟨h.path, Mailbox.inv_step _ _ _ h.mailbox hrun, by rw [hposted]; exact h.answered,
      h.valid, h.worker, h.running⟩

/-- The payloads of the messages with this number. -/
def payloadsOf (fd : Fd) (ms : List (Int × List UInt8)) : List (List UInt8) :=
  ms.filterMap fun m => if m.1 = fd then some m.2 else none

@[simp] theorem payloadsOf_append (fd : Fd) (ms ms' : List (Int × List UInt8)) :
    payloadsOf fd (ms ++ ms') = payloadsOf fd ms ++ payloadsOf fd ms' :=
  List.filterMap_append

@[simp] theorem payloadsOf_self (fd : Fd) (payload : List UInt8) :
    payloadsOf fd [(fd, payload)] = [payload] := by
  simp [payloadsOf]

theorem payloadsOf_of_ne {fd fd' : Fd} (h : fd' ≠ fd) (payload : List UInt8) :
    payloadsOf fd [(fd', payload)] = [] := by
  simp [payloadsOf, h]

/-- What was handed to `sendMsg` of the connection with this number. -/
def sentTo (s : Rollback) (fd : Fd) : List (List UInt8) := payloadsOf fd s.sent

/-- The messages that the server has taken from it. -/
def receivedFrom (s : Rollback) (fd : Fd) : List (List UInt8) := payloadsOf fd s.path.accepted

/-- The responses to it that the loop has come to. -/
def answers (s : Rollback) (fd : Fd) : List (List UInt8) :=
  payloadsOf fd (s.mailbox.ran.map Prod.snd)

/-- The responses the loop has come to are some of the messages, in order. -/
theorem Inv.answers_sublist (h : s.Inv) (fd : Fd) :
    (s.answers fd).Sublist (s.receivedFrom fd) := by
  obtain ⟨rest, haccepted, _⟩ := h.path.messages
  have hposted : (s.mailbox.posted.map Prod.snd).Sublist s.path.accepted := by
    rw [haccepted, h.answered, List.append_assoc]
    exact List.sublist_append_left _ _
  exact ((h.mailbox.inOrder.1.map Prod.snd).trans hposted).filterMap _

/-- A connection that is not closed: it was greeted, and has been sent every
    response the loop has come to. -/
structure Serves (fd : Fd) (s : Rollback) : Prop where
  opened : fd ∈ s.connections_ → s.sentTo fd = welcome :: s.answers fd
  unopened : fd ∉ s.connections_ → s.receivedFrom fd = [] ∧ s.sentTo fd = []

theorem serves_initial (fd : Fd) : initial.Serves fd :=
  ⟨fun h => (List.not_mem_nil h).elim, fun _ => ⟨rfl, rfl⟩⟩

theorem Serves.accept {fd fd' : Fd} (h : s.Serves fd) (hinv : s.Inv)
    (hfree : fd' ∉ s.connections_) : (s.acceptNewConnection fd').Serves fd := by
  have hrunning : ¬s.path.isTerminate_ = true := by
    rw [hinv.running]
    exact Bool.false_ne_true
  have hsent : ∀ fd, (s.acceptNewConnection fd').sentTo fd =
      s.sentTo fd ++ payloadsOf fd [(fd', welcome)] := by
    intro fd
    unfold acceptNewConnection
    dsimp only
    rw [if_neg hrunning]
    exact payloadsOf_append ..
  have hsame : ∀ fd, (s.acceptNewConnection fd').answers fd = s.answers fd ∧
      (s.acceptNewConnection fd').receivedFrom fd = s.receivedFrom fd ∧
      (s.acceptNewConnection fd').connections_ = fd' :: s.connections_ := by
    intro fd
    unfold acceptNewConnection
    dsimp only
    rw [if_neg hrunning]
    exact ⟨rfl, rfl, rfl⟩
  obtain ⟨hanswers, hreceived, hconnections⟩ := hsame fd
  by_cases heq : fd' = fd
  · subst heq
    -- nothing has come from it, so nothing has been answered
    obtain ⟨hnone, hunsent⟩ := h.unopened hfree
    have hnoanswer : s.answers fd' = [] := by
      have hsub := hinv.answers_sublist fd'
      rw [hnone] at hsub
      exact List.sublist_nil.mp hsub
    refine ⟨fun _ => ?_, fun hnot => absurd ?_ hnot⟩
    · rw [hsent, hanswers, hunsent, hnoanswer, payloadsOf_self]
      rfl
    · rw [hconnections]
      exact List.mem_cons_self
  · have hmem : fd ∈ (s.acceptNewConnection fd').connections_ ↔ fd ∈ s.connections_ := by
      rw [hconnections, List.mem_cons]
      exact or_iff_right fun hfd => heq hfd.symm
    have hunchanged : (s.acceptNewConnection fd').sentTo fd = s.sentTo fd := by
      rw [hsent, payloadsOf_of_ne heq, List.append_nil]
    refine ⟨fun hopen => ?_, fun hnot => ?_⟩
    · rw [hunchanged, hanswers]
      exact h.opened (hmem.mp hopen)
    · rw [hunchanged, hreceived]
      exact h.unopened fun hopen => hnot (hmem.mpr hopen)

/-- The loop comes to a response. -/
theorem Serves.runNext {fd : Fd} (h : s.Serves fd)
    {fun_ : Nat × Int × List UInt8} {mailbox : Mailbox (Int × List UInt8)}
    (hnext : s.mailbox.next? = some fun_) (hrun : s.mailbox.step .runNext = some mailbox) :
    ({ s with mailbox := mailbox }.doSendResponse fun_.2.1 fun_.2.2).Serves fd := by
  obtain ⟨number, uid, buffer⟩ := fun_
  have hran : mailbox.ran = s.mailbox.ran ++ [(number, uid, buffer)] := by
    rcases Mailbox.step_cases hrun with _ | _ | ⟨pos, hphase, hlt⟩
    have hget : s.mailbox.extraEvents_[pos]? = some (number, uid, buffer) := by
      rw [← hnext, Mailbox.next?, hphase]
    obtain ⟨_, hthis⟩ := List.getElem?_eq_some_iff.mp hget
    show s.mailbox.ran ++ [_] = _
    rw [hthis]
  have hanswers : payloadsOf fd (mailbox.ran.map Prod.snd) =
      s.answers fd ++ payloadsOf fd [(uid, buffer)] := by
    rw [hran, List.map_append, payloadsOf_append]
    rfl
  unfold doSendResponse
  dsimp only
  split
  · rename_i hfound
    refine ⟨fun hopen => ?_, fun hnot => ?_⟩
    · show payloadsOf fd (s.sent ++ [(uid, buffer)]) =
        welcome :: payloadsOf fd (mailbox.ran.map Prod.snd)
      rw [hanswers, payloadsOf_append, ← List.cons_append, ← h.opened hopen]
      rfl
    · have hne : uid ≠ fd := by
        rintro rfl
        exact hnot hfound
      obtain ⟨hnone, hunsent⟩ := h.unopened hnot
      refine ⟨hnone, ?_⟩
      show payloadsOf fd (s.sent ++ [(uid, buffer)]) = []
      rw [payloadsOf_append, payloadsOf_of_ne hne, List.append_nil]
      exact hunsent
  · rename_i hlost
    refine ⟨fun hopen => ?_, h.unopened⟩
    have hne : uid ≠ fd := by
      rintro rfl
      exact hlost hopen
    show s.sentTo fd = welcome :: payloadsOf fd (mailbox.ran.map Prod.snd)
    rw [hanswers, payloadsOf_of_ne hne, List.append_nil]
    exact h.opened hopen

theorem Serves.message {fd : Fd} (h : s.Serves fd) {l : MessageStep} {path : MessagePath}
    (hallows : s.Allows l) (hstep : s.path.step l = some path)
    {handling : Option (Int × XBuffer)} :
    Serves fd { s with path := path, handling := handling } := by
  refine ⟨h.opened, fun hnot => ⟨?_, (h.unopened hnot).2⟩⟩
  show payloadsOf fd path.accepted = []
  rcases (MessagePath.step_frame hstep).accepted with hsame | ⟨fd', payload, rfl, hmore⟩
  · rw [hsame]
    exact (h.unopened hnot).1
  · -- the message comes from a connection in the table, so from another one
    have hne : fd' ≠ fd := by
      rintro rfl
      exact hnot hallows
    rw [hmore, payloadsOf_append, payloadsOf_of_ne hne, List.append_nil]
    exact (h.unopened hnot).1

theorem serves_step {fd : Fd} {l : RollbackStep} (h : s.Serves fd) (hinv : s.Inv)
    (hkept : l ≠ .closeConnection fd) (hstep : s.step l = some s') : s'.Serves fd := by
  cases step_cases hstep with
  | acceptNewConnection fd' hfree => exact h.accept hinv hfree
  | closeConnection fd' =>
    have hne : fd ≠ fd' := by
      rintro rfl
      exact hkept rfl
    have hmem : fd ∈ s.connections_.erase fd' ↔ fd ∈ s.connections_ :=
      List.mem_erase_of_ne hne
    exact ⟨fun hopen => h.opened (hmem.mp hopen),
      fun hnot => h.unopened fun hopen => hnot (hmem.mpr hopen)⟩
  | message l path hallows hpath => exact h.message hallows hpath
  | sendResponse uid buffer resp rest mailbox hhandling hread hpost =>
    cases hpost
    exact ⟨h.opened, h.unopened⟩
  | asserts uid buffer hhandling hread => exact ⟨h.opened, h.unopened⟩
  | runNext fun_ mailbox hnext hrun => exact h.runNext hnext hrun
  | process l mailbox hpost hnot hrun =>
    have hran : mailbox.ran = s.mailbox.ran := by
      cases Mailbox.step_cases hrun with
      | runNext => exact absurd rfl hnot
      | _ => rfl
    refine ⟨fun hopen => ?_, h.unopened⟩
    show s.sentTo fd = welcome :: payloadsOf fd (mailbox.ran.map Prod.snd)
    rw [hran]
    exact h.opened hopen

/-- No response is posted into the gap before the list is cleared. -/
def Punctual (s : Rollback) : RollbackStep → Prop
  | .sendResponse => ∀ pos, s.mailbox.phase ≠ .ended pos
  | _ => True

instance (s : Rollback) : ∀ l, Decidable (s.Punctual l)
  | .sendResponse => inferInstanceAs (Decidable (∀ pos, s.mailbox.phase ≠ .ended pos))
  | .acceptNewConnection _ | .closeConnection _ | .message _ | .process _ => isTrue trivial

theorem complete_step (s : Rollback) (l : RollbackStep) (s' : Rollback)
    (h : s.Inv ∧ s.mailbox.Complete) (hgood : s.Punctual l) (hstep : s.step l = some s') :
    s'.Inv ∧ s'.mailbox.Complete := by
  obtain ⟨hinv, hcomplete⟩ := h
  refine ⟨inv_step s l s' hinv hstep, ?_⟩
  have hmail : ∀ {m : MailboxStep (Int × List UInt8)} {mailbox},
      s.mailbox.step m = some mailbox → s.mailbox.Punctual m → mailbox.Complete :=
    fun hm hp => (Mailbox.complete_step _ _ _ hinv.mailbox hm).mpr ⟨hcomplete, hp⟩
  cases step_cases hstep with
  | acceptNewConnection fd _ =>
    unfold acceptNewConnection
    dsimp only
    split <;> exact hcomplete
  | closeConnection fd => exact hcomplete
  | message l path _ _ => exact hcomplete
  | sendResponse uid buffer resp rest mailbox hhandling hread hpost => exact hmail hpost hgood
  | asserts uid buffer hhandling hread => exact hcomplete
  | runNext fun_ mailbox hnext hrun =>
    unfold doSendResponse
    split <;> exact hmail hrun trivial
  | process l mailbox hpost hnot hrun =>
    apply hmail hrun
    cases l with
    | scheduleToLoopThread handle => exact absurd rfl (hpost handle)
    | _ => trivial

/-- Nothing is on its way through the server. -/
structure Idle (s : Rollback) : Prop where
  path : s.path.underway = []
  handling : s.handling = none
  mailbox : s.mailbox.extraEvents_ = []

/-- Where no response was posted into the gap, what the loop has come to is the
    beginning of what was accepted. -/
theorem Inv.answers_prefix (h : s.Inv) (hcomplete : s.mailbox.Complete) (fd : Fd) :
    s.answers fd <+: s.receivedFrom fd ∧ (s.Idle → s.answers fd = s.receivedFrom fd) := by
  obtain ⟨hfirst, hall⟩ := h.mailbox.ran_prefix hcomplete
  obtain ⟨rest, haccepted, hrest⟩ := h.path.messages
  have hposted : s.path.accepted =
      s.mailbox.posted.map Prod.snd ++ (owed s.handling ++ rest) := by
    rw [haccepted, h.answered, List.append_assoc]
  unfold answers receivedFrom payloadsOf
  constructor
  · apply List.IsPrefix.filterMap
    rw [hposted]
    exact (hfirst.map Prod.snd).trans (List.prefix_append _ _)
  · intro hidle
    rw [hidle.path, List.forall₂_nil_right_iff] at hrest
    rw [hposted, hall hidle.mailbox, hidle.handling, hrest]
    exact congrArg _ (List.append_nil _).symm

/-- **Echo.**  In every interleaving of the loop with the worker in which no
    connection with this number is closed, neither the present one nor one
    before it: the handler's greeting, and then its own messages, each at most
    once and in the order in which it sent them, have been sent to it.  If no
    response is posted into the gap before the list of functors is cleared, no
    message is left out; and all of them have been sent back when nothing is on
    its way. -/
theorem echoes_in_order {fd : Fd} {ls : List RollbackStep}
    (hkept : ∀ l ∈ ls, l ≠ .closeConnection fd) (hrun : run step initial ls = some s)
    (hopen : fd ∈ s.connections_) :
    s.path.failed = false ∧
    (∃ sent, s.sentTo fd = welcome :: sent ∧ sent.Sublist (s.receivedFrom fd) ∧
      (AllSteps step Punctual initial ls →
        sent <+: s.receivedFrom fd ∧ (s.Idle → sent = s.receivedFrom fd))) := by
  have hinv : s.Inv := run_invariant inv_step ls initial s inv_initial hrun
  have hstep : ∀ (s : Rollback) l s', s.Inv ∧ s.Serves fd → l ≠ .closeConnection fd →
      s.step l = some s' → s'.Inv ∧ s'.Serves fd :=
    fun s l s' h hl hstep => ⟨inv_step s l s' h.1 hstep, serves_step h.2 h.1 hl hstep⟩
  have hboth : s.Inv ∧ s.Serves fd :=
    run_of_allSteps (I := fun s => s.Inv ∧ s.Serves fd) hstep ls initial s
      ⟨inv_initial, serves_initial fd⟩
      (allSteps_of_forall ls initial fun l hl _ => hkept l hl) hrun
  refine ⟨hinv.path.passed, s.answers fd, hboth.2.opened hopen, hinv.answers_sublist fd, ?_⟩
  intro hpunctual
  have hcomplete : s.Inv ∧ s.mailbox.Complete :=
    run_of_allSteps (I := fun s => s.Inv ∧ s.mailbox.Complete) complete_step ls initial s
      ⟨inv_initial, Mailbox.complete_initial⟩ hpunctual hrun
  exact hinv.answers_prefix hcomplete.2 fd

/-- The worker takes a message from the queue and calls `dispatch`. -/
def takesMessage : List RollbackStep :=
  [.message .loopTest, .message .popNext, .message .popNext, .message .popNext,
    .message .popNext, .message .popNext, .message .dispatch]

/-- Two connections: the messages of the one are answered, that of the other is
    in the hands of the handler when its connection is closed. -/
def twoConnections : List RollbackStep :=
  [.acceptNewConnection 5, .acceptNewConnection 6,
    .message (.messageComing 5 [1]), .message .addMsg, .message (.messageComing 6 [2, 0]),
    .message .addMsg, .message (.messageComing 5 [3]), .message .addMsg] ++
  takesMessage ++ [.sendResponse, .message .dispatchEnds] ++
  takesMessage ++ [.closeConnection 6, .sendResponse, .message .dispatchEnds] ++
  takesMessage ++ [.sendResponse, .process .beginDrain, .process .runNext, .process .runNext,
    .process .runNext, .process .reachEnd, .process .clear]

theorem echoes_in_order_two : ∃ s, run step initial twoConnections = some s ∧
    s.sentTo 5 = [welcome, [1], [3]] ∧ s.sentTo 6 = [welcome] := by
  have hfinal : (run step initial twoConnections).map (fun s => (s.connections_,
      s.receivedFrom 5, s.sentTo 6)) = some ([5], [[1], [3]], [welcome]) := by decide +kernel
  have hidle : (run step initial twoConnections).map (fun s => (s.path.underway.isEmpty,
      s.handling.isNone, s.mailbox.extraEvents_.isEmpty)) = some (true, true, true) := by
    decide +kernel
  obtain ⟨s, hrun, hs⟩ := Option.map_eq_some_iff.mp hfinal
  rw [hrun] at hidle
  simp only [Option.map_some, Option.some.injEq, Prod.mk.injEq, List.isEmpty_iff,
    Option.isNone_iff_eq_none] at hs hidle
  obtain ⟨hopen, hreceived, hother⟩ := hs
  obtain ⟨hpath, hhandling, hmailbox⟩ := hidle
  have hkept : ∀ l ∈ twoConnections, l ≠ .closeConnection 5 := by decide
  obtain ⟨_, sent, hsent, _, hall⟩ := echoes_in_order hkept hrun (by rw [hopen]; decide)
  have hpunctual : AllSteps step Punctual initial twoConnections := by decide +kernel
  refine ⟨s, hrun, ?_, hother⟩
  rw [hsent, (hall hpunctual).2 ⟨hpath, hhandling, hmailbox⟩, hreceived]

/-! ## Section 5: What the handler prints

    `dispatch` begins with `XFAST_DEBUG << buffer.peek()`: the text from the
    reader on, up to a NUL.  The buffer is the one that `run` has constructed,
    with the default size, and that `pop_front` has assigned the message to;
    the assignment keeps memory that is large enough. -/

/-- `t = queue_.front()`: the memory of the vector `t` afterwards.  Where it has
    the room, the elements are copied to its start, and what stands behind them
    is left; otherwise new memory is taken, for the elements alone. -/
def copyInto (memory elems : List UInt8) : List UInt8 :=
  if elems.length ≤ memory.length then elems ++ memory.drop elems.length else elems

/-- `cout << buffer.peek()`, for a buffer with this memory. -/
def printPeek (memory : List UInt8) (b : XBuffer) : Except Halt (List UInt8) :=
  let text := memory.drop b.readerIndex_
  if 0 ∈ text then .ok (text.takeWhile (· ≠ 0)) else .error .memoryFault

/-- What `run` and `dispatch` print of the message at the front of the queue. -/
def printDispatched (front : XBuffer) : Except Halt (List UInt8) := do
  -- `xBuffer buffer`, `readMsg(buffer)` and `buffer.readInt32()`
  let buffer ← XBuffer.new XBuffer.kInitialSize
  let (_, rest) ← front.readInt32
  printPeek (copyInto buffer.buffer_ front.buffer_) rest

/-- The number and the payload fill the storage. -/
structure Filled (b : XBuffer) : Prop where
  reader : b.readerIndex_ = 0
  writer : b.writerIndex_ = b.buffer_.length

theorem Filled.readable_eq {b : XBuffer} (h : Filled b) : b.readable = b.buffer_ := by
  rw [XBuffer.readable, h.reader, h.writer, Slice.slice, List.drop_zero]
  exact List.take_length

/-- The storage of a message has the room for the number and the payload. -/
theorem length_message {fd : Int} {payload : List UInt8} {buffer : XBuffer}
    (hlen : payload.length < 2 ^ 31)
    (h : (XServer.commitBuffer payload >>= (·.prependInt32 fd)) = .ok buffer) :
    buffer.buffer_.length = XBuffer.kDiscardableSize + payload.length := by
  obtain ⟨b, hcommit, hprepend⟩ := bind_eq_ok h
  have hmax : XBuffer.kDiscardableSize + payload.length ≤ vectorMaxSize := by
    unfold XBuffer.kDiscardableSize vectorMaxSize
    omega
  have hv := XBuffer.valid_fresh hmax
  rw [XServer.commitBuffer, XBuffer.new_eq hmax, ok_bind] at hcommit
  rw [XBuffer.prepend_storage hprepend, ← XBuffer.length_fresh payload.length]
  rcases XBuffer.append_length hcommit with hsame | hgrown
  · exact hsame
  · -- the payload fits, so the storage has not grown
    have hwritable : (XBuffer.fresh payload.length).writableBytes = payload.length := by
      rw [hv.writableBytes_eq, XBuffer.length_fresh]
      exact Nat.add_sub_cancel_left ..
    have hlacks := hgrown.lacks
    rw [hwritable] at hlacks
    exact absurd hlacks (Nat.lt_irrefl _)

theorem filled_message {fd : Int} {payload : List UInt8} {buffer : XBuffer}
    (hlo : -(2 ^ 31) ≤ fd) (hhi : fd < 2 ^ 31) (hlen : payload.length < 2 ^ 31)
    (h : (XServer.commitBuffer payload >>= (·.prependInt32 fd)) = .ok buffer) : Filled buffer := by
  have hstorage := length_message hlen h
  obtain ⟨_, heq, hcarries⟩ := MessagePath.prepend_carries hlo hhi hlen
  cases h.symm.trans heq
  have hv := hcarries.valid
  have hcount : buffer.writerIndex_ - buffer.readerIndex_ = 4 + payload.length := by
    rw [← hv.readableBytes_eq, ← hv.length_readable, hcarries.readable, List.length_append,
      length_hostToNetwork32]
  have hfour : XBuffer.kDiscardableSize = 4 := rfl
  have := hv.writer_le_size
  exact ⟨by omega, by omega⟩

end Rollback

namespace MessagePath

variable {s s' : MessagePath} {l : MessageStep} {b : XBuffer}

/-- A buffer that is on its way was so before, or has just been made. -/
theorem underway_step (hstep : s.step l = some s') (hb : b ∈ s'.underway) :
    b ∈ s.underway ∨ ∃ fd payload, -(2 ^ 31) ≤ fd ∧ fd < 2 ^ 31 ∧ payload.length < 2 ^ 31 ∧
      (XServer.commitBuffer payload >>= (·.prependInt32 fd)) = .ok b := by
  have hidle : ∀ {phase worker : WorkerPhase} {queue : XChan XBuffer},
      hand phase = [] → s.worker = phase → hand worker = [] →
      queue.queue_ = s.msgQueue_.queue_ → queue.pending = s.msgQueue_.pending →
      b ∈ underway { s with msgQueue_ := queue, worker := worker } → b ∈ s.underway := by
    intro phase worker queue hphase hworker hhand hqueue hpending hmem
    simp only [underway, hhand, hqueue, hpending] at hmem
    simp only [underway, hworker, hphase]
    exact hmem
  unfold step at hstep
  split at hstep
  · cases hstep
  cases l with
  | messageComing fd payload =>
    dsimp only at hstep
    split at hstep
    · rename_i hguard
      obtain ⟨_, hlo, hhi, _, hlen⟩ := hguard
      unfold messageComing at hstep
      split at hstep
      · cases hstep
        exact Or.inl hb
      · split at hstep
        · rename_i buffer hbuffer
          obtain ⟨queue, hincr, rfl⟩ := Option.map_eq_some_iff.mp hstep
          cases (XChan.step_cases hincr).2
          have hnew : b ∈ s.underway ∨ b = buffer := by
            simpa [underway, or_assoc] using hb
          rcases hnew with hold | rfl
          · exact Or.inl hold
          · exact Or.inr ⟨fd, payload, hlo, hhi, hlen, hbuffer⟩
        · cases hstep
          exact Or.inl hb
    · cases hstep
  | addMsg =>
    obtain ⟨queue, henqueue, rfl⟩ := Option.map_eq_some_iff.mp hstep
    rcases (XChan.step_cases henqueue).2 with _ | ⟨_, elem, _, helem⟩
    left
    -- the pending buffer has come to the end of the queue
    simp only [underway, List.mem_append, List.map_append] at hb ⊢
    rcases hb with hhand | (hqueue | hlast) | hpending
    · exact Or.inl hhand
    · exact Or.inr (Or.inl hqueue)
    · refine Or.inr (Or.inr ?_)
      rw [List.map_singleton, List.mem_singleton] at hlast
      rw [hlast]
      exact List.mem_map_of_mem (List.mem_of_getElem? helem)
    · exact Or.inr (Or.inr (((List.eraseIdx_sublist _ 0).map _).subset hpending))
  | loopTest =>
    left
    dsimp only at hstep
    split at hstep
    · rename_i hworker
      split at hstep
      · cases hstep
        exact @hidle _ _ s.msgQueue_ rfl hworker rfl rfl rfl hb
      · obtain ⟨queue, hlock, rfl⟩ := Option.map_eq_some_iff.mp hstep
        cases (XChan.step_cases hlock).2
        exact hidle rfl hworker rfl rfl rfl hb
    · cases hstep
  | popNext =>
    left
    dsimp only at hstep
    split at hstep
    · rename_i hworker
      obtain ⟨queue, hpopped, rfl⟩ := Option.map_eq_some_iff.mp hstep
      rcases (XChan.step_cases hpopped).2 with _ | _ | _ | ⟨phase, hpop⟩
      rwa [underway_popNext hworker hpop] at hb
    · cases hstep
  | dispatch =>
    left
    dsimp only at hstep
    split at hstep
    · split at hstep
      · cases hstep
        exact List.mem_append_right _ hb
      · cases hstep
        exact hb
    · cases hstep
  | dispatchEnds =>
    left
    dsimp only at hstep
    split at hstep
    · rename_i hworker
      cases hstep
      exact @hidle _ _ s.msgQueue_ rfl hworker rfl rfl rfl hb
    · cases hstep
  | stop =>
    cases hstep
    exact Or.inl hb

end MessagePath

namespace Rollback

variable {s s' : Rollback}

theorem filled_step (s : Rollback) (l : RollbackStep) (s' : Rollback)
    (h : ∀ b ∈ s.path.underway, Filled b) (hstep : s.step l = some s') :
    ∀ b ∈ s'.path.underway, Filled b := by
  cases step_cases hstep with
  | acceptNewConnection fd _ =>
    unfold acceptNewConnection
    dsimp only
    split <;> exact h
  | message l path _ hpath =>
    intro b hb
    rcases MessagePath.underway_step hpath hb with hold | ⟨fd, payload, hlo, hhi, hlen, hmade⟩
    · exact h b hold
    · exact filled_message hlo hhi hlen hmade
  | runNext fun_ mailbox _ _ =>
    unfold doSendResponse
    split <;> exact h
  | _ => exact h

/-- The number is read, and the reader stands at the payload. -/
theorem reader_of_readInt32 {b rest : XBuffer} {uid : Int} (h : Filled b)
    (hread : b.readInt32 = .ok (uid, rest)) : rest.readerIndex_ = 4 := by
  obtain ⟨_, _, hread⟩ := bind_eq_ok hread
  obtain ⟨_, hmove, hread⟩ := bind_eq_ok hread
  cases hread
  unfold XBuffer.moveInt32 XBuffer.moveOver at hmove
  obtain ⟨_, _, hmove⟩ := bind_eq_ok hmove
  split at hmove
  · cases hmove
    show sizeAdd b.readerIndex_ 4 = 4
    rw [h.reader]
    rfl
  · cases hmove
    rfl

/-- The default storage has zeros behind a payload that leaves room for one. -/
theorem text_eq {payload header : List UInt8} (hheader : header.length = 4) :
    (copyInto (List.replicate 1024 0) (header ++ payload)).drop 4 =
      payload ++ List.replicate (1020 - payload.length) 0 := by
  have hdrop : ∀ rest : List UInt8, (header ++ rest).drop 4 = rest := by
    intro rest
    rw [← hheader, List.drop_left]
  unfold copyInto
  rw [List.length_append, hheader, List.length_replicate]
  split
  · rename_i hroom
    rw [List.append_assoc, hdrop, List.drop_replicate]
    congr 2
    omega
  · rename_i hroom
    have hnone : 1020 - payload.length = 0 := by omega
    rw [hdrop, hnone, List.replicate_zero, List.append_nil]

/-- Zeros behind a text do not belong to it. -/
theorem takeWhile_append_zeros (text : List UInt8) (n : Nat) :
    (text ++ List.replicate n 0).takeWhile (· ≠ 0) = text.takeWhile (· ≠ 0) := by
  induction text with
  | nil => cases n <;> simp [List.replicate_succ]
  | cons c text ih =>
    simp only [List.cons_append, List.takeWhile_cons]
    rw [ih]

/-- **The printed text.**  In every run, when the worker has taken a message
    from the queue: it is the next one of those accepted, and the debug line
    prints its payload, up to a NUL.  The line leaves the memory of the buffer
    exactly if there is no NUL in a payload that fills the default storage. -/
theorem prints_message {ls : List RollbackStep} {front : XBuffer}
    (hrun : run step initial ls = some s) (hworker : s.path.worker = .received front) :
    ∃ uid payload later, s.path.accepted = s.path.seen ++ (uid, payload) :: later ∧
      printDispatched front =
        if 0 ∈ payload ∨ payload.length < XBuffer.kInitialSize then
          .ok (payload.takeWhile (· ≠ 0))
        else .error .memoryFault := by
  have hinv : s.Inv := run_invariant inv_step ls initial s inv_initial hrun
  have hfilled : ∀ b ∈ s.path.underway, Filled b :=
    run_invariant (I := fun s => ∀ b ∈ s.path.underway, Filled b) filled_step ls initial s
      (fun _ hb => absurd hb List.not_mem_nil) hrun
  obtain ⟨rest, haccepted, hrest⟩ := hinv.path.messages
  have hfirst : s.path.underway = front :: (s.path.msgQueue_.queue_ ++
      s.path.msgQueue_.pending).map Prod.snd := by
    rw [MessagePath.underway, hworker]
    rfl
  rw [hfirst] at hrest
  obtain ⟨⟨uid, payload⟩, later, hcarries, _, rfl⟩ := List.forall₂_cons_right_iff.mp hrest
  refine ⟨uid, payload, later, haccepted, ?_⟩
  have hfull : Filled front := hfilled front (by rw [hfirst]; exact List.mem_cons_self)
  obtain ⟨left, hread, _, _⟩ :=
    XBuffer.readInt32_spec hcarries.valid hcarries.readable hcarries.low hcarries.high
  have hstorage : front.buffer_ = hostToNetwork32 uid ++ payload :=
    hfull.readable_eq.symm.trans hcarries.readable
  have hnew : XBuffer.new XBuffer.kInitialSize = .ok (XBuffer.fresh XBuffer.kInitialSize) :=
    XBuffer.new_eq (by decide)
  have hmemory : (XBuffer.fresh XBuffer.kInitialSize).buffer_ = List.replicate 1024 0 := rfl
  have htext : (copyInto (List.replicate 1024 0) front.buffer_).drop left.readerIndex_ =
      payload ++ List.replicate (1020 - payload.length) 0 := by
    rw [reader_of_readInt32 hfull hread, hstorage, text_eq (length_hostToNetwork32 uid)]
  have hzero : (0 ∈ payload ++ List.replicate (1020 - payload.length) (0 : UInt8)) ↔
      0 ∈ payload ∨ payload.length < XBuffer.kInitialSize := by
    rw [List.mem_append, List.mem_replicate]
    show _ ∨ _ ↔ _ ∨ payload.length < 1020
    have hroom : 1020 - payload.length ≠ 0 ↔ payload.length < 1020 := by omega
    rw [hroom, and_iff_left rfl]
  simp only [printDispatched, hnew, hread, ok_bind, printPeek, hmemory, htext, hzero,
    takeWhile_append_zeros]

/-- "hi" is printed as it is. -/
theorem prints_message_hi : ∃ s front, run step initial
    [.acceptNewConnection 5, .message (.messageComing 5 [104, 105]), .message .addMsg,
      .message .loopTest, .message .popNext, .message .popNext, .message .popNext,
      .message .popNext, .message .popNext] = some s ∧ s.path.worker = .received front ∧
    printDispatched front = .ok [104, 105] := by
  have hfinal : (run step initial
      [.acceptNewConnection 5, .message (.messageComing 5 [104, 105]), .message .addMsg,
        .message .loopTest, .message .popNext, .message .popNext, .message .popNext,
        .message .popNext, .message .popNext]).map
      (fun s => (s.path.worker, s.path.accepted, s.path.seen)) =
        some (.received ⟨[0, 0, 0, 5, 104, 105], 0, 6⟩, [(5, [104, 105])], []) := by
    decide +kernel
  obtain ⟨s, hrun, hs⟩ := Option.map_eq_some_iff.mp hfinal
  simp only [Prod.mk.injEq] at hs
  obtain ⟨hworker, haccepted, hseen⟩ := hs
  obtain ⟨uid, payload, later, hnext, hprint⟩ := prints_message hrun hworker
  rw [haccepted, hseen] at hnext
  cases hnext
  exact ⟨s, _, hrun, hworker, hprint.trans (if_pos (by decide))⟩

end Rollback

end XFast
