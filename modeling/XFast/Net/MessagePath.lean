import Mathlib.Data.List.Forall2
import XFast.Base.Channel
import XFast.Net.Server

/-! # From the loop to the worker

    A message that a connection commits crosses to the worker in a buffer:
    `messageComing` prepends the descriptor number and `addMsg` pushes the
    buffer into the channel; the worker polls the channel, reads the number
    back and calls `dispatch` with it and the rest.

    The loop thread and the worker interleave at the steps of the channel.
    The worker polls with timeout 0, so it never waits; a `dispatch` that
    throws is caught in its loop. -/

namespace XFast

open Steps

/-! ## Section 1: The two sides -/

/-- Where `xHandler::run` is. -/
inductive WorkerPhase where
  /-- At `while(!isTerminate_)`. -/
  | testTerminate
  /-- In `readMsg`. -/
  | popping
  /-- `readMsg` has returned a message. -/
  | received (buffer : XBuffer)
  /-- In `dispatch`. -/
  | dispatching
  /-- The loop has been left. -/
  | ended
  deriving DecidableEq, Repr

/-- The queue of the group and its worker.  `accepted` has the messages that
    `messageComing` took, `seen` what `dispatch` was called with: the number
    and the readable bytes.  `failed` says that an `assert` of `prependInt32`
    or `readInt32` has failed. -/
structure MessagePath where
  msgQueue_ : XChan XBuffer
  isTerminate_ : Bool
  worker : WorkerPhase
  accepted : List (Int × List UInt8)
  seen : List (Int × List UInt8)
  failed : Bool

inductive MessageStep where
  /-- A connection with this descriptor commits a message: `messageComing` up
      to the increment in `push_back`. -/
  | messageComing (fd : Int) (payload : List UInt8)
  /-- The rest of `addMsg`. -/
  | addMsg
  /-- The worker tests `isTerminate_` and calls `readMsg`, or leaves its loop. -/
  | loopTest
  /-- `pop_front` goes on. -/
  | popNext
  /-- `readInt32`, and the call of `dispatch`. -/
  | dispatch
  /-- `dispatch` returns, or what it throws is caught. -/
  | dispatchEnds
  /-- `stop()`. -/
  | stop
  deriving DecidableEq, Repr

namespace MessagePath

def initial : MessagePath := ⟨XChan.initial, false, .testTerminate, [], [], false⟩

/-- The worker after a step of `pop_front` that has led to `queue`. -/
def afterPop (s : MessagePath) (queue : XChan XBuffer) : WorkerPhase :=
  if queue.pop.isSome then .popping
  else
    match s.msgQueue_.pop, s.msgQueue_.queue_ with
    | some .take, elem :: _ => .received elem.2
    | _, _ => .testTerminate

/-- `messageComing`, for a descriptor that is an `int32_t` and a payload whose
    length is a positive `int`. -/
def messageComing (s : MessagePath) (fd : Int) (payload : List UInt8) : Option MessagePath :=
  -- `getActiveHandleCount() != 0`
  if s.isTerminate_ then some s
  else
    match XServer.commitBuffer payload >>= (·.prependInt32 fd) with
    | .ok buffer => (s.msgQueue_.step (.incr buffer)).map fun queue =>
        { s with msgQueue_ := queue, accepted := s.accepted ++ [(fd, payload)] }
    | .error _ => some { s with failed := true }

/-- No step is taken after an `assert` has failed. -/
def step (s : MessagePath) (l : MessageStep) : Option MessagePath :=
  if s.failed then none
  else
    match l with
    | .messageComing fd payload =>
        -- the loop thread has returned from the last `addMsg`
        if s.msgQueue_.pending = [] ∧ -(2 ^ 31) ≤ fd ∧ fd < 2 ^ 31 ∧ payload ≠ [] ∧
            payload.length < 2 ^ 31 then
          s.messageComing fd payload
        else none
    | .addMsg =>
        (s.msgQueue_.step (.enqueue 0)).map fun queue => { s with msgQueue_ := queue }
    | .loopTest =>
        match s.worker with
        | .testTerminate =>
            if s.isTerminate_ then some { s with worker := .ended }
            else (s.msgQueue_.step (.lockForPop 0)).map fun queue =>
              { s with msgQueue_ := queue, worker := .popping }
        | _ => none
    | .popNext =>
        match s.worker with
        | .popping => (s.msgQueue_.step .popNext).map fun queue =>
            { s with msgQueue_ := queue, worker := s.afterPop queue }
        | _ => none
    | .dispatch =>
        match s.worker with
        | .received buffer =>
            match buffer.readInt32 with
            | .ok (uid, rest) =>
                some { s with worker := .dispatching, seen := s.seen ++ [(uid, rest.readable)] }
            | .error _ => some { s with failed := true }
        | _ => none
    | .dispatchEnds =>
        match s.worker with
        | .dispatching => some { s with worker := .testTerminate }
        | _ => none
    | .stop => some { s with isTerminate_ := true }

/-! ## Section 2: Messages in buffers -/

/-- The buffer of a message: it is valid, and the payload follows the number. -/
structure Carries (message : Int × List UInt8) (buffer : XBuffer) : Prop where
  valid : buffer.Valid
  readable : buffer.readable = hostToNetwork32 message.1 ++ message.2
  low : -(2 ^ 31) ≤ message.1
  high : message.1 < 2 ^ 31

/-- The commit buffer keeps the room before its content: its size is the
    length of the payload, so `append` moves nothing. -/
theorem commitBuffer_spec {payload : List UInt8} (hlen : payload.length < 2 ^ 31) :
    ∃ b, XServer.commitBuffer payload = .ok b ∧ b.Valid ∧ b.readable = payload ∧
      4 ≤ b.discardableBytes := by
  have hmax : XBuffer.kDiscardableSize + payload.length ≤ vectorMaxSize := by
    unfold XBuffer.kDiscardableSize vectorMaxSize
    omega
  have hv := XBuffer.valid_fresh hmax
  have hroom : payload.length ≤ (XBuffer.fresh payload.length).writableBytes := by
    rw [hv.writableBytes_eq, XBuffer.length_fresh]
    exact Nat.le_of_eq (Nat.add_sub_cancel_left ..).symm
  obtain ⟨b, happend, hreader⟩ := XBuffer.append_of_room hv hroom
  obtain ⟨hvb, hread⟩ := XBuffer.append_ok hv happend
  refine ⟨b, ?_, hvb, ?_, ?_⟩
  · unfold XServer.commitBuffer
    rw [XBuffer.new_eq hmax, ok_bind, happend]
  · rw [hread, XBuffer.readable_fresh, List.nil_append]
  · rw [XBuffer.discardableBytes, hreader]
    rfl

/-- The number fits into the room before the payload. -/
theorem prepend_carries {fd : Int} {payload : List UInt8} (hlo : -(2 ^ 31) ≤ fd)
    (hhi : fd < 2 ^ 31) (hlen : payload.length < 2 ^ 31) :
    ∃ buffer, (XServer.commitBuffer payload >>= (·.prependInt32 fd)) = .ok buffer ∧
      Carries (fd, payload) buffer := by
  obtain ⟨b, hcommit, hv, hread, hroom⟩ := commitBuffer_spec hlen
  obtain ⟨buffer, hprepend, hv', hread'⟩ := XBuffer.prependInt32_spec fd hv hroom
  refine ⟨buffer, ?_, hv', ?_, hlo, hhi⟩
  · rw [hcommit, ok_bind, hprepend]
  · rw [hread', hread]

/-- The worker reads the number back, and the payload is what is left. -/
theorem readInt32_of_carries {message : Int × List UInt8} {buffer : XBuffer}
    (h : Carries message buffer) :
    ∃ rest, buffer.readInt32 = .ok (message.1, rest) ∧ rest.readable = message.2 := by
  obtain ⟨rest, hread, _, hrest⟩ := XBuffer.readInt32_spec h.valid h.readable h.low h.high
  exact ⟨rest, hread, hrest⟩

/-! ## Section 3: Messages on their way -/

/-- The message in the hands of the worker. -/
def hand : WorkerPhase → List XBuffer
  | .received buffer => [buffer]
  | _ => []

/-- The buffers on their way, the oldest first. -/
def underway (s : MessagePath) : List XBuffer :=
  hand s.worker ++ (s.msgQueue_.queue_ ++ s.msgQueue_.pending).map Prod.snd

/-- What was accepted is what was dispatched and, in buffers, what is on its
    way. -/
structure Inv (s : MessagePath) : Prop where
  messages : ∃ rest, s.accepted = s.seen ++ rest ∧ List.Forall₂ Carries rest s.underway
  single : s.msgQueue_.pending.length ≤ 1
  passed : s.failed = false

theorem inv_initial : initial.Inv where
  messages := ⟨[], rfl, .nil⟩
  single := Nat.zero_le 1
  passed := rfl

/-- A step after which the same buffers are on their way. -/
theorem Inv.congr {s s' : MessagePath} (h : s.Inv) (haccepted : s'.accepted = s.accepted)
    (hseen : s'.seen = s.seen) (hunderway : s'.underway = s.underway)
    (hsingle : s'.msgQueue_.pending.length ≤ 1) (hfailed : s'.failed = s.failed) : s'.Inv where
  messages := by rw [haccepted, hseen, hunderway]; exact h.messages
  single := hsingle
  passed := by rw [hfailed]; exact h.passed

theorem inv_messageComing {s s' : MessagePath} (h : s.Inv) {fd : Int} {payload : List UInt8}
    (hidle : s.msgQueue_.pending = []) (hlo : -(2 ^ 31) ≤ fd) (hhi : fd < 2 ^ 31)
    (hlen : payload.length < 2 ^ 31) (hstep : s.messageComing fd payload = some s') : s'.Inv := by
  obtain ⟨buffer, hprepend, hcarries⟩ := prepend_carries hlo hhi hlen
  unfold messageComing at hstep
  split at hstep
  · cases hstep
    exact h
  · rw [hprepend] at hstep
    obtain ⟨queue, hincr, rfl⟩ := Option.map_eq_some_iff.mp hstep
    cases (XChan.step_cases hincr).2
    obtain ⟨rest, haccepted, hrest⟩ := h.messages
    refine ⟨⟨rest ++ [(fd, payload)], ?_, ?_⟩, ?_, h.passed⟩
    · show s.accepted ++ [(fd, payload)] = s.seen ++ (rest ++ [(fd, payload)])
      rw [haccepted, List.append_assoc]
    · have hlast : List.Forall₂ Carries [(fd, payload)] [buffer] := .cons hcarries .nil
      have hall := List.rel_append hrest hlast
      simpa only [underway, ← List.append_assoc, List.map_append, List.map_cons, List.map_nil]
        using hall
    · show (s.msgQueue_.pending ++ [_]).length ≤ 1
      rw [hidle]
      exact Nat.le_refl 1

/-- The pop takes the first buffer of the queue into the hands of the worker,
    or changes neither. -/
theorem underway_popNext {s : MessagePath} {phase : PopPhase} (hworker : s.worker = .popping)
    (hpop : s.msgQueue_.pop = some phase) :
    underway { s with
      msgQueue_ := s.msgQueue_.popNext phase
      worker := s.afterPop (s.msgQueue_.popNext phase) } = s.underway := by
  have hhand : hand s.worker = [] := by
    rw [hworker]
    rfl
  by_cases htake : phase = .take
  · subst htake
    have hafter : s.afterPop (s.msgQueue_.popNext .take) =
        match s.msgQueue_.queue_ with
        | elem :: _ => .received elem.2
        | [] => .testTerminate := by
      unfold afterPop
      rw [hpop]
      cases s.msgQueue_.queue_ <;> rfl
    unfold underway
    dsimp only
    rw [hafter, hhand, XChan.popNext_pending]
    show _ ++ (s.msgQueue_.queue_.tail ++ s.msgQueue_.pending).map _ = _
    cases s.msgQueue_.queue_ <;> rfl
  · -- before `take` nothing is in the worker's hands, and the queue is as it was
    have hnot : hand (s.afterPop (s.msgQueue_.popNext phase)) = [] := by
      unfold afterPop
      rw [hpop]
      split
      · rfl
      · split
        · rename_i heq _
          exact absurd (Option.some.inj heq) htake
        · rfl
    unfold underway
    dsimp only
    rw [hnot, hhand, XChan.popNext_queue _ htake, XChan.popNext_pending]

/-- The rest of `addMsg`: the one pending buffer comes to the end of the queue. -/
theorem inv_addMsg {s s' : MessagePath} (h : s.Inv)
    (hstep : (s.msgQueue_.step (.enqueue 0)).map (fun queue => { s with msgQueue_ := queue }) =
      some s') : s'.Inv := by
  obtain ⟨queue, henqueue, rfl⟩ := Option.map_eq_some_iff.mp hstep
  rcases (XChan.step_cases henqueue).2 with _ | ⟨_, elem, _, helem⟩
  obtain ⟨hlt, rfl⟩ := List.getElem?_eq_some_iff.mp helem
  have hone : s.msgQueue_.pending = [s.msgQueue_.pending[0]] := by
    have hsingle := h.single
    obtain ⟨elem, helem⟩ := List.length_eq_one_iff.mp
      (show s.msgQueue_.pending.length = 1 by omega)
    simp only [helem, List.getElem_cons_zero]
  have hnone : s.msgQueue_.pending.eraseIdx 0 = [] := by
    rw [hone]
    rfl
  refine h.congr rfl rfl ?_ ?_ rfl
  · show hand s.worker ++ (s.msgQueue_.queue_ ++ [s.msgQueue_.pending[0]] ++
      s.msgQueue_.pending.eraseIdx 0).map Prod.snd = _
    rw [hnone, List.append_nil, ← hone]
    rfl
  · show (s.msgQueue_.pending.eraseIdx 0).length ≤ 1
    rw [hnone]
    exact Nat.zero_le 1

/-- The first message on its way is in the hands of the worker, and leaves. -/
theorem inv_dispatch {s : MessagePath} (h : s.Inv) {buffer : XBuffer}
    (hworker : s.worker = .received buffer) :
    ∃ uid rest, buffer.readInt32 = .ok (uid, rest) ∧
      Inv { s with worker := .dispatching, seen := s.seen ++ [(uid, rest.readable)] } := by
  obtain ⟨rest, haccepted, hrest⟩ := h.messages
  have hfirst : s.underway =
      buffer :: (s.msgQueue_.queue_ ++ s.msgQueue_.pending).map Prod.snd := by
    simp only [underway, hworker, hand, List.cons_append, List.nil_append]
  rw [hfirst] at hrest
  obtain ⟨message, rest', hcarries, hrest', rfl⟩ := List.forall₂_cons_right_iff.mp hrest
  obtain ⟨left, hread, hleft⟩ := readInt32_of_carries hcarries
  refine ⟨message.1, left, hread, ⟨rest', ?_, hrest'⟩, h.single, h.passed⟩
  show s.accepted = s.seen ++ [(message.1, left.readable)] ++ rest'
  rw [haccepted, hleft, List.append_assoc, List.singleton_append]

theorem inv_step (s : MessagePath) (l : MessageStep) (s' : MessagePath) (h : s.Inv)
    (hstep : s.step l = some s') : s'.Inv := by
  have hpassed : ¬s.failed = true := by
    rw [h.passed]
    exact Bool.false_ne_true
  unfold step at hstep
  rw [if_neg hpassed] at hstep
  cases l with
  | messageComing fd payload =>
    dsimp only at hstep
    split at hstep
    · rename_i hguard
      obtain ⟨hidle, hlo, hhi, _, hlen⟩ := hguard
      exact inv_messageComing h hidle hlo hhi hlen hstep
    · cases hstep
  | addMsg => exact inv_addMsg h hstep
  | loopTest =>
    dsimp only at hstep
    split at hstep
    · rename_i hworker
      have hhand : hand s.worker = [] := by
        rw [hworker]
        rfl
      split at hstep
      · cases hstep
        exact h.congr rfl rfl (by unfold underway; rw [hhand]; rfl) h.single rfl
      · obtain ⟨queue, hlock, rfl⟩ := Option.map_eq_some_iff.mp hstep
        cases (XChan.step_cases hlock).2
        exact h.congr rfl rfl (by unfold underway; rw [hhand]; rfl) h.single rfl
    · cases hstep
  | popNext =>
    dsimp only at hstep
    split at hstep
    · rename_i hworker
      obtain ⟨queue, hpopped, rfl⟩ := Option.map_eq_some_iff.mp hstep
      rcases (XChan.step_cases hpopped).2 with _ | _ | _ | ⟨phase, hpop⟩
      refine h.congr rfl rfl (underway_popNext hworker hpop) ?_ rfl
      rw [XChan.popNext_pending]
      exact h.single
    · cases hstep
  | dispatch =>
    dsimp only at hstep
    split at hstep
    · rename_i buffer hworker
      obtain ⟨uid, rest, hread, hinv⟩ := inv_dispatch h hworker
      rw [hread] at hstep
      cases hstep
      exact hinv
    · cases hstep
  | dispatchEnds =>
    dsimp only at hstep
    split at hstep
    · rename_i hworker
      cases hstep
      exact h.congr rfl rfl (by simp only [underway, hworker, hand]) h.single rfl
    · cases hstep
  | stop =>
    cases hstep
    exact h.congr rfl rfl rfl h.single rfl

/-- **Messages.**  In every interleaving of the loop thread with the worker,
    for any numbers and payloads, `dispatch` is called with the first of the
    accepted messages, unchanged and in their order, and no assertion of
    `prependInt32` or `readInt32` fails. -/
theorem dispatched_prefix_of_accepted (ls : List MessageStep) (s : MessagePath)
    (hrun : run step initial ls = some s) : s.seen <+: s.accepted ∧ s.failed = false := by
  have h : s.Inv := run_invariant inv_step ls initial s inv_initial hrun
  obtain ⟨rest, haccepted, _⟩ := h.messages
  exact ⟨⟨rest, haccepted.symm⟩, h.passed⟩

/-- A negative number and a second message that is still on its way. -/
theorem dispatched_prefix_of_accepted_two : ∃ s,
    run step initial [.messageComing (-2) [7, 8], .addMsg, .loopTest, .popNext, .popNext,
      .popNext, .popNext, .messageComing 5 [9], .popNext, .dispatch, .dispatchEnds] = some s ∧
    s.seen = [(-2, [7, 8])] ∧ s.accepted = [(-2, [7, 8]), (5, [9])] ∧ s.failed = false := by
  obtain ⟨s, hs⟩ := Option.isSome_iff_exists.mp (show (run step initial
    [.messageComing (-2) [7, 8], .addMsg, .loopTest, .popNext, .popNext, .popNext, .popNext,
      .messageComing 5 [9], .popNext, .dispatch, .dispatchEnds]).isSome by decide +kernel)
  have hseen : (run step initial [.messageComing (-2) [7, 8], .addMsg, .loopTest, .popNext,
      .popNext, .popNext, .popNext, .messageComing 5 [9], .popNext, .dispatch,
      .dispatchEnds]).map (fun s => (s.seen, s.accepted)) =
        some ([(-2, [7, 8])], [(-2, [7, 8]), (5, [9])]) := by decide +kernel
  rw [hs] at hseen
  have hboth := Prod.mk.inj (Option.some.inj hseen)
  exact ⟨s, hs, hboth.1, hboth.2, (dispatched_prefix_of_accepted _ s hs).2⟩

end MessagePath

end XFast
