import Mathlib.Data.List.Flatten
import XFast.Net.Rollback
import XFast.Net.RollbackClient

/-! # Two programs that send everything back

    The client of `test/client/rollback` is connected to the server of
    `test/server/rollback`.  Whatever the one sends comes to the other, who
    sends it back: the greeting of the server and the `hello` of the client go
    round for ever.

    Other clients may be connected to the server at the same time.  What the
    server has sent is handed to the client in order, cut up in any way; so is
    what the kernel has taken from the client. -/

namespace XFast

open Program Steps XConnStatus XConnection

/-! ## Section 1: Streams that follow themselves -/

/-- A stream that is a part of `p` followed by itself goes round in `p`. -/
theorem prefix_rounds {α : Type} {p x : List α} (h : x <+: p ++ x) (hp : p ≠ []) :
    ∃ n, x <+: (List.replicate n p).flatten := by
  have hrounds : ∀ n, x <+: (List.replicate n p).flatten ++ x := by
    intro n
    induction n with
    | zero => exact List.prefix_refl x
    | succ n ih =>
      rw [List.replicate_succ, List.flatten_cons, List.append_assoc]
      exact h.trans ((List.prefix_append_right_inj p).mpr ih)
  -- as many rounds as there are elements
  refine ⟨x.length, List.prefix_of_prefix_length_le (hrounds x.length) (List.prefix_append _ _) ?_⟩
  have hpos := List.length_pos_iff.mpr hp
  rw [List.length_flatten, List.map_replicate, List.sum_replicate_nat]
  exact Nat.le_mul_of_pos_right _ hpos

/-! ## Section 2: The server's side -/

namespace Rollback

variable {s s' : Rollback} {l : RollbackStep} {fd : Fd}

/-- Nothing that was sent is taken back. -/
theorem sent_grows (hstep : s.step l = some s') : s.sent <+: s'.sent := by
  have hsend : ∀ (s : Rollback) fd msg, s.sent <+: (s.sendMsg fd msg).sent :=
    fun _ _ _ => List.prefix_append _ _
  cases step_cases hstep with
  | acceptNewConnection fd _ =>
    unfold acceptNewConnection
    dsimp only
    split
    · exact List.prefix_refl _
    · exact hsend _ _ _
  | runNext fun_ mailbox _ _ =>
    unfold doSendResponse
    split
    · exact hsend _ _ _
    · exact List.prefix_refl _
  | _ => exact List.prefix_refl _

theorem sentTo_grows (hstep : s.step l = some s') :
    (s.sentTo fd).flatten <+: (s'.sentTo fd).flatten := by
  obtain ⟨more, hmore⟩ := (sent_grows hstep).filterMap
    fun m : Int × List UInt8 => if m.1 = fd then some m.2 else none
  unfold sentTo payloadsOf
  rw [← hmore, List.flatten_append]
  exact List.prefix_append _ _

/-- A message is received only in the step that says so. -/
theorem receivedFrom_step (fd : Fd) (hstep : s.step l = some s') :
    s'.receivedFrom fd = s.receivedFrom fd ∨ ∃ payload,
      l = .message (.messageComing fd payload) ∧
        s'.receivedFrom fd = s.receivedFrom fd ++ [payload] := by
  cases step_cases hstep with
  | acceptNewConnection fd' _ =>
    left
    unfold acceptNewConnection
    dsimp only
    split <;> rfl
  | message l path _ hpath =>
    rcases (MessagePath.step_frame hpath).accepted with hsame | ⟨fd', payload, rfl, hmore⟩
    · exact Or.inl (congrArg (payloadsOf fd) hsame)
    · have hall : payloadsOf fd path.accepted =
          s.receivedFrom fd ++ payloadsOf fd [(fd', payload)] := by
        rw [hmore, payloadsOf_append]
        rfl
      by_cases hfd : fd' = fd
      · subst hfd
        rw [payloadsOf_self] at hall
        exact Or.inr ⟨payload, rfl, hall⟩
      · rw [payloadsOf_of_ne hfd, List.append_nil] at hall
        exact Or.inl hall
  | runNext fun_ mailbox _ _ =>
    left
    unfold doSendResponse
    split <;> rfl
  | _ => exact Or.inl rfl

end Rollback

/-! ## Section 3: Both programs -/

/-- The client's connection and its descriptor, and the number of the
    connection in the server. -/
structure RollbackEnds where
  c : ConnId
  sock : Fd
  fd : Fd
  deriving DecidableEq, Repr

/-- The loop thread of the client, the server, and what the client's
    connection has read. -/
structure RollbackRing (σ : Type) where
  client : World σ
  server : Rollback
  delivered : List UInt8

inductive RingStep where
  /-- The client's connection is made connected. -/
  | makeConnected (writes : List (List WriteOutcome))
  /-- The client's connection reads these chunks until `EAGAIN`; it may be
      writable as well. -/
  | read (chunks : List (List UInt8)) (emask : Mask) (writes : List (List WriteOutcome))
  /-- Another event of the client's connection. -/
  | event (emask : Mask) (writes : List (List WriteOutcome))
  | server (l : RollbackStep)
  deriving DecidableEq, Repr

variable {σ : Type}

namespace RollbackEnds

/-- What the client's kernel has taken. -/
def clientSent (e : RollbackEnds) (s : RollbackRing σ) : List UInt8 :=
  acceptedStream (s.client.trace e.c)

def serverSent (e : RollbackEnds) (s : RollbackRing σ) : List UInt8 :=
  (s.server.sentTo e.fd).flatten

def serverReceived (e : RollbackEnds) (s : RollbackRing σ) : List UInt8 :=
  (s.server.receivedFrom e.fd).flatten

/-- A step of the client's loop thread, which has these outcomes before it.  A
    step that would end the process is not taken. -/
def clientStep (s : RollbackRing σ) (writes : List (List WriteOutcome))
    (reads : List (List ReadvResult)) (p : LoopM σ Unit) : Option (World σ) :=
  if ∀ outs ∈ writes, .zero ∉ outs then
    match p.run { s.client with writes := writes, reads := reads } with
    | .ok _ w => some w
    | .error _ _ => none
  else none

/-- The server takes a message of the client only from what it has sent. -/
def Feeds (e : RollbackEnds) (s : RollbackRing σ) : RollbackStep → Prop
  | .message (.messageComing fd payload) =>
      fd = e.fd → e.serverReceived s ++ payload <+: e.clientSent s
  | _ => True

instance (e : RollbackEnds) (s : RollbackRing σ) : ∀ l, Decidable (e.Feeds s l)
  | .message (.messageComing _ _) => inferInstanceAs (Decidable (_ → _))
  | .message .addMsg | .message .loopTest | .message .popNext | .message .dispatch
  | .message .dispatchEnds | .message .stop | .acceptNewConnection _ | .closeConnection _
  | .sendResponse | .process _ => isTrue trivial

def step (e : RollbackEnds) (s : RollbackRing σ) : RingStep → Option (RollbackRing σ)
  | .makeConnected writes =>
      if (s.client.conns e.c).connStatus_ = XF_CONN_STATUS_CONNECTING then
        (clientStep s writes [] (makeConnected RollbackClient.callbacks e.c)).map
          fun w => { s with client := w }
      else none
  | .read chunks emask writes =>
      -- the poller reports registered descriptors only
      if s.client.loop.callbackOf e.sock = some (.connHandleEvent e.c) ∧
          (emask = XE_READABLE ∨ emask = XE_READABLE ||| XE_WRITABLE) ∧
          (∀ d ∈ chunks, d ≠ []) ∧ s.delivered ++ chunks.flatten <+: e.serverSent s then
        (clientStep s writes [readsOf chunks (.fail .EAGAIN)]
          (dispatch RollbackClient.callbacks 2 e.c e.sock emask)).map
          fun w => { s with client := w, delivered := s.delivered ++ chunks.flatten }
      else none
  | .event emask writes =>
      if emask &&& XE_READABLE = 0 then
        (clientStep s writes [] (dispatch RollbackClient.callbacks 2 e.c e.sock emask)).map
          fun w => { s with client := w }
      else none
  | .server l =>
      if e.Feeds s l then (s.server.step l).map fun server => { s with server := server } else none

/-! ## Section 4: One step -/

/-- The client's account, and what each side has of the other's stream. -/
structure Inv (e : RollbackEnds) (s : RollbackRing σ) : Prop where
  echoes : RollbackClient.Echoes e.c e.sock s.delivered s.client
  stream : StreamInv e.c s.client
  fed : e.serverReceived s <+: e.clientSent s
  arrived : s.delivered <+: e.serverSent s
  server : s.server.Inv
  serves : s.server.Serves e.fd

/-- No single event brings 2^31 bytes, and fewer than 2^62 are delivered in
    all; the server closes no connection with this number, neither the present
    one nor one before it, whose late answers would come to the present one. -/
def Bounded (e : RollbackEnds) (s : RollbackRing σ) : RingStep → Prop
  | .read chunks _ _ => chunks.flatten.length < 2 ^ 31 ∧
      s.delivered.length + chunks.flatten.length < 2 ^ 62
  | .server l => l ≠ .closeConnection e.fd
  | _ => True

instance (e : RollbackEnds) (s : RollbackRing σ) : ∀ l, Decidable (e.Bounded s l)
  | .read _ _ _ => inferInstanceAs (Decidable (_ ∧ _))
  | .server _ => inferInstanceAs (Decidable (_ ≠ _))
  | .makeConnected _ | .event _ _ => isTrue trivial

variable {e : RollbackEnds} {s s' : RollbackRing σ}

/-- What a step of the client does to both accounts. -/
theorem clientStep_spec {writes : List (List WriteOutcome)} {reads : List (List ReadvResult)}
    {p : LoopM σ Unit} (hp : RollbackClient.Accounts e.c p) (hstream : StreamInv e.c s.client)
    {w : World σ} (h : clientStep s writes reads p = some w) :
    p.run { s.client with writes := writes, reads := reads } = .ok () w ∧
      StreamInv e.c w ∧ e.clientSent s <+: acceptedStream (w.trace e.c) := by
  unfold clientStep at h
  split at h
  · rename_i hzero
    split at h
    · rename_i a w' hrun
      cases h
      have hstart : StreamInv e.c { s.client with writes := writes, reads := reads } :=
        ⟨hstream.valid, hstream.stream, hstream.counted, hzero⟩
      have htrace : Ends.TraceFrom e.c (s.client.trace e.c)
          { s.client with writes := writes, reads := reads } := List.prefix_refl _
      have hstream' := wp_run_ok (hp.stream _ hstart) hrun
      have htrace' := wp_run_ok (hp.trace _ _ htrace) hrun
      exact ⟨hrun, hstream', Ends.acceptedStream_prefix htrace'⟩
    · cases h
  · cases h

/-- What is still to come of the kernel does not matter. -/
theorem echoes_facing (h : RollbackClient.Echoes e.c e.sock s.delivered s.client)
    (writes : List (List WriteOutcome)) (reads : List (List ReadvResult)) :
    RollbackClient.Echoes e.c e.sock s.delivered
      { s.client with writes := writes, reads := reads } :=
  ⟨h.valid, h.readable, h.readStorage, h.decodeCb, h.sock, h.commits, h.sent, h.returned,
    h.registered, h.fresh, h.storage⟩

theorem inv_step (s : RollbackRing σ) (l : RingStep) (s' : RollbackRing σ) (h : Inv e s)
    (hbound : Bounded e s l) (hstep : e.step s l = some s') : Inv e s' := by
  cases l with
  | makeConnected writes =>
    dsimp only [step] at hstep
    split at hstep
    · rename_i hstatus
      obtain ⟨w, hw, rfl⟩ := Option.map_eq_some_iff.mp hstep
      obtain ⟨hrun, hstream, hsent⟩ :=
        clientStep_spec RollbackClient.accounts_makeConnected h.stream hw
      have hechoes := wp_run_ok (RollbackClient.wp_makeConnected (echoes_facing h.echoes writes [])
        h.stream.valid hstatus) hrun
      exact ⟨hechoes, hstream, h.fed.trans hsent, h.arrived, h.server, h.serves⟩
    · cases hstep
  | read chunks emask writes =>
    dsimp only [step] at hstep
    split at hstep
    · rename_i hguard
      obtain ⟨hcallback, hmask, hne, harrived⟩ := hguard
      obtain ⟨w, hw, rfl⟩ := Option.map_eq_some_iff.mp hstep
      obtain ⟨hrun, hstream, hsent⟩ :=
        clientStep_spec (RollbackClient.accounts_dispatch 2 e.sock emask) h.stream hw
      have hechoes := wp_run_ok (RollbackClient.wp_dispatch_read (by decide) rfl hne hbound.1
        hbound.2 (echoes_facing h.echoes writes _) h.stream.valid hcallback hmask) hrun
      exact ⟨hechoes, hstream, h.fed.trans hsent, harrived, h.server, h.serves⟩
    · cases hstep
  | event emask writes =>
    dsimp only [step] at hstep
    split at hstep
    · rename_i hmask
      obtain ⟨w, hw, rfl⟩ := Option.map_eq_some_iff.mp hstep
      obtain ⟨hrun, hstream, hsent⟩ :=
        clientStep_spec (RollbackClient.accounts_dispatch 2 e.sock emask) h.stream hw
      have hechoes := wp_run_ok (RollbackClient.echoes_dispatch hmask _
        (echoes_facing h.echoes writes [])) hrun
      exact ⟨hechoes, hstream, h.fed.trans hsent, h.arrived, h.server, h.serves⟩
    · cases hstep
  | server l =>
    dsimp only [step] at hstep
    split at hstep
    · rename_i hfeeds
      obtain ⟨server, hserver, rfl⟩ := Option.map_eq_some_iff.mp hstep
      refine ⟨h.echoes, h.stream, ?_, h.arrived.trans (Rollback.sentTo_grows hserver),
        Rollback.inv_step _ _ _ h.server hserver,
        Rollback.serves_step h.serves h.server hbound hserver⟩
      unfold serverReceived
      rcases Rollback.receivedFrom_step e.fd hserver with hsame | ⟨payload, rfl, hmore⟩
      · rw [hsame]
        exact h.fed
      · rw [hmore, List.flatten_append, List.flatten_singleton]
        exact hfeeds rfl
    · cases hstep

/-! ## Section 5: Runs -/

/-- The client has been constructed and the server started, and nothing has
    happened yet. -/
structure Fresh (e : RollbackEnds) (s : RollbackRing σ) : Prop where
  client : Initial e.c s.client
  sock : (s.client.conns e.c).sock_ = e.sock
  decodeCb : (s.client.conns e.c).decodeCb_ = true
  writes : s.client.writes = []
  server : s.server = Rollback.initial
  delivered : s.delivered = []

theorem Fresh.inv (h : Fresh e s) : Inv e s where
  echoes := by
    rw [h.delivered]
    exact RollbackClient.echoes_initial h.client h.sock h.decodeCb
  stream := streamInv_initial h.client (by rw [h.writes]; simp)
  fed := by
    unfold serverReceived
    rw [h.server]
    exact List.nil_prefix
  arrived := by
    rw [h.delivered]
    exact List.nil_prefix
  server := by
    rw [h.server]
    exact Rollback.inv_initial
  serves := by
    rw [h.server]
    exact Rollback.serves_initial e.fd

/-- No response of the server is posted into the gap. -/
def Punctual (s : RollbackRing σ) : RingStep → Prop
  | .server l => s.server.Punctual l
  | _ => True

instance (s : RollbackRing σ) : ∀ l, Decidable (Punctual s l)
  | .server _ => inferInstanceAs (Decidable (Rollback.Punctual _ _))
  | .makeConnected _ | .read _ _ _ | .event _ _ => isTrue trivial

theorem complete_step (s : RollbackRing σ) (l : RingStep) (s' : RollbackRing σ)
    (h : s.server.Inv ∧ s.server.mailbox.Complete) (hgood : Punctual s l)
    (hstep : e.step s l = some s') : s'.server.Inv ∧ s'.server.mailbox.Complete := by
  cases l with
  | server l =>
    dsimp only [step] at hstep
    split at hstep
    · obtain ⟨server, hserver, rfl⟩ := Option.map_eq_some_iff.mp hstep
      exact Rollback.complete_step _ _ _ h hgood hserver
    · cases hstep
  | makeConnected writes | read chunks emask writes | event emask writes =>
    dsimp only [step] at hstep
    split at hstep
    · obtain ⟨w, _, rfl⟩ := Option.map_eq_some_iff.mp hstep
      exact h
    · cases hstep

/-- No call of `writeFd` in the client has failed after a `::write` of the same
    call had taken bytes. -/
def NoneResent (e : RollbackEnds) (s : RollbackRing σ) : Prop :=
  ∀ we outs bytes, .flush we outs bytes ∈ s.client.trace e.c → ¬FailsAfterTaking outs

theorem Inv.clientSent_prefix (h : Inv e s) (hnone : NoneResent e s) :
    e.clientSent s <+: appendedStream (s.client.trace e.c) := by
  have hstream := h.stream.stream
  rw [(movedStream_eq_iff h.stream.counted).mpr hnone] at hstream
  rw [← hstream]
  exact List.prefix_append _ _

/-- What the server has sent is the greeting and some of what it has received. -/
theorem Inv.serverSent_sublist (h : Inv e s) :
    (e.serverSent s).length ≤ welcome.length + (e.serverReceived s).length := by
  unfold serverSent serverReceived
  by_cases hopen : e.fd ∈ s.server.connections_
  · have hanswers := (h.server.answers_sublist e.fd).flatten.length_le
    rw [h.serves.opened hopen, List.flatten_cons, List.length_append]
    omega
  · rw [(h.serves.unopened hopen).2]
    exact Nat.zero_le _

/-- The greeting, and the beginning of what it has received. -/
theorem Inv.serverSent_prefix (h : Inv e s) (hcomplete : s.server.mailbox.Complete) :
    e.serverSent s <+: welcome ++ e.serverReceived s := by
  unfold serverSent serverReceived
  by_cases hopen : e.fd ∈ s.server.connections_
  · rw [h.serves.opened hopen, List.flatten_cons]
    obtain ⟨more, hmore⟩ := (h.server.answers_prefix hcomplete e.fd).1
    rw [← hmore, List.flatten_append]
    exact (List.prefix_append_right_inj _).mpr (List.prefix_append _ _)
  · rw [(h.serves.unopened hopen).2]
    exact List.nil_prefix

/-- **Round and round.**  In every interleaving of the client with the server,
    its workers and other clients, with any cutting of the streams into reads
    that end with `EAGAIN`, within `Bounded`, and with any outcomes of
    `::write` other than 0 in which no call of `writeFd` fails after it has
    taken bytes:

    * at most the bytes of the two greetings are under way;
    * if no response is posted into the gap, each side receives its stream in
      rounds, the client `welcome hello welcome ..`, the server
      `hello welcome hello ..`;
    * where the client is connected then, and the server has nothing in its
      hands, exactly the bytes of the two greetings are under way. -/
theorem bytes_go_round {s₀ : RollbackRing σ} (hfresh : Fresh e s₀) {ls : List RingStep}
    (hbound : AllSteps e.step e.Bounded s₀ ls) (hrun : run e.step s₀ ls = some s)
    (hnone : NoneResent e s) :
    (appendedStream (s.client.trace e.c)).length + (e.serverSent s).length ≤
      (e.serverReceived s).length + s.delivered.length +
        (welcome.length + RollbackClient.hello.length) ∧
    (AllSteps e.step Punctual s₀ ls →
      (∃ n, s.delivered <+:
        (List.replicate n (welcome ++ RollbackClient.hello)).flatten) ∧
      (∃ n, e.serverReceived s <+:
        (List.replicate n (RollbackClient.hello ++ welcome)).flatten) ∧
      ((s.client.conns e.c).connStatus_ = XF_CONN_STATUS_CONNECTED →
        e.fd ∈ s.server.connections_ → s.server.Idle →
        (appendedStream (s.client.trace e.c)).length + (e.serverSent s).length =
          (e.serverReceived s).length + s.delivered.length +
            (welcome.length + RollbackClient.hello.length))) := by
  have hinv : Inv e s := run_of_allSteps inv_step ls s₀ s hfresh.inv hbound hrun
  have hsent := hinv.echoes.sent
  constructor
  · have hclient := hsent.length_le
    have hserver := hinv.serverSent_sublist
    rw [List.length_append] at hclient
    omega
  · intro hpunctual
    have hstart : s₀.server.Inv ∧ s₀.server.mailbox.Complete := by
      rw [hfresh.server]
      exact ⟨Rollback.inv_initial, Mailbox.complete_initial⟩
    have hcomplete := (run_of_allSteps complete_step ls s₀ s hstart hpunctual hrun).2
    -- each stream is a part of the other one behind a greeting
    have hserver := hinv.serverSent_prefix hcomplete
    have hdown : s.delivered <+: welcome ++ e.serverReceived s :=
      hinv.arrived.trans hserver
    have hup : e.serverReceived s <+: RollbackClient.hello ++ s.delivered :=
      (hinv.fed.trans (hinv.clientSent_prefix hnone)).trans hsent
    refine ⟨prefix_rounds ?_ (by decide), prefix_rounds ?_ (by decide), ?_⟩
    · rw [List.append_assoc]
      exact hdown.trans ((List.prefix_append_right_inj _).mpr hup)
    · rw [List.append_assoc]
      exact hup.trans ((List.prefix_append_right_inj _).mpr hdown)
    · intro hstatus hopen hidle
      have hall := (hinv.server.answers_prefix hcomplete e.fd).2 hidle
      have hsent' : e.serverSent s = welcome ++ e.serverReceived s := by
        unfold serverSent serverReceived
        rw [hinv.serves.opened hopen, hall, List.flatten_cons]
      rw [hinv.echoes.returned hstatus, hsent', List.length_append, List.length_append]
      omega

def firstBytes : List UInt8 := welcome ++ RollbackClient.hello.take 2

/-- The client's `hello` goes to the server and back, and the client has read
    the greeting and two bytes of its own. -/
def firstRound : List RingStep :=
  [.server (.acceptNewConnection 7), .makeConnected [[.wrote 2, .fail .EINTR, .wrote 3]],
    .server (.message (.messageComing 7 RollbackClient.hello)), .server (.message .addMsg)] ++
  Rollback.takesMessage.map .server ++
  [.server .sendResponse, .server (.message .dispatchEnds), .server (.process .beginDrain),
    .server (.process .runNext), .server (.process .reachEnd), .server (.process .clear),
    .read [welcome, RollbackClient.hello.take 2] XE_READABLE [[.fail .EAGAIN]],
    .event XE_WRITABLE [[.wrote 20, .fail .EINTR, .wrote 3]]]

theorem bytes_go_round_first : ∃ (e : RollbackEnds) (s₀ s : RollbackRing Unit),
    Fresh e s₀ ∧ run e.step s₀ firstRound = some s ∧
    (∃ n, s.delivered <+: (List.replicate n (welcome ++ RollbackClient.hello)).flatten) ∧
    s.delivered = firstBytes := by
  generalize he : (⟨0, 0, 7⟩ : RollbackEnds) = e
  generalize hs₀ : (⟨World.start false true false [] [] [], Rollback.initial, []⟩ :
    RollbackRing Unit) = s₀
  have hfresh : Fresh e s₀ := by
    rw [← he, ← hs₀]
    exact ⟨World.initial_start .., rfl, rfl, rfl, rfl, rfl⟩
  have hfinal : (run e.step s₀ firstRound).map (fun s => (s.delivered, s.client.trace 0)) =
      some (firstBytes, [.connFinish, .append RollbackClient.hello,
        .flush false [.wrote 2, .fail .EINTR, .wrote 3] RollbackClient.hello, .decode,
        .decodeReturn 23, .msgCommit firstBytes, .append firstBytes,
        .flush false [.fail .EAGAIN] [], .commitReturn 0,
        .flush false [.wrote 20, .fail .EINTR, .wrote 3] firstBytes]) := by
    rw [← he, ← hs₀]
    decide +kernel
  have hbound : AllSteps e.step e.Bounded s₀ firstRound := by
    rw [← he, ← hs₀]
    decide +kernel
  have hpunctual : AllSteps e.step Punctual s₀ firstRound := by
    rw [← he, ← hs₀]
    decide +kernel
  obtain ⟨s, hrun, hs⟩ := Option.map_eq_some_iff.mp hfinal
  obtain ⟨hdelivered, htrace⟩ := Prod.mk.inj hs
  have hc : e.c = 0 := by rw [← he]
  have hnone : NoneResent e s := by
    intro we outs bytes hmem
    rw [hc, htrace] at hmem
    simp only [List.mem_cons, reduceCtorEq, false_or, ConnEvent.flush.injEq, List.not_mem_nil,
      or_false] at hmem
    rcases hmem with ⟨_, rfl, _⟩ | ⟨_, rfl, _⟩ | ⟨_, rfl, _⟩ <;> decide
  have hround := (bytes_go_round hfresh hbound hrun hnone).2 hpunctual
  exact ⟨e, s₀, s, hfresh, hrun, hround.1, hdelivered⟩

end RollbackEnds

end XFast
