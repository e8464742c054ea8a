import XFast.Framework.Steps
import XFast.Net.Framing
import XFast.Net.SendStream

/-! # Messages from one connection to another

    Two processes are joined by a TCP stream: a connection of the one sends,
    a connection of the other receives.  What the kernel takes from `writeFd`
    on the one side it hands to `readv` on the other, in order and cut up as
    it likes.

    Neither side knows of the other.  The sending side keeps the account of
    `SendStream`, the receiving side that of `Framing`; a run interleaves the
    steps of both, and the stream in the kernel ties them together. -/

namespace XFast

open Program Framing Steps XConnStatus FileApi

variable {σ τ : Type}

/-! ## Section 1: The two sides -/

/-- What the kernel and the user's callbacks answer on the sending side in one
    step. -/
structure Surroundings where
  writes : List (List WriteOutcome)
  reads : List (List ReadvResult)
  script : List CbScript
  deriving DecidableEq, Repr

/-- The connection `c` sends, with user callbacks nested at most `depth` deep;
    the connection `d` receives, on the descriptor `fd`, and holds `cbs`. -/
structure Ends (τ : Type) where
  c : ConnId
  depth : Nat
  fuel : Nat
  d : ConnId
  fd : Fd
  cbs : Callbacks τ

/-- The worlds of the two loop threads, and what has been delivered to the
    receiving one. -/
structure Link (σ τ : Type) where
  sender : World σ
  receiver : World τ
  delivered : List UInt8

inductive LinkStep where
  /-- The sending connection is made connected. -/
  | makeConnected (around : Surroundings)
  /-- Anything else reaches the sending connection: calls, posted functors,
      events. -/
  | input (i : XConnection.Input) (around : Surroundings)
  /-- The receiving connection reads these chunks until `EAGAIN`. -/
  | read (chunks : List (List UInt8))
  deriving DecidableEq, Repr

/-- The messages appended to the backlog. -/
def appendedMessages (es : List ConnEvent) : List (List UInt8) :=
  es.filterMap fun e =>
    match e with
    | .append msg => some msg
    | _ => none

theorem flatten_appendedMessages (es : List ConnEvent) :
    (appendedMessages es).flatten = appendedStream es := by
  induction es with
  | nil => rfl
  | cons e es ih =>
    have hstream : appendedStream (e :: es) = e.appendedBytes ++ appendedStream es := rfl
    rw [hstream, ← ih]
    cases e <;> rfl

/-- A loop thread with these answers before it. -/
def World.facing (w : World σ) (around : Surroundings) : World σ :=
  { w with writes := around.writes, reads := around.reads, script := around.script }

/-- A loop thread whose next `readMsg` reads these chunks until `EAGAIN`. -/
def World.facingReads (w : World σ) (chunks : List (List UInt8)) : World σ :=
  { w with reads := [XConnection.readsOf chunks (.fail .EAGAIN)] }

namespace Ends

/-- A step of the sending side.  A `::write` of one byte or more does not
    return 0. -/
def send (s : Link σ τ) (around : Surroundings) (p : LoopM σ Unit) :
    Option (Link σ τ) :=
  if ∀ outs ∈ around.writes, .zero ∉ outs then
    match p.run (s.sender.facing around) with
    | .ok _ w => some { s with sender := w }
    | .error _ _ => none
  else none

/-- What the kernel has taken from the sending connection. -/
def accepted (e : Ends τ) (s : Link σ τ) : List UInt8 := acceptedStream (s.sender.trace e.c)

/-- A read event on the receiving side.  The kernel delivers the stream in
    order, and no more of it than there is. -/
def receive (e : Ends τ) (s : Link σ τ) (chunks : List (List UInt8)) : Option (Link σ τ) :=
  if (∀ d ∈ chunks, d ≠ []) ∧ s.delivered ++ chunks.flatten <+: e.accepted s then
    -- no more iterations than bytes
    let fuel := (s.receiver.conns e.d).readBuff_.readable.length + chunks.flatten.length + 1
    match (XConnection.dispatch e.cbs fuel e.d e.fd XE_READABLE).run
      (s.receiver.facingReads chunks) with
    | .ok _ w => some { s with receiver := w, delivered := s.delivered ++ chunks.flatten }
    | .error _ _ => none
  else none

/-- A step that would end one of the processes is not taken. -/
def step (e : Ends τ) (s : Link σ τ) : LinkStep → Option (Link σ τ)
  | .makeConnected around =>
      send s around (catching isException
        (XConnection.makeConnected (XConnection.userCallbacks e.depth) e.c) (pure ()))
  | .input i around =>
      send s around (XConnection.input (XConnection.userCallbacks e.depth) e.fuel e.c i)
  | .read chunks => e.receive s chunks

/-! ## Section 2: The sending side -/

section sending

variable {c : ConnId} {live : Halt → Prop}

/-- What the parts of a connection keep, a single input keeps. -/
theorem input_maintains {I : World σ → Prop} {cbs : Callbacks σ} {fuel : Nat}
    (hlive : live .exception) (hcbs : XConnection.KeepCallbacks live I c cbs)
    (hparts : XConnection.KeepParts live I fuel c cbs) (i : XConnection.Input) :
    Maintains live I (XConnection.input cbs fuel c i) := by
  have hclose := XConnection.closeConn_maintains hlive hcbs hparts.beginClose
  refine Maintains.catching (XConnection.caught_live hlive) ?_ (Maintains.pure ())
  cases i with
  | sendMsg msg => exact XConnection.sendMsgString_maintains hparts.sendMsgToBuffer msg
  | sendMsgToBuffer msg => exact hparts.sendMsgToBuffer msg
  | closeConnection => exact XConnection.closeConnection_maintains hclose
  | closeConn => exact hclose
  | event fd emask => exact hparts.dispatch fd emask

theorem keepCallbacks_of_parts {I : World σ → Prop} {fuel : Nat} (hlive : live .exception)
    (hscript : ∀ w s, I w → I { w with script := s })
    (hparts : ∀ depth, XConnection.KeepCallbacks live I c (XConnection.userCallbacks depth) →
      XConnection.KeepParts live I fuel c (XConnection.userCallbacks depth)) (depth : Nat) :
    XConnection.KeepCallbacks live I c (XConnection.userCallbacks depth : Callbacks σ) :=
  XConnection.keepCallbacks_userCallbacks hscript
    (fun depth hcbs => XConnection.sendMsgString_maintains (hparts depth hcbs).sendMsgToBuffer)
    (fun depth hcbs => XConnection.closeConnection_maintains
      (XConnection.closeConn_maintains hlive hcbs (hparts depth hcbs).beginClose)) depth

/-- The trace of a connection only grows. -/
def TraceFrom (c : ConnId) (es : List ConnEvent) (w : World σ) : Prop := es <+: w.trace c

theorem TraceFrom.log {es : List ConnEvent} (w : World σ) (e : ConnEvent)
    (h : TraceFrom c es w) : TraceFrom c es (w.log c e) := by
  unfold TraceFrom
  rw [World.log_self]
  exact h.trans (List.prefix_append _ _)

theorem traceFrom_ignoresState (es : List ConnEvent) :
    XConnection.IgnoresState (TraceFrom c es : World σ → Prop) c where
  script := fun _ _ h => h
  writes := fun _ _ h => h
  errno := fun _ _ h => h
  loop := fun _ _ h => h
  log := fun w e h => h.log w e
  conn := fun _ _ _ h => h

theorem traceFrom_parts {es : List ConnEvent} {fuel : Nat} {cbs : Callbacks σ}
    (hlive : live .exception) (hcbs : XConnection.KeepCallbacks live (TraceFrom c es) c cbs) :
    XConnection.KeepParts live (TraceFrom c es) fuel c cbs := by
  have hstate : XConnection.IgnoresState (TraceFrom c es : World σ → Prop) c :=
    traceFrom_ignoresState es
  have hsurvives := hstate.survivesTraffic
  have hclose : Maintains live (TraceFrom c es) (XConnection.beginClose c : LoopM σ Bool) :=
    XConnection.beginClose_maintains hstate
  refine ⟨XConnection.sendMsgToBuffer_maintains hlive hsurvives hcbs.sentBytesCb, hclose, ?_⟩
  apply XConnection.dispatch_maintains hlive
    ⟨fun _ _ h => h, fun _ _ h => h, fun _ _ h => h, fun _ _ h => h⟩ hcbs
  · exact fun e _ => Maintains.modify fun w h => h.log w e
  · exact XConnection.sendMsg_maintains hlive hsurvives hcbs.sentBytesCb
  · exact hclose

end sending

/-- A step of the sending side that keeps two invariants: the account of the
    stream, and that the trace so far is a part of the trace. -/
structure Sends (e : Ends τ) (s : Link σ τ) (p : LoopM σ Unit) : Prop where
  stream : Maintains (fun _ => True) (XConnection.StreamInv e.c) p
  trace : Maintains (fun _ => True) (TraceFrom e.c (s.sender.trace e.c)) p

variable {e : Ends τ} {s s' : Link σ τ}

theorem makeConnected_maintains {c : ConnId} {live : Halt → Prop} {I : World σ → Prop}
    {cbs : Callbacks σ} (hlive : live .exception)
    (hbegin : Maintains live I (XConnection.beginConnected c : LoopM σ Unit))
    (hcbs : XConnection.KeepCallbacks live I c cbs) :
    Maintains live I (catching isException (XConnection.makeConnected cbs c) (pure ())) :=
  Maintains.catching (XConnection.caught_live hlive)
    (hbegin.bind fun _ => hcbs.connFinishCb) (Maintains.pure ())

/-- The callbacks of the user keep both invariants. -/
theorem keepCallbacks_stream (e : Ends τ) :
    XConnection.KeepCallbacks (fun _ => True) (XConnection.StreamInv e.c : World σ → Prop) e.c
      (XConnection.userCallbacks e.depth) :=
  keepCallbacks_of_parts trivial XConnection.StreamInv.ignoresInput.script
    (fun _ hcbs => (XConnection.streamInv_parts trivial hcbs :
      XConnection.KeepParts _ _ e.fuel _ _)) e.depth

theorem keepCallbacks_trace (e : Ends τ) (es : List ConnEvent) :
    XConnection.KeepCallbacks (fun _ => True) (TraceFrom e.c es : World σ → Prop) e.c
      (XConnection.userCallbacks e.depth) :=
  keepCallbacks_of_parts trivial (fun _ _ h => h)
    (fun _ hcbs => (traceFrom_parts trivial hcbs : XConnection.KeepParts _ _ e.fuel _ _)) e.depth

theorem sends_makeConnected (e : Ends τ) (s : Link σ τ) :
    Sends e s (catching isException
      (XConnection.makeConnected (XConnection.userCallbacks e.depth) e.c) (pure ())) where
  stream := makeConnected_maintains trivial XConnection.streamInv_beginConnected
    (keepCallbacks_stream e)
  trace := makeConnected_maintains trivial
    (XConnection.beginConnected_maintains (traceFrom_ignoresState _)) (keepCallbacks_trace e _)

theorem sends_input (e : Ends τ) (s : Link σ τ) (i : XConnection.Input) :
    Sends e s (XConnection.input (XConnection.userCallbacks e.depth) e.fuel e.c i) where
  stream := input_maintains trivial (keepCallbacks_stream e)
    (XConnection.streamInv_parts trivial (keepCallbacks_stream e)) i
  trace := input_maintains trivial (keepCallbacks_trace e _)
    (traceFrom_parts trivial (keepCallbacks_trace e _)) i

/-- A longer trace has a longer accepted stream. -/
theorem acceptedStream_prefix {es es' : List ConnEvent} (h : es <+: es') :
    acceptedStream es <+: acceptedStream es' := by
  obtain ⟨more, rfl⟩ := h
  unfold acceptedStream
  rw [List.flatMap_append]
  exact List.prefix_append _ _

/-- What a step of the sending side leaves: the receiving side is as it was. -/
structure Sent (e : Ends τ) (s s' : Link σ τ) : Prop where
  receiver : s'.receiver = s.receiver
  delivered : s'.delivered = s.delivered
  stream : XConnection.StreamInv e.c s.sender → XConnection.StreamInv e.c s'.sender
  accepted : e.accepted s <+: e.accepted s'

theorem send_spec {around : Surroundings} {p : LoopM σ Unit} (hp : Sends e s p)
    (h : send s around p = some s') : Sent e s s' := by
  unfold send at h
  split at h
  · rename_i hzero
    split at h
    · rename_i w hrun
      cases h
      refine ⟨rfl, rfl, fun hstream => ?_, ?_⟩
      · have hstart : XConnection.StreamInv e.c (s.sender.facing around) :=
          ⟨hstream.valid, hstream.stream, hstream.counted, hzero⟩
        exact wp_run_ok (Q := fun _ => XConnection.StreamInv e.c) (hp.stream _ hstart) hrun
      · have hstart : TraceFrom e.c (s.sender.trace e.c) (s.sender.facing around) :=
          List.prefix_refl _
        exact acceptedStream_prefix
          (wp_run_ok (Q := fun _ => TraceFrom e.c (s.sender.trace e.c)) (hp.trace _ hstart) hrun)
    · cases h
  · cases h

/-! ## Section 3: The receiving side -/

/-- What has been delivered is framed, and is a part of what was accepted. -/
structure Inv (e : Ends τ) (D : ConformingDecoder) (I : World τ → Prop) (s : Link σ τ) :
    Prop where
  stream : XConnection.StreamInv e.c s.sender
  delivered : s.delivered <+: e.accepted s
  around : I s.receiver
  receiving : XConnection.Receiving e.d e.fd s.receiver
  residue : (s.receiver.conns e.d).readBuff_.readable = D.framer.residue s.delivered
  commits : committed (s.receiver.trace e.d) = D.framer.frames s.delivered
  storage : (s.receiver.conns e.d).readBuff_.buffer_.length ≤ 1024 + s.delivered.length

/-- Fewer than 2^31 bytes are delivered in all. -/
def Bounded (s : Link σ τ) : LinkStep → Prop
  | .read chunks => s.delivered.length + chunks.flatten.length < 2 ^ 31
  | _ => True

instance (s : Link σ τ) : ∀ l, Decidable (Bounded s l)
  | .read _ => inferInstanceAs (Decidable (_ < _))
  | .makeConnected _ | .input _ _ => isTrue trivial

variable {D : ConformingDecoder} {I : World τ → Prop} {stuck : Prop}

theorem Inv.sent (h : Inv e D I s) (hsent : Sent e s s') : Inv e D I s' where
  stream := hsent.stream h.stream
  delivered := by
    rw [hsent.delivered]
    exact h.delivered.trans hsent.accepted
  around := by rw [hsent.receiver]; exact h.around
  receiving := by rw [hsent.receiver]; exact h.receiving
  residue := by rw [hsent.receiver, hsent.delivered]; exact h.residue
  commits := by rw [hsent.receiver, hsent.delivered]; exact h.commits
  storage := by rw [hsent.receiver, hsent.delivered]; exact h.storage

/-- A read event frames the next piece of the stream behind what was left. -/
theorem Inv.received (hdec : ∀ buffer (len : Int),
      e.cbs.decodeCb_ e.d buffer len = pure (D.decode (buffer.take len.toNat)))
    (hcommit : XConnection.CommitContract I stuck e.d e.fd e.cbs) {chunks : List (List UInt8)}
    (h : Inv e D I s) (hbound : s.delivered.length + chunks.flatten.length < 2 ^ 31)
    (hstep : e.receive s chunks = some s') : Inv e D I s' := by
  unfold receive at hstep
  split at hstep
  · rename_i hguard
    obtain ⟨hne, hfirst⟩ := hguard
    dsimp only at hstep
    split at hstep
    · rename_i w hrun
      cases hstep
      have hlength : (s.receiver.conns e.d).readBuff_.readable.length ≤ s.delivered.length := by
        rw [h.residue]
        exact D.framer.length_residue_le _
      have hstorage := h.storage
      have hmax : vectorMaxSize = 2 ^ 63 - 1 := rfl
      have habout : XConnection.AboutToRead e.d e.fd [chunks] (s.receiver.facingReads chunks) :=
        ⟨⟨h.receiving.valid, h.receiving.decodeCb, h.receiving.callback⟩, rfl,
          fun cs hcs => by rw [List.mem_singleton.mp hcs]; exact hne⟩
      have hnone : D.framer.frame (s.receiver.conns e.d).readBuff_.readable = none := by
        rw [h.residue]
        exact D.framer.frame_residue _
      have hbytes : (s.receiver.conns e.d).readBuff_.readable.length + chunks.flatten.length <
          2 ^ 31 := by omega
      have hroom : (s.receiver.conns e.d).readBuff_.buffer_.length + chunks.flatten.length ≤
          vectorMaxSize := by omega
      have hwp := XConnection.wp_readEvent_framed hdec hcommit
        (hcommit.ignoresInput.reads _ _ h.around) habout hnone hbytes (Nat.lt_succ_self _) hroom
      obtain ⟨haround, _, hread⟩ := wp_run_ok hwp hrun
      refine ⟨h.stream, hfirst, haround, hread.toReceiving, ?_, ?_, ?_⟩
      · rw [hread.residue, h.residue, D.framer.residue_append s.delivered]
      · rw [hread.commits, h.commits, h.residue, D.framer.frames_append s.delivered]
      · have hgrown : (w.conns e.d).readBuff_.buffer_.length ≤
            (s.receiver.conns e.d).readBuff_.buffer_.length + chunks.flatten.length := hread.storage
        show (w.conns e.d).readBuff_.buffer_.length ≤ 1024 + (s.delivered ++ chunks.flatten).length
        rw [List.length_append]
        omega
    · cases hstep
  · cases hstep

/-! ## Section 4: Runs -/

theorem inv_step (hdec : ∀ buffer (len : Int),
      e.cbs.decodeCb_ e.d buffer len = pure (D.decode (buffer.take len.toNat)))
    (hcommit : XConnection.CommitContract I stuck e.d e.fd e.cbs) (s : Link σ τ) (l : LinkStep)
    (s' : Link σ τ) (h : Inv e D I s) (hbound : Bounded s l) (hstep : e.step s l = some s') :
    Inv e D I s' := by
  cases l with
  | makeConnected around => exact h.sent (send_spec (sends_makeConnected e s) hstep)
  | input i around => exact h.sent (send_spec (sends_input e s i) hstep)
  | read chunks => exact h.received hdec hcommit hbound hstep

/-- Two connections between which nothing has happened yet: the one has just
    been constructed, the other is registered and has read nothing. -/
structure Fresh (e : Ends τ) (s : Link σ τ) : Prop where
  sender : Initial e.c s.sender
  writes : s.sender.writes = []
  receiving : XConnection.Receiving e.d e.fd s.receiver
  readBuff : (s.receiver.conns e.d).readBuff_ = XBuffer.fresh XBuffer.kInitialSize
  commits : committed (s.receiver.trace e.d) = []
  delivered : s.delivered = []

theorem Fresh.inv (h : Fresh e s) (haround : I s.receiver) : Inv e D I s where
  stream := XConnection.streamInv_initial h.sender (by rw [h.writes]; simp)
  delivered := by
    rw [h.delivered]
    exact List.nil_prefix
  around := haround
  receiving := h.receiving
  residue := by
    rw [h.readBuff, h.delivered, D.framer.residue_of_none D.framer.frame_nil]
    exact XBuffer.readable_fresh XBuffer.kInitialSize
  commits := by
    rw [h.commits, h.delivered, D.framer.frames_of_none D.framer.frame_nil]
  storage := by
    rw [h.readBuff, XBuffer.length_fresh]
    exact Nat.le_add_right 1024 _

/-- Nothing is pending on the sending side, and nothing is on the way. -/
def Drained (e : Ends τ) (s : Link σ τ) : Prop :=
  (s.sender.conns e.c).writeBuff_.readable = [] ∧ s.delivered = e.accepted s

/-- No call of `writeFd` has failed after a `::write` of the same call had
    taken bytes. -/
def NoneResent (e : Ends τ) (s : Link σ τ) : Prop :=
  ∀ we outs bytes, .flush we outs bytes ∈ s.sender.trace e.c → ¬ FailsAfterTaking outs

/-- What was appended on the one side, and what was committed on the other. -/
theorem Inv.framed (h : Inv e D I s) (hnone : NoneResent e s) :
    committed (s.receiver.trace e.d) <+: D.framer.frames (appendedStream (s.sender.trace e.c)) ∧
      (Drained e s → committed (s.receiver.trace e.d) =
        D.framer.frames (appendedStream (s.sender.trace e.c))) := by
  have haccepted : e.accepted s ++ (s.sender.conns e.c).writeBuff_.readable =
      appendedStream (s.sender.trace e.c) := by
    unfold accepted
    rw [← (movedStream_eq_iff h.stream.counted).mpr hnone]
    exact h.stream.stream
  rw [h.commits, ← haccepted]
  constructor
  · exact D.framer.frames_prefix (h.delivered.trans (List.prefix_append _ _))
  · rintro ⟨hpending, hdelivered⟩
    rw [hpending, List.append_nil, hdelivered]

/-- **Messages arrive in order, once each.**  One connection sends, whatever
    its user's callbacks do, and another receives, with a conforming decoder
    and a commit callback that neither throws nor closes.

    All reads end with `EAGAIN`: bytes that come together with the end of the
    stream are never parsed.  Fewer than 2^31 bytes are delivered.  No
    `::write` returns 0, and no call of `writeFd` fails after it has taken
    bytes.

    Then what the receiving connection has committed is the beginning of the
    framing of all that was appended on the sending one, and all of it when
    nothing is left on the way.  If every message is a frame, the frames are
    the messages. -/
theorem messages_arrive_in_order (hdec : ∀ buffer (len : Int),
      e.cbs.decodeCb_ e.d buffer len = pure (D.decode (buffer.take len.toNat)))
    (hcommit : XConnection.CommitContract I stuck e.d e.fd e.cbs) {s₀ : Link σ τ}
    (hfresh : Fresh e s₀) (haround : I s₀.receiver) {ls : List LinkStep}
    (hbound : AllSteps e.step Bounded s₀ ls) (hrun : run e.step s₀ ls = some s)
    (hnone : NoneResent e s) :
    (committed (s.receiver.trace e.d) <+: D.framer.frames (appendedStream (s.sender.trace e.c)) ∧
      (Drained e s → committed (s.receiver.trace e.d) =
        D.framer.frames (appendedStream (s.sender.trace e.c)))) ∧
    ((∀ msg ∈ appendedMessages (s.sender.trace e.c), D.framer.frame msg = some msg.length) →
      committed (s.receiver.trace e.d) <+: appendedMessages (s.sender.trace e.c) ∧
      (Drained e s → committed (s.receiver.trace e.d) =
        appendedMessages (s.sender.trace e.c))) := by
  have hinv : Inv e D I s :=
    run_of_allSteps (inv_step hdec hcommit) ls s₀ s (hfresh.inv haround) hbound hrun
  have hframed := hinv.framed hnone
  refine ⟨hframed, fun hframes => ?_⟩
  have hmessages := (D.framer.split_flatten hframes).1
  rw [flatten_appendedMessages] at hmessages
  rw [hmessages] at hframed
  exact hframed

/-- Three messages of two bytes: the first is written in two parts, the second
    waits for the third, and they are read in three events that cut them. -/
theorem messages_arrive_in_order_three : ∃ (e : Ends Unit) (s₀ s : Link Unit Unit),
    Fresh e s₀ ∧ run e.step s₀
      [.makeConnected ⟨[], [], [⟨[], false, 0⟩]⟩,
        .input (.sendMsg [1, 2]) ⟨[[.wrote 1, .fail .EINTR, .wrote 1]], [], []⟩,
        .read [[1]], .input (.sendMsg [3, 4]) ⟨[[.fail .EAGAIN]], [], []⟩,
        .input (.sendMsg [5, 6]) ⟨[[.wrote 4]], [], []⟩, .read [[2], [3]],
        .read [[4, 5, 6]]] = some s ∧
    committed (s.receiver.trace 0) = [[1, 2], [3, 4], [5, 6]] := by
  generalize he : (⟨0, 1, 0, 0, 0, listen twoByteDecoder⟩ : Ends Unit) = e
  generalize hs₀ : (⟨World.start false false false [] [] [], World.listening [], []⟩ :
    Link Unit Unit) = s₀
  generalize hls : [LinkStep.makeConnected ⟨[], [], [⟨[], false, 0⟩]⟩,
    .input (.sendMsg [1, 2]) ⟨[[.wrote 1, .fail .EINTR, .wrote 1]], [], []⟩, .read [[1]],
    .input (.sendMsg [3, 4]) ⟨[[.fail .EAGAIN]], [], []⟩,
    .input (.sendMsg [5, 6]) ⟨[[.wrote 4]], [], []⟩, .read [[2], [3]], .read [[4, 5, 6]]] = ls
  have hfresh : Fresh e s₀ := by
    rw [← he, ← hs₀]
    exact ⟨World.initial_start .., rfl, XConnection.receiving_listening _, rfl, rfl, rfl⟩
  have hfinal : (run e.step s₀ ls).map (fun s => (s.sender.trace 0,
      (s.sender.conns 0).writeBuff_.readable, s.delivered)) =
      some ([.connFinish, .append [1, 2],
        .flush false [.wrote 1, .fail .EINTR, .wrote 1] [1, 2], .append [3, 4],
        .flush false [.fail .EAGAIN] [], .append [5, 6], .flush false [.wrote 4] [3, 4, 5, 6]],
        [], [1, 2, 3, 4, 5, 6]) := by
    rw [← he, ← hs₀, ← hls]
    decide +kernel
  obtain ⟨s, hrun, hs⟩ := Option.map_eq_some_iff.mp hfinal
  simp only [Prod.mk.injEq] at hs
  obtain ⟨htrace, hpending, hdelivered⟩ := hs
  have hc : e.c = 0 := by rw [← he]
  have hd : e.d = 0 := by rw [← he]
  have hnone : NoneResent e s := by
    intro we outs bytes hmem
    rw [hc, htrace] at hmem
    simp only [List.mem_cons, reduceCtorEq, false_or, ConnEvent.flush.injEq, List.not_mem_nil,
      or_false] at hmem
    rcases hmem with ⟨_, rfl, _⟩ | ⟨_, rfl, _⟩ | ⟨_, rfl, _⟩ <;> decide
  have hdrained : Drained e s := by
    unfold Drained accepted
    rw [hc, htrace, hpending, hdelivered]
    exact ⟨rfl, rfl⟩
  have hcommit : XConnection.CommitContract (fun _ => True) False e.d e.fd e.cbs := by
    rw [← he]
    exact XConnection.commitContract_listen ..
  have hdec : ∀ buffer (len : Int), e.cbs.decodeCb_ e.d buffer len =
      pure (twoByteDecoder.decode (buffer.take len.toNat)) := by
    rw [← he]
    exact fun _ _ => rfl
  have hbound : AllSteps e.step Bounded s₀ ls := by
    rw [← he, ← hs₀, ← hls]
    decide +kernel
  have harrive := (messages_arrive_in_order hdec hcommit hfresh trivial hbound hrun hnone).2
  rw [hc, htrace] at harrive
  refine ⟨e, s₀, s, hfresh, hrun, ?_⟩
  rw [← hd]
  exact (harrive (by decide +kernel)).2 hdrained

end Ends

end XFast
