import XFast.Net.BufferSpace
import XFast.Net.Transport

/-! # A client that sends everything back

    The program of `test/client/rollback`: a client whose handler sends
    `hello` when the connection is made, and then every message that comes,
    unchanged.  No decode callback is set, so that `xClient` takes all bytes
    there are for a message.

    The connection is that of `Connection`.  An exception that leaves one of
    the handler's functions is caught by `xClient`; one that leaves
    `HandleEvent` or `makeConnected` ends the process. -/

namespace XFast

open Program XConnStatus

variable {σ : Type}

/-- `toString()` on a buffer that is in order. -/
theorem XBuffer.toString_eq {b : XBuffer} (hv : b.Valid) : b.toString = .ok b.readable := by
  have hwriter : b.readerIndex_ + b.readableBytes = b.writerIndex_ := by
    have := hv.readableBytes_eq
    have := hv.reader_le_writer
    omega
  unfold XBuffer.toString readMem
  rw [hwriter, if_pos hv.writer_le_size]
  rfl

namespace RollbackClient

open XConnection

/-! ## Section 1: The handler -/

def hello : List UInt8 := "hello".toList.map fun c => UInt8.ofNat c.toNat

/-- The user has set no callback for sent bytes, and none for the close; what
    `xClient` does then is not seen by the connection. -/
def quiet : Callbacks σ where
  decodeCb_ _ _ buffLen := pure buffLen
  msgCommitCb_ _ _ := pure ()
  sentBytesCb_ _ _ := pure ()
  connCloseCb_ _ := pure ()
  connFinishCb_ _ := pure ()

/-- `sendMsg(const xBuffer& buffer)` in the loop thread. -/
def sendMsgBuffer (c : ConnId) (buffer : XBuffer) : LoopM σ Unit := do
  let w ← get
  if (w.conns c).connStatus_ ≠ XF_CONN_STATUS_CONNECTED then
    return ()
  else do
    let msg ← lift buffer.toString
    sendMsgString quiet c msg

/-- `RollBackClientHandler`, as `xClient` calls it: `connSucc` from
    `connectionFinished`, and `RecvMsg` from `messageComing`. -/
def callbacks : Callbacks σ :=
  { quiet with
    msgCommitCb_ := fun c buffer => catching isException (sendMsgBuffer c buffer) (pure ())
    connFinishCb_ := fun c => catching isException (sendMsgString quiet c hello) (pure ()) }

/-! ## Section 2: What sending leaves alone -/

/-- From `w` to `w'` the message `x` was appended, and sent or not; nothing has
    happened to the receiving side. -/
structure Sends (c : ConnId) (x : List UInt8) (w w' : World σ) : Prop where
  appended : appendedStream (w'.trace c) = appendedStream (w.trace c) ++ x
  commits : committed (w'.trace c) = committed (w.trace c)
  readBuff : (w'.conns c).readBuff_ = (w.conns c).readBuff_
  decodeCb : (w'.conns c).decodeCb_ = (w.conns c).decodeCb_
  connStatus : (w'.conns c).connStatus_ = (w.conns c).connStatus_
  sock : (w'.conns c).sock_ = (w.conns c).sock_
  callback : w'.loop.callbackOf = w.loop.callbackOf
  storage : (w'.conns c).writeBuff_.buffer_.length ≤
    (w.conns c).writeBuff_.buffer_.length + x.length

variable {c : ConnId} {x : List UInt8} {w w' w₀ : World σ} {live : Halt → Prop}

theorem Sends.refl (w : World σ) : Sends c [] w w :=
  ⟨(List.append_nil _).symm, rfl, rfl, rfl, rfl, rfl, rfl, Nat.le_refl _⟩

theorem Sends.trans {y : List UInt8} {w₁ : World σ} (h : Sends c x w w₁) (h' : Sends c y w₁ w') :
    Sends c (x ++ y) w w' where
  appended := by rw [h'.appended, h.appended, List.append_assoc]
  commits := h'.commits.trans h.commits
  readBuff := h'.readBuff.trans h.readBuff
  decodeCb := h'.decodeCb.trans h.decodeCb
  connStatus := h'.connStatus.trans h.connStatus
  sock := h'.sock.trans h.sock
  callback := h'.callback.trans h.callback
  storage := by
    have := h.storage
    have := h'.storage
    rw [List.length_append]
    omega

/-- An event that neither appends nor commits. -/
theorem Sends.log (h : Sends c x w₀ w) (e : ConnEvent) (hquiet : e.appendedBytes = [])
    (hcommit : ∀ frame, e ≠ .msgCommit frame) : Sends c x w₀ (w.log c e) where
  appended := by rw [World.log_self, appendedStream_snoc, hquiet, List.append_nil, h.appended]
  commits := by rw [World.log_self, committed_snoc_other _ hcommit, h.commits]
  readBuff := h.readBuff
  decodeCb := h.decodeCb
  connStatus := h.connStatus
  sock := h.sock
  callback := h.callback
  storage := h.storage

/-- The flag and the indexes of `writeBuff_`. -/
theorem Sends.conn (h : Sends c x w₀ w) {b : XBuffer} {we : Bool}
    (hstorage : b.buffer_ = (w.conns c).writeBuff_.buffer_) :
    Sends c x w₀ (w.setConn c { w.conns c with writeBuff_ := b, writeEnabled_ := we }) where
  appended := h.appended
  commits := h.commits
  readBuff := by rw [World.setConn_self]; exact h.readBuff
  decodeCb := by rw [World.setConn_self]; exact h.decodeCb
  connStatus := by rw [World.setConn_self]; exact h.connStatus
  sock := by rw [World.setConn_self]; exact h.sock
  callback := h.callback
  storage := by rw [World.setConn_self, hstorage]; exact h.storage

theorem Sends.loop (h : Sends c x w₀ w) {loop : XLoop Handler}
    (hcallback : loop.callbackOf = w.loop.callbackOf) : Sends c x w₀ { w with loop := loop } :=
  ⟨h.appended, h.commits, h.readBuff, h.decodeCb, h.connStatus, h.sock,
    hcallback.trans h.callback, h.storage⟩

/-- What is still to come of the kernel, and `errno`. -/
theorem Sends.kernel (h : Sends c x w₀ w) (writes : List (List WriteOutcome)) (errno : Errno) :
    Sends c x w₀ { w with writes := writes, errno := errno } :=
  ⟨h.appended, h.commits, h.readBuff, h.decodeCb, h.connStatus, h.sock, h.callback, h.storage⟩

theorem sends_flushBacklog : Maintains live (Sends c x w₀) (flushBacklog c) := by
  have hwrite : Maintains live (Sends c x w₀) (writeFd c) := by
    intro w h
    rw [wp_writeFd]
    split
    · exact fun _ => h
    · rename_i outs rest _
      split
      · exact (h.kernel rest _).log _ rfl (by simp)
      · exact fun _ => h.kernel rest w.errno
  refine hwrite.bind fun sent => Maintains.ite (Maintains.pure _) ?_
  refine Maintains.bind (fun w h => ?_) fun _ => Maintains.pure _
  rw [wp_onWriteBuff]
  split
  · rename_i b hmove
    exact h.conn (XBuffer.moveOver_storage hmove)
  · exact fun _ => h

theorem sends_updateWriteEvent : Maintains live (Sends c x w₀) (updateWriteEvent c) := by
  have hflag : ∀ we, Maintains live (Sends c x w₀)
      (modify fun w : World σ => w.setConn c { w.conns c with writeEnabled_ := we }) :=
    fun we => Maintains.modify fun w h => h.conn rfl
  have hloop : ∀ f : XLoop Handler → Except Halt (XLoop Handler),
      (∀ loop loop', f loop = .ok loop' → loop'.callbackOf = loop.callbackOf) →
      Maintains live (Sends c x w₀) (onLoop f) := by
    intro f hf w h
    rw [wp_onLoop]
    split
    · rename_i loop hok
      exact h.loop (hf _ _ hok)
    · exact fun _ => h
  refine Maintains.get.bind fun w => Maintains.ite ?_ (Maintains.ite ?_ (Maintains.pure ()))
  · exact (hloop _ fun _ _ => XLoop.addEvent_callbackOf).bind fun _ => hflag true
  · have hdisarm : Maintains live (Sends c x w₀) (emit c .disarm) :=
      Maintains.modify fun w h => h.log .disarm rfl (by simp)
    refine hdisarm.bind fun _ => ?_
    exact (hloop _ fun _ _ => XLoop.removeEvent_callbackOf_eq).bind fun _ => hflag false

/-- Nobody is told about sent bytes but `xClient`. -/
theorem sends_sendMsg {cbs : Callbacks σ} (hsent : ∀ bytes, cbs.sentBytesCb_ c bytes = pure ()) :
    Maintains live (Sends c x w₀) (sendMsg cbs c) := by
  have hcall : ∀ n, Maintains live (Sends c x w₀) (callSentBytes cbs c n) := by
    intro n
    refine Maintains.get.bind fun w => Maintains.ite ?_ (Maintains.pure ())
    have hlog : Maintains live (Sends c x w₀) (emit c (.sentBytes n)) :=
      Maintains.modify fun w h => h.log _ rfl (by simp)
    refine hlog.bind fun _ w h => ?_
    rw [wp_catching, hsent]
    exact h
  refine Maintains.get.bind fun w => Maintains.ite (Maintains.pure _) (Maintains.ite ?_ ?_)
  · refine sends_flushBacklog.bind fun sent => Maintains.ite ?_ ?_
    · exact Maintains.get.bind fun _ => Maintains.pure _
    · exact (hcall _).bind fun _ => sends_updateWriteEvent.bind fun _ => Maintains.pure _
  · exact sends_updateWriteEvent.bind fun _ => Maintains.pure _

/-- There is room for the message behind what is in the storage. -/
def Room (c : ConnId) (x : List UInt8) (w : World σ) : Prop :=
  (w.conns c).writeBuff_.Valid ∧
    (w.conns c).writeBuff_.buffer_.length + x.length ≤ vectorMaxSize

theorem sends_appendMsg (hroom : Room c x w) :
    wp (appendMsg c x) (fun _ => Sends c x w) (fun _ _ => False) w := by
  obtain ⟨hv, hfits⟩ := hroom
  have hmod := XBuffer.vectorMaxSize_lt
  have hhead : vectorMaxSize + XBuffer.kDiscardableSize < sizeModulus := by decide
  have hwriter := hv.writer_le_size
  unfold appendMsg
  rw [wp_bind, wp_onWriteBuff]
  rcases XBuffer.append_spec x hv (by omega) (by omega) with ⟨b, hok, _, _⟩ | ⟨_, hbig⟩
  · rw [hok]
    have hlength : b.buffer_.length ≤ (w.conns c).writeBuff_.buffer_.length + x.length := by
      rcases XBuffer.append_length hok with hsame | hgrown
      · omega
      · rw [hgrown.length_eq, sizeAdd_of_lt (by omega)]
        omega
    refine ⟨?_, ?_, ?_, ?_, ?_, ?_, rfl, ?_⟩
    · rw [World.log_self, appendedStream_snoc]
      rfl
    · rw [World.log_self, committed_snoc_other _ (by simp)]
      rfl
    · rw [World.log_conns, World.setConn_self]
    · rw [World.log_conns, World.setConn_self]
    · rw [World.log_conns, World.setConn_self]
    · rw [World.log_conns, World.setConn_self]
    · rw [World.log_conns, World.setConn_self]
      exact hlength
  · omega

/-- A message is appended, whatever becomes of it then. -/
theorem sends_sendMsgString (hstatus : (w.conns c).connStatus_ = XF_CONN_STATUS_CONNECTED)
    (hroom : Room c x w) :
    wp (sendMsgString quiet c x) (fun _ => Sends c x w) (fun e w' => e = .exception → Sends c x w w')
      w := by
  unfold sendMsgString sendMsgToBuffer
  rw [wp_bind, wp_get, wp_ite, if_neg (not_not.mpr hstatus), wp_bind]
  refine wp_mono (fun _ w₁ h => ?_) (fun _ _ hno => hno.elim) (sends_appendMsg hroom)
  have hsend : Maintains (· = .exception) (Sends c x w) (sendMsg quiet c) :=
    sends_sendMsg fun _ => rfl
  exact hsend.bind (fun _ => Maintains.pure ()) w₁ h

/-- The handler's `RecvMsg`. -/
theorem sends_msgCommitCb {buffer : XBuffer} (hv : buffer.Valid)
    (hstatus : (w.conns c).connStatus_ = XF_CONN_STATUS_CONNECTED)
    (hroom : Room c buffer.readable w) :
    wp (callbacks.msgCommitCb_ c buffer) (fun _ => Sends c buffer.readable w)
      (fun e _ => ¬isException e) w := by
  show wp (catching isException (sendMsgBuffer c buffer) (pure ())) _ _ w
  rw [wp_catching]
  unfold sendMsgBuffer
  rw [wp_bind, wp_get, wp_ite, if_neg (not_not.mpr hstatus), wp_bind, XBuffer.toString_eq hv,
    wp_lift_ok]
  refine wp_mono (fun _ _ h => h) (fun e w' h => ?_) (sends_sendMsgString hstatus hroom)
  -- what is thrown after the message has been appended is caught
  split
  · rename_i hcaught
    exact h (eq_of_isException hcaught)
  · rename_i hnot
    exact hnot

/-! ## Section 3: One event -/

/-- From `w` to `w'` the bytes `x` were taken off the read buffer, which is
    empty now, and sent back. -/
structure Returned (c : ConnId) (x : List UInt8) (w w' : World σ) : Prop where
  appended : appendedStream (w'.trace c) = appendedStream (w.trace c) ++ x
  commits : (committed (w'.trace c)).flatten = (committed (w.trace c)).flatten ++ x
  valid : (w'.conns c).readBuff_.Valid
  readable : (w'.conns c).readBuff_.readable = []
  readStorage : (w'.conns c).readBuff_.buffer_.length = (w.conns c).readBuff_.buffer_.length
  decodeCb : (w'.conns c).decodeCb_ = (w.conns c).decodeCb_
  connStatus : (w'.conns c).connStatus_ = (w.conns c).connStatus_
  sock : (w'.conns c).sock_ = (w.conns c).sock_
  callback : w'.loop.callbackOf = w.loop.callbackOf
  storage : (w'.conns c).writeBuff_.buffer_.length ≤
    (w.conns c).writeBuff_.buffer_.length + x.length

theorem Returned.after {w₁ : World σ} (h' : Returned c x w₁ w') (h : Sends c [] w w₁) :
    Returned c x w w' where
  appended := by rw [h'.appended, h.appended, List.append_nil]
  commits := by rw [h'.commits, h.commits]
  valid := h'.valid
  readable := h'.readable
  readStorage := by rw [h'.readStorage, h.readBuff]
  decodeCb := h'.decodeCb.trans h.decodeCb
  connStatus := h'.connStatus.trans h.connStatus
  sock := h'.sock.trans h.sock
  callback := h'.callback.trans h.callback
  storage := Nat.le_trans h'.storage (Nat.add_le_add_right h.storage _)

/-- All bytes there are are taken for a message. -/
theorem wp_takeAll {n : Nat} (hv : (w.conns c).readBuff_.Valid)
    (hn : n = (w.conns c).readBuff_.readableBytes) (hmax : n < 2 ^ 31) :
    wp (takeFrame c n)
      (fun buffer w' => buffer.Valid ∧ buffer.readable = (w.conns c).readBuff_.readable ∧
        ∃ b, b.Valid ∧ b.readable = [] ∧ b.buffer_ = (w.conns c).readBuff_.buffer_ ∧
        w' = (w.setConn c { w.conns c with readBuff_ := b }).log c
          (.msgCommit (w.conns c).readBuff_.readable))
      (fun _ _ => False) w := by
  have hsize : toSize (n : Int) = n := by
    have hmod : (sizeModulus : Int) = 2 ^ 64 := by decide
    rw [toSize_of_nonneg (by omega) (by omega)]
    exact Int.toNat_natCast n
  have hvec : vectorMaxSize = 2 ^ 63 - 1 := rfl
  have hfit : XBuffer.kDiscardableSize + n ≤ vectorMaxSize := by
    have hhead : XBuffer.kDiscardableSize = 4 := rfl
    omega
  have hall : (w.conns c).readBuff_.readable.length = n := by
    rw [hv.length_readable, hn]
  have hpeek : n ≤ (w.conns c).readBuff_.peek.length := by
    have := hv.readableBytes_eq
    have := hv.writer_le_size
    simp only [XBuffer.peek, List.length_drop]
    omega
  obtain ⟨buffer, happend, hread⟩ := commitBuffer_eq hv (Nat.le_of_eq hn) hmax
  have hbuffer : buffer.Valid := by
    have hok := happend
    rw [XBuffer.appendMem_eq_append hpeek] at hok
    exact (XBuffer.append_ok (XBuffer.valid_fresh hfit) hok).1
  obtain ⟨b, hmove, hv', hrest, hstorage⟩ := XBuffer.moveOver_spec hv (Nat.le_of_eq hn)
  rw [List.take_of_length_le (Nat.le_of_eq hall)] at hread
  rw [List.drop_of_length_le (Nat.le_of_eq hall)] at hrest
  unfold takeFrame
  rw [hsize, wp_bind, XBuffer.new_eq hfit, wp_lift_ok, wp_bind, wp_get, wp_bind, happend,
    wp_lift_ok, wp_bind, wp_onReadBuff, hmove]
  dsimp only
  rw [wp_bind, wp_emit, hread]
  exact ⟨hbuffer, hread, b, hv', hrest, hstorage, rfl⟩

/-- A message that takes all bytes there are is committed and sent back. -/
theorem wp_commitAll (hv : (w.conns c).readBuff_.Valid)
    (hx : (w.conns c).readBuff_.readable = x) (hmax : x.length < 2 ^ 31)
    (hstatus : (w.conns c).connStatus_ = XF_CONN_STATUS_CONNECTED) (hroom : Room c x w) :
    wp (takeFrame c x.length)
      (fun buffer => wp (commit callbacks c buffer) (fun _ => Returned c x w)
        (fun e _ => ¬isException e))
      (fun _ _ => False) w := by
  have hn : x.length = (w.conns c).readBuff_.readableBytes := by rw [← hx, hv.length_readable]
  refine wp_mono (fun buffer w₁ h => ?_) (fun _ _ hno => hno) (wp_takeAll hv hn hmax)
  obtain ⟨hbuffer, hread, b, hb, hnil, hstorage, rfl⟩ := h
  rw [hx] at hread
  generalize hw₁ : (w.setConn c { w.conns c with readBuff_ := b }).log c
    (.msgCommit (w.conns c).readBuff_.readable) = w₁
  have hconn : w₁.conns c = { w.conns c with readBuff_ := b } := by
    rw [← hw₁, World.log_conns, World.setConn_self]
  have happended : appendedStream (w₁.trace c) = appendedStream (w.trace c) := by
    rw [← hw₁, World.log_self, World.setConn_trace, appendedStream_snoc]
    exact List.append_nil _
  have hcommits : committed (w₁.trace c) = committed (w.trace c) ++ [x] := by
    rw [← hw₁, World.log_self, World.setConn_trace, committed_snoc_msgCommit, hx]
  have hloop : w₁.loop = w.loop := by
    rw [← hw₁]
    rfl
  have hroom₁ : Room c buffer.readable w₁ := by
    rw [hread, Room, hconn]
    exact hroom
  have hsends := sends_msgCommitCb (w := w₁) hbuffer (by rw [hconn]; exact hstatus) hroom₁
  rw [hread] at hsends
  unfold commit
  rw [wp_bind]
  refine wp_mono (fun _ w₂ h => ?_) (fun _ _ h => h) hsends
  rw [wp_bind, wp_get, wp_emit]
  have hlog := h.log (.commitReturn (w₂.conns c).readBuff_.readableBytes) rfl (by simp)
  have hbuff := hlog.readBuff
  rw [hconn] at hbuff
  refine ⟨?_, ?_, ?_, ?_, ?_, ?_, ?_, ?_, ?_, ?_⟩
  · rw [hlog.appended, happended]
  · rw [hlog.commits, hcommits, List.flatten_append, List.flatten_singleton]
  · rw [hbuff]
    exact hb
  · rw [hbuff]
    exact hnil
  · rw [hbuff]
    exact congrArg List.length hstorage
  · rw [hlog.decodeCb, hconn]
  · rw [hlog.connStatus, hconn]
  · rw [hlog.sock, hconn]
  · rw [hlog.callback, hloop]
  · have hlength := hlog.storage
    rw [hconn] at hlength
    exact hlength

/-- The decoder of `xClient` says that all bytes are one message. -/
theorem wp_decodeAll (hmax : (w.conns c).readBuff_.readableBytes < 2 ^ 31) :
    wp (decode callbacks c (toInt32 (w.conns c).readBuff_.readableBytes))
      (fun ret w' => ret = (w.conns c).readBuff_.readableBytes ∧
        w' = (w.log c .decode).log c (.decodeReturn ret))
      (fun _ _ => False) w := by
  have hint : toInt32 (w.conns c).readBuff_.readableBytes =
      (w.conns c).readBuff_.readableBytes := toInt32_of_range (by omega) (by omega)
  unfold decode
  rw [wp_bind, wp_emit, wp_bind, wp_get, wp_bind]
  show wp (pure _) _ _ _
  rw [wp_pure, wp_bind, wp_emit, wp_pure, hint, hint]
  exact ⟨rfl, rfl⟩

/-- The parse loop commits everything at once, and then nothing is left. -/
theorem wp_parseLoop {fuel : Nat} (hfuel : 1 < fuel) (hv : (w.conns c).readBuff_.Valid)
    (hx : (w.conns c).readBuff_.readable = x) (hpos : 0 < x.length) (hmax : x.length < 2 ^ 31)
    (hstatus : (w.conns c).connStatus_ = XF_CONN_STATUS_CONNECTED) (hroom : Room c x w) :
    wp (parseLoop callbacks c fuel) (fun _ => Returned c x w) (fun e _ => ¬isException e) w := by
  obtain ⟨k, rfl⟩ : ∃ k, fuel = k + 1 := ⟨fuel - 1, by omega⟩
  have hlen := hv.length_readable
  rw [hx] at hlen
  have hdecode := wp_decodeAll (c := c) (w := w) (by rw [← hlen]; exact hmax)
  have hcommit : ∀ w₁ : World σ, w₁.conns = w.conns → wp (takeFrame c x.length)
      (fun buffer => wp (commit callbacks c buffer) (fun _ => Returned c x w₁)
        (fun e _ => ¬isException e))
      (fun _ _ => False) w₁ := by
    intro w₁ hconn
    exact wp_commitAll (by rw [hconn]; exact hv) (by rw [hconn]; exact hx) hmax
      (by rw [hconn]; exact hstatus) (by rw [Room, hconn]; exact hroom)
  have hint : toInt32 (w.conns c).readBuff_.readableBytes = x.length := by
    rw [← hlen]
    exact toInt32_of_range (by omega) (by omega)
  -- nothing else of the callbacks matters
  generalize (callbacks : Callbacks σ) = cbs at hdecode hcommit ⊢
  have hsome : (w.conns c).readBuff_.readableBytes ≠ 0 := by omega
  unfold parseLoop
  rw [wp_bind, wp_get, wp_ite, if_neg hsome]
  dsimp only
  rw [wp_bind]
  refine wp_mono (fun ret w₁ h => ?_) (fun _ _ hno => hno.elim) hdecode
  obtain ⟨hret, rfl⟩ := h
  rw [← hlen] at hret
  rw [wp_ite, if_neg (by rw [hret, XF_MSG_DECODE_ERR]; omega), wp_ite,
    if_neg (by rw [hret, XF_MSG_DECODE_NOT_ENOUGH]; omega), hint, if_neg (by omega), wp_bind, hret]
  -- asking the decoder has changed nothing but the log
  have hsame : Sends c [] w ((w.log c .decode).log c (.decodeReturn x.length)) :=
    ((Sends.refl w).log _ rfl (by simp)).log _ rfl (by simp)
  have hconn : ((w.log c .decode).log c (.decodeReturn x.length)).conns = w.conns := rfl
  generalize (w.log c .decode).log c (.decodeReturn x.length) = w₁ at hsame hconn
  refine wp_mono (fun buffer w₂ h => ?_) (fun _ _ hno => hno.elim) (hcommit w₁ hconn)
  rw [wp_bind]
  refine wp_mono (fun _ w₃ h => ?_) (fun _ _ h => h) h
  have hzero : (w₃.conns c).readBuff_.readableBytes = 0 := by
    rw [← h.valid.length_readable, h.readable, List.length_nil]
  obtain ⟨n, rfl⟩ : ∃ n, k = n + 1 := ⟨k - 1, by omega⟩
  unfold parseLoop
  rw [wp_bind, wp_get, wp_ite, if_pos hzero, wp_pure]
  exact h.after hsame

/-- What reading from the socket leaves alone. -/
structure ReadsOnly (c : ConnId) (w w' : World σ) : Prop where
  connStatus : (w'.conns c).connStatus_ = (w.conns c).connStatus_
  sock : (w'.conns c).sock_ = (w.conns c).sock_
  writeBuff : (w'.conns c).writeBuff_ = (w.conns c).writeBuff_
  callback : w'.loop.callbackOf = w.loop.callbackOf

theorem commitContract_quiet (fd : Fd) (w : World σ) :
    CommitContract (ReadsOnly c w) False c fd quiet where
  ignoresInput :=
    { script := fun _ _ h => ⟨h.connStatus, h.sock, h.writeBuff, h.callback⟩
      reads := fun _ _ h => ⟨h.connStatus, h.sock, h.writeBuff, h.callback⟩
      errno := fun _ _ h => ⟨h.connStatus, h.sock, h.writeBuff, h.callback⟩
      readBuff := fun w' b h => by
        constructor <;> simp only [World.setConn_self, World.setConn_loop]
        · exact h.connStatus
        · exact h.sock
        · exact h.writeBuff
        · exact h.callback }
  emit _ _ _ h := ⟨h.connStatus, h.sock, h.writeBuff, h.callback⟩
  returns _ _ h := ⟨h, ⟨rfl, rfl, rfl, rfl, rfl⟩⟩

/-! ## Section 4: The invariant -/

/-- What has been delivered has been committed, and sent back behind `hello`
    for as long as the connection was connected. -/
structure Echoes (c : ConnId) (fd : Fd) (delivered : List UInt8) (w : World σ) : Prop where
  valid : (w.conns c).readBuff_.Valid
  readable : (w.conns c).readBuff_.readable = []
  readStorage : (w.conns c).readBuff_.buffer_.length ≤ 1024 + delivered.length
  decodeCb : (w.conns c).decodeCb_ = true
  sock : (w.conns c).sock_ = fd
  commits : (committed (w.trace c)).flatten = delivered
  sent : appendedStream (w.trace c) <+: hello ++ delivered
  returned : (w.conns c).connStatus_ = XF_CONN_STATUS_CONNECTED →
    appendedStream (w.trace c) = hello ++ delivered
  registered : w.loop.callbackOf fd = some (.connHandleEvent c) →
    (w.conns c).connStatus_ = XF_CONN_STATUS_CONNECTED
  fresh : (w.conns c).connStatus_ = XF_CONN_STATUS_CONNECTING →
    appendedStream (w.trace c) = [] ∧ delivered = []
  storage : (w.conns c).writeBuff_.buffer_.length ≤ 1024 + (appendedStream (w.trace c)).length

variable {fd : Fd} {delivered : List UInt8}

/-- A step that appends nothing. -/
theorem Echoes.sends (h : Echoes c fd delivered w) (hsends : Sends c [] w w') :
    Echoes c fd delivered w' := by
  have happended : appendedStream (w'.trace c) = appendedStream (w.trace c) := by
    rw [hsends.appended, List.append_nil]
  constructor
  · rw [hsends.readBuff]; exact h.valid
  · rw [hsends.readBuff]; exact h.readable
  · rw [hsends.readBuff]; exact h.readStorage
  · rw [hsends.decodeCb]; exact h.decodeCb
  · rw [hsends.sock]; exact h.sock
  · rw [hsends.commits]; exact h.commits
  · rw [happended]; exact h.sent
  · rw [happended, hsends.connStatus]; exact h.returned
  · rw [hsends.callback, hsends.connStatus]; exact h.registered
  · rw [happended, hsends.connStatus]; exact h.fresh
  · rw [happended]; exact Nat.le_trans hsends.storage h.storage

/-- `x` is read, committed and sent back. -/
theorem Echoes.event (h : Echoes c fd delivered w)
    (hstatus : (w.conns c).connStatus_ = XF_CONN_STATUS_CONNECTED) {w₁ : World σ}
    (honly : ReadsOnly c w w₁) (hrec : Receiving c fd w₁) (htrace : w₁.trace = w.trace)
    (hlength : (w₁.conns c).readBuff_.buffer_.length ≤
      (w.conns c).readBuff_.buffer_.length + x.length) (hreturned : Returned c x w₁ w') :
    Echoes c fd (delivered ++ x) w' := by
  have happended : appendedStream (w'.trace c) = hello ++ (delivered ++ x) := by
    rw [hreturned.appended, htrace, h.returned hstatus, List.append_assoc]
  have hstatus' : (w'.conns c).connStatus_ = XF_CONN_STATUS_CONNECTED := by
    rw [hreturned.connStatus, honly.connStatus, hstatus]
  refine ⟨hreturned.valid, hreturned.readable, ?_, ?_, ?_, ?_, ?_, fun _ => happended,
    fun _ => hstatus', fun hnew => ?_, ?_⟩
  · have := h.readStorage
    rw [hreturned.readStorage, List.length_append]
    omega
  · rw [hreturned.decodeCb, hrec.decodeCb]
  · rw [hreturned.sock, honly.sock, h.sock]
  · rw [hreturned.commits, htrace, h.commits]
  · exact happended.symm ▸ List.prefix_refl _
  · exact nomatch hstatus'.symm.trans hnew
  · have hwrite := hreturned.storage
    have := h.storage
    rw [honly.writeBuff] at hwrite
    rw [hreturned.appended, htrace, List.length_append]
    omega

/-- There is room for what comes next, unless very much has been delivered. -/
theorem Echoes.room (h : Echoes c fd delivered w) (hv : (w.conns c).writeBuff_.Valid)
    (hbound : delivered.length + x.length < 2 ^ 62) : Room c x w := by
  have hmax : vectorMaxSize = 2 ^ 63 - 1 := rfl
  have hhello : hello.length = 5 := rfl
  have hsent := h.sent.length_le
  have hstorage := h.storage
  rw [List.length_append] at hsent
  exact ⟨hv, by omega⟩

/-- One call of `readMsg` that reads `chunks` until `EAGAIN`. -/
theorem wp_readMsg {fuel : Nat} (hfuel : 1 < fuel) {chunks : List (List UInt8)}
    {rest : List (List ReadvResult)} (hreads : w.reads = readsOf chunks (.fail .EAGAIN) :: rest)
    (hne : ∀ d ∈ chunks, d ≠ []) (hmax : chunks.flatten.length < 2 ^ 31)
    (hbound : delivered.length + chunks.flatten.length < 2 ^ 62)
    (h : Echoes c fd delivered w) (hv : (w.conns c).writeBuff_.Valid)
    (hcallback : w.loop.callbackOf fd = some (.connHandleEvent c)) :
    wp (readMsg callbacks fuel c)
      (fun ret w' => 0 ≤ ret ∧ Echoes c fd (delivered ++ chunks.flatten) w')
      (fun e _ => ¬isException e) w := by
  have hstatus := h.registered hcallback
  have hvec : vectorMaxSize = 2 ^ 63 - 1 := rfl
  have hstorage := h.readStorage
  have hread := wp_readAvailable_chunks (commitContract_quiet fd w) ⟨rfl, rfl, rfl, rfl⟩
    ⟨h.valid, h.decodeCb, hcallback⟩ hreads hne hmax (by omega)
  unfold readMsg
  rw [wp_bind]
  refine wp_mono (fun _ w₁ hout => ?_) (fun e _ hout => ?_) hread
  · obtain ⟨rfl, honly, hrec, _, htrace, hreadable, hlength⟩ := hout
    rw [h.readable, List.nil_append] at hreadable
    dsimp only
    rw [wp_ite]
    split
    · rename_i hpos
      have hroom : Room c chunks.flatten w₁ := by
        rw [Room, honly.writeBuff]
        exact h.room hv hbound
      have hloop := wp_parseLoop hfuel hrec.valid hreadable (by omega) hmax
        (honly.connStatus.trans hstatus) hroom
      unfold parseProtocol
      rw [wp_bind, wp_bind, wp_get, wp_ite, if_pos hrec.decodeCb, wp_catching]
      refine wp_mono (fun _ w₂ hreturned => ?_) (fun e _ hnot => ?_) hloop
      · rw [wp_pure]
        exact ⟨by omega, h.event hstatus honly hrec htrace hlength hreturned⟩
      · rw [if_neg hnot]
        exact hnot
    · -- nothing was read: nothing is parsed
      rename_i hzero
      have hnil : chunks.flatten = [] := List.eq_nil_of_length_eq_zero (by omega)
      rw [hnil] at hreadable hlength
      have hreturned : Returned c [] w₁ w₁ :=
        ⟨(List.append_nil _).symm, (List.append_nil _).symm, hrec.valid, hreadable, rfl, rfl, rfl,
          rfl, rfl, Nat.le_refl _⟩
      rw [wp_pure, hnil]
      exact ⟨by omega, h.event hstatus honly hrec htrace hlength hreturned⟩
  · rw [hout.1]
    decide

/-- The registration goes, and nothing is sent any more. -/
theorem echoes_closeConn :
    Maintains (fun _ => False) (Echoes c fd delivered : World σ → Prop) (closeConn callbacks c) := by
  have hbegin : Maintains (fun _ => False) (Echoes c fd delivered : World σ → Prop)
      (beginClose c) := by
    intro w h
    unfold beginClose
    rw [wp_bind, wp_get, wp_ite]
    split
    · exact h
    · rw [wp_bind, wp_modify, wp_bind, wp_onLoop]
      split
      · rename_i loop hremove
        have hgone : loop.callbackOf fd = none := by
          rw [XLoop.remove_callbackOf hremove fd, if_pos h.sock.symm]
        generalize hw₁ : ({ w.setConn c { w.conns c with
            connStatus_ := XF_CONN_STATUS_DISCONNECTING } with loop := loop } : World σ) = w₁
        have hconn : w₁.conns c = { w.conns c with
            connStatus_ := XF_CONN_STATUS_DISCONNECTING } := by
          rw [← hw₁]
          exact World.setConn_self ..
        have htrace : w₁.trace = w.trace := by
          rw [← hw₁]
          rfl
        have hclosed : Echoes c fd delivered w₁ := by
          constructor
          · rw [hconn]; exact h.valid
          · rw [hconn]; exact h.readable
          · rw [hconn]; exact h.readStorage
          · rw [hconn]; exact h.decodeCb
          · rw [hconn]; exact h.sock
          · rw [htrace]; exact h.commits
          · rw [htrace]; exact h.sent
          · rw [hconn]; exact nofun
          · rw [← hw₁]; exact fun hcb => by rw [hgone] at hcb; cases hcb
          · rw [hconn]; exact nofun
          · rw [hconn, htrace]; exact h.storage
        rw [wp_ite]
        split
        · rw [wp_bind, wp_emit, wp_pure]
          exact hclosed.sends ((Sends.refl w₁).log .connClose rfl (by simp))
        · rw [wp_pure]
          exact hclosed
      · exact fun hno => hno.elim
  refine hbegin.bind fun call => Maintains.ite (fun w h => ?_) (Maintains.pure ())
  rw [wp_catching]
  exact h

theorem echoes_handleWritable (emask : Mask) :
    Maintains (fun _ => False) (Echoes c fd delivered : World σ → Prop)
      (handleWritable callbacks c emask) := by
  have hsend : Maintains (fun _ => False) (Echoes c fd delivered : World σ → Prop)
      (sendMsg callbacks c) := by
    intro w h
    have hkeeps : Maintains (fun _ => False) (Sends c [] w) (sendMsg callbacks c) :=
      sends_sendMsg fun _ => rfl
    exact wp_mono (fun _ _ hsends => h.sends hsends) (fun _ _ _ hno => hno.elim)
      (hkeeps w (Sends.refl w))
  exact Maintains.ite (hsend.bind fun ret => Maintains.ite echoes_closeConn (Maintains.pure ()))
    (Maintains.pure ())

/-- A readable event, with or without the writable one. -/
theorem wp_dispatch_read {fuel : Nat} (hfuel : 1 < fuel) {chunks : List (List UInt8)}
    {rest : List (List ReadvResult)} (hreads : w.reads = readsOf chunks (.fail .EAGAIN) :: rest)
    (hne : ∀ d ∈ chunks, d ≠ []) (hmax : chunks.flatten.length < 2 ^ 31)
    (hbound : delivered.length + chunks.flatten.length < 2 ^ 62)
    (h : Echoes c fd delivered w) (hv : (w.conns c).writeBuff_.Valid)
    (hcallback : w.loop.callbackOf fd = some (.connHandleEvent c)) {emask : Mask}
    (hmask : emask = XE_READABLE ∨ emask = XE_READABLE ||| XE_WRITABLE) :
    wp (dispatch callbacks fuel c fd emask)
      (fun _ => Echoes c fd (delivered ++ chunks.flatten)) (fun _ _ => True) w := by
  have hhealthy : ¬(emask &&& XE_ERROR ≠ 0 ∨ emask &&& XE_HUP ≠ 0) := by
    rcases hmask with rfl | rfl <;> decide
  have hreadable : emask &&& XE_READABLE ≠ 0 := by
    rcases hmask with rfl | rfl <;> decide
  unfold dispatch HandleEvent
  rw [wp_bind, wp_get, wp_ite, if_pos hcallback, wp_ite, if_neg hhealthy, wp_ite,
    if_pos hreadable, wp_bind]
  refine wp_mono (fun ret w₁ hout => ?_) (fun _ _ _ => trivial)
    (wp_readMsg hfuel hreads hne hmax hbound h hv hcallback)
  obtain ⟨hret, hechoes⟩ := hout
  rw [wp_ite, if_neg (by omega)]
  exact wp_mono (fun _ _ h => h) (fun _ _ _ => trivial) (echoes_handleWritable emask w₁ hechoes)

/-- Any event without the readable one. -/
theorem echoes_dispatch {fuel : Nat} {emask : Mask} (hmask : emask &&& XE_READABLE = 0) :
    Maintains (fun _ => False) (Echoes c fd delivered : World σ → Prop)
      (dispatch callbacks fuel c fd emask) := by
  refine Maintains.get.bind fun w => Maintains.ite ?_ (Maintains.pure ())
  refine Maintains.ite echoes_closeConn fun w h => ?_
  rw [wp_ite, if_neg (not_not.mpr hmask)]
  exact echoes_handleWritable emask w h

/-- The greeting. -/
theorem wp_makeConnected (h : Echoes c fd delivered w) (hv : (w.conns c).writeBuff_.Valid)
    (hstatus : (w.conns c).connStatus_ = XF_CONN_STATUS_CONNECTING) :
    wp (makeConnected callbacks c) (fun _ => Echoes c fd delivered) (fun _ _ => True) w := by
  obtain ⟨hnone, hnothing⟩ := h.fresh hstatus
  unfold makeConnected beginConnected
  rw [wp_bind, wp_bind, wp_get, wp_bind, wp_modify, wp_bind, wp_onLoop]
  split
  · rename_i loop hreg
    rw [wp_emit]
    generalize hw₁ : ({ w.setConn c { w.conns c with connStatus_ := XF_CONN_STATUS_CONNECTED } with
      loop := loop } : World σ).log c .connFinish = w₁
    have hconn : w₁.conns c = { w.conns c with connStatus_ := XF_CONN_STATUS_CONNECTED } := by
      rw [← hw₁]
      exact World.setConn_self ..
    have happended : appendedStream (w₁.trace c) = [] := by
      rw [← hw₁, World.log_self, appendedStream_snoc]
      exact (List.append_nil _).trans hnone
    have hcommits : committed (w₁.trace c) = committed (w.trace c) := by
      rw [← hw₁, World.log_self, committed_snoc_other _ (by simp)]
      rfl
    have hroom : Room c hello w₁ := by
      have hstorage := h.storage
      have hmax : vectorMaxSize = 2 ^ 63 - 1 := rfl
      have hhello : hello.length = 5 := rfl
      rw [hnone, List.length_nil] at hstorage
      refine ⟨by rw [hconn]; exact hv, ?_⟩
      rw [hconn]
      show (w.conns c).writeBuff_.buffer_.length + hello.length ≤ vectorMaxSize
      omega
    show wp (catching isException (sendMsgString quiet c hello) (pure ())) _ _ w₁
    rw [wp_catching]
    have hdone : ∀ w' : World σ, Sends c hello w₁ w' → Echoes c fd delivered w' := by
      intro w' hsends
      have hall : appendedStream (w'.trace c) = hello ++ delivered := by
        rw [hsends.appended, happended, hnothing, List.append_nil, List.nil_append]
      have hstatus' : (w'.conns c).connStatus_ = XF_CONN_STATUS_CONNECTED := by
        rw [hsends.connStatus, hconn]
      refine ⟨?_, ?_, ?_, ?_, ?_, ?_, ?_, fun _ => hall, fun _ => hstatus', fun hnew => ?_, ?_⟩
      · rw [hsends.readBuff, hconn]; exact h.valid
      · rw [hsends.readBuff, hconn]; exact h.readable
      · rw [hsends.readBuff, hconn]; exact h.readStorage
      · rw [hsends.decodeCb, hconn]; exact h.decodeCb
      · rw [hsends.sock, hconn]; exact h.sock
      · rw [hsends.commits, hcommits]; exact h.commits
      · exact hall.symm ▸ List.prefix_refl _
      · exact nomatch hstatus'.symm.trans hnew
      · have hwrite := hsends.storage
        have hold := h.storage
        rw [hconn] at hwrite
        rw [hnone] at hold
        rw [hsends.appended, happended, List.nil_append]
        exact Nat.le_trans hwrite (Nat.add_le_add_right hold _)
    refine wp_mono (fun _ w' hsends => hdone w' hsends) (fun e w' hsends => ?_)
      (sends_sendMsgString (by rw [hconn]) hroom)
    split
    · rename_i hcaught
      exact hdone w' (hsends (eq_of_isException hcaught))
    · trivial
  · trivial

/-- Before the connection is made. -/
theorem echoes_initial (hinit : Initial c w) (hsock : (w.conns c).sock_ = fd)
    (hdecode : (w.conns c).decodeCb_ = true) : Echoes c fd [] w := by
  obtain ⟨sock, sentBytesCb, decodeCb, connCloseCb, hnew⟩ := hinit.constructed
  rw [XConnection.new_eq, Except.ok.injEq] at hnew
  have hnone : appendedStream (w.trace c) = [] := by
    rw [hinit.no_trace]
    rfl
  refine ⟨?_, ?_, ?_, hdecode, hsock, ?_, ?_, ?_, ?_, fun _ => ⟨hnone, rfl⟩, ?_⟩
  · rw [← hnew]
    exact XBuffer.valid_fresh (by decide)
  · rw [← hnew]
    exact XBuffer.readable_fresh XBuffer.kInitialSize
  · rw [← hnew]
    exact Nat.le_of_eq (XBuffer.length_fresh _)
  · rw [hinit.no_trace]
    rfl
  · rw [hnone]
    exact List.nil_prefix
  · rw [← hnew]
    exact nofun
  · exact fun hcb => absurd hcb (hinit.not_registered fd)
  · rw [← hnew, hnone]
    exact Nat.le_of_eq (XBuffer.length_fresh _)

/-! ## Section 5: The account of the stream -/

/-- What sending keeps, the callbacks keep. -/
theorem keepCallbacks {I : World σ → Prop} (hlive : live .exception)
    (hsend : ∀ msg, Maintains live I (sendMsgToBuffer quiet c msg)) :
    KeepCallbacks live I c callbacks where
  decodeCb _ _ := Maintains.pure _
  msgCommitCb buffer := by
    refine Maintains.catching (caught_live hlive) ?_ (Maintains.pure ())
    refine Maintains.get.bind fun w => Maintains.ite (Maintains.pure ()) ?_
    exact (Maintains.lift _).bind fun msg => sendMsgString_maintains hsend msg
  sentBytesCb _ := Maintains.pure ()
  connCloseCb := Maintains.pure ()
  connFinishCb := Maintains.catching (caught_live hlive) (sendMsgString_maintains hsend hello)
    (Maintains.pure ())

theorem keepCallbacks_quiet {I : World σ → Prop} : KeepCallbacks live I c quiet :=
  ⟨fun _ _ => Maintains.pure _, fun _ => Maintains.pure (), fun _ => Maintains.pure (),
    Maintains.pure (), Maintains.pure ()⟩

/-- The account of what was appended, and that the trace only grows. -/
structure Accounts (c : ConnId) (p : LoopM σ Unit) : Prop where
  stream : Maintains (fun _ => True) (StreamInv c) p
  trace : ∀ es, Maintains (fun _ => True) (Ends.TraceFrom c es) p

theorem keepCallbacks_stream :
    KeepCallbacks (fun _ => True) (StreamInv c : World σ → Prop) c callbacks := by
  have hquiet : KeepParts (fun _ => True) (StreamInv c : World σ → Prop) 0 c quiet :=
    streamInv_parts trivial keepCallbacks_quiet
  exact keepCallbacks trivial hquiet.sendMsgToBuffer

theorem keepCallbacks_trace (es : List ConnEvent) :
    KeepCallbacks (fun _ => True) (Ends.TraceFrom c es : World σ → Prop) c callbacks := by
  have hquiet : KeepParts (fun _ => True) (Ends.TraceFrom c es : World σ → Prop) 0 c quiet :=
    Ends.traceFrom_parts trivial keepCallbacks_quiet
  exact keepCallbacks trivial hquiet.sendMsgToBuffer

theorem accounts_makeConnected : Accounts c (makeConnected callbacks c : LoopM σ Unit) where
  stream := streamInv_beginConnected.bind fun _ => keepCallbacks_stream.connFinishCb
  trace es := (beginConnected_maintains (Ends.traceFrom_ignoresState es)).bind
    fun _ => (keepCallbacks_trace es).connFinishCb

theorem accounts_dispatch (fuel : Nat) (fd : Fd) (emask : Mask) :
    Accounts c (dispatch callbacks fuel c fd emask : LoopM σ Unit) where
  stream := (streamInv_parts trivial keepCallbacks_stream).dispatch fd emask
  trace es := (Ends.traceFrom_parts trivial (keepCallbacks_trace es)).dispatch fd emask

end RollbackClient

end XFast
