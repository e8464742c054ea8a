import XFast.Net.ConnectionRules

/-! # The send stream

    What the kernel has taken from a connection so far, followed by what is
    still pending in `writeBuff_`, against what was appended.

    `sendMsg` moves over the count that `writeFd` returns, and moves over
    nothing when `writeFd` returns -1.  The invariant is therefore about the
    bytes that were moved over; the bytes that the kernel took are those and,
    besides, the bytes taken by a call of `writeFd` that failed later on. -/

namespace XFast

open Program FileApi XConnStatus

variable {σ : Type}

/-! ## Section 1: Streams of a trace -/

namespace ConnEvent

/-- The bytes that an event appends to the backlog. -/
def appendedBytes : ConnEvent → List UInt8
  | .append msg => msg
  | _ => []

/-- The bytes that the kernel takes in an event. -/
def acceptedBytes : ConnEvent → List UInt8
  | .flush _ _ bytes => bytes
  | _ => []

/-- The bytes that `sendMsg` moves over after an event. -/
def movedBytes : ConnEvent → List UInt8
  | .flush _ outs bytes => if Fails outs then [] else bytes
  | _ => []

end ConnEvent

/-- Everything appended so far. -/
def appendedStream (es : List ConnEvent) : List UInt8 := es.flatMap ConnEvent.appendedBytes

/-- Everything the kernel has taken so far. -/
def acceptedStream (es : List ConnEvent) : List UInt8 := es.flatMap ConnEvent.acceptedBytes

/-- Everything that `sendMsg` has moved over so far. -/
def movedStream (es : List ConnEvent) : List UInt8 := es.flatMap ConnEvent.movedBytes

/-- One call of `writeFd` in which a `::write` takes bytes and a later one
    fails. -/
def FailsAfterTaking (outs : List WriteOutcome) : Prop := Fails outs ∧ 0 < taken outs

instance (outs : List WriteOutcome) : Decidable (FailsAfterTaking outs) :=
  inferInstanceAs (Decidable (_ ∧ _))

/-- When `g` gives for each element what `f` gives or nothing, the two
    concatenations agree only if `g` never drops anything. -/
theorem flatMap_eq_iff_of_drops {α β : Type} {f g : α → List β}
    (h : ∀ a, g a = f a ∨ g a = []) (as : List α) :
    as.flatMap g = as.flatMap f ↔ ∀ a ∈ as, g a = f a := by
  have hle : ∀ a, (g a).length ≤ (f a).length := by
    intro a
    rcases h a with ha | ha <;> simp [ha]
  have hlen : ∀ as : List α, (as.flatMap g).length ≤ (as.flatMap f).length := by
    intro as
    induction as with
    | nil => simp
    | cons a as ih =>
      have ha := hle a
      simp only [List.flatMap_cons, List.length_append]
      omega
  induction as with
  | nil => simp
  | cons a as ih =>
    simp only [List.flatMap_cons, List.forall_mem_cons]
    constructor
    · intro heq
      -- the lengths leave no room: the heads are equally long, so nothing was dropped
      have hlengths := congrArg List.length heq
      have htail := hlen as
      have hhead := hle a
      simp only [List.length_append] at hlengths
      have hga : g a = f a := by
        rcases h a with ha | ha
        · exact ha
        · have hfa : (f a).length = 0 := by rw [ha, List.length_nil] at hlengths; omega
          rw [ha, List.length_eq_zero_iff.mp hfa]
      rw [hga] at heq
      exact ⟨hga, ih.mp (List.append_cancel_left heq)⟩
    · intro hboth
      obtain ⟨hga, htail⟩ := hboth
      rw [hga, ih.mpr htail]

/-- Nothing was taken beyond what was moved over, unless a call failed after
    taking bytes. -/
theorem movedStream_eq_iff {es : List ConnEvent}
    (hcount : ∀ we outs bytes, .flush we outs bytes ∈ es → bytes.length = taken outs) :
    movedStream es = acceptedStream es ↔
      ∀ we outs bytes, .flush we outs bytes ∈ es → ¬ FailsAfterTaking outs := by
  have hdrops : ∀ e : ConnEvent, e.movedBytes = e.acceptedBytes ∨ e.movedBytes = [] := by
    intro e
    cases e with
    | flush we outs bytes =>
      by_cases hf : Fails outs
      · exact Or.inr (if_pos hf)
      · exact Or.inl (if_neg hf)
    | _ => exact Or.inl rfl
  have hiff := flatMap_eq_iff_of_drops hdrops es
  constructor
  · intro heq we outs bytes hmem hboth
    obtain ⟨hf, hpos⟩ := hboth
    have hbytes : (if Fails outs then [] else bytes) = bytes := hiff.mp heq _ hmem
    rw [if_pos hf] at hbytes
    have hlen := hcount we outs bytes hmem
    rw [← hbytes, List.length_nil] at hlen
    omega
  · intro hno
    apply hiff.mpr
    intro e hmem
    cases e with
    | flush we outs bytes =>
      show (if Fails outs then [] else bytes) = bytes
      by_cases hf : Fails outs
      · rw [if_pos hf]
        have hzero : taken outs = 0 := by
          by_contra hne
          exact hno we outs bytes hmem ⟨hf, Nat.pos_of_ne_zero hne⟩
        have hlen := hcount we outs bytes hmem
        rw [hzero] at hlen
        exact (List.length_eq_zero_iff.mp hlen).symm
      · rw [if_neg hf]
    | _ => rfl

@[simp] theorem appendedStream_snoc (es : List ConnEvent) (e : ConnEvent) :
    appendedStream (es ++ [e]) = appendedStream es ++ e.appendedBytes := by
  simp [appendedStream]

@[simp] theorem movedStream_snoc (es : List ConnEvent) (e : ConnEvent) :
    movedStream (es ++ [e]) = movedStream es ++ e.movedBytes := by
  simp [movedStream]

/-! ## Section 2: One call of `writeFd` -/

/-- Without a `::write` that returns 0, either `writeFd` returns -1, or the
    count it returns is the number of pending bytes that were taken. -/
theorem writeFd_pending {b : XBuffer} (hv : b.Valid) {outs : List WriteOutcome}
    {r : WriteResult} (hzero : .zero ∉ outs)
    (h : FileApi.writeFd outs b.peek (toInt32 b.readableBytes) = .ok r) :
    r.accepted.length = taken outs ∧
      ((Fails outs ∧ r.ret = -1) ∨
        (¬ Fails outs ∧ taken outs ≤ b.readableBytes ∧
          r.accepted = b.readable.take (taken outs) ∧ toSize r.ret = taken outs ∧ 0 ≤ r.ret)) := by
  obtain ⟨hle, hacc, hend⟩ := writeFd_spec h
  have hlen : r.accepted.length = taken outs := by
    rw [hacc, List.length_take]
    exact Nat.min_eq_left hle
  cases hend with
  | done hf _ hcount hret =>
    have hmax := toInt32_lt b.readableBytes
    have hnat := toInt32_le (Int.natCast_nonneg b.readableBytes)
    have htaken : (taken outs : Int) = toInt32 b.readableBytes := by omega
    have hle' : taken outs ≤ b.readableBytes := by omega
    have hval : r.ret = taken outs := by
      rw [hret, ← htaken]
      exact toInt32_of_range (by omega) (by omega)
    have hsize : toSize r.ret = taken outs := by
      have hmod : (sizeModulus : Int) = 2 ^ 64 := by decide
      rw [hval, toSize_of_nonneg (by omega) (by omega)]
      exact Int.toNat_natCast _
    exact ⟨hlen, Or.inr ⟨hf, hle', by rw [hacc, hv.take_peek hle'], hsize, by omega⟩⟩
  | zero _ hz _ => exact absurd hz hzero
  | failed e hf _ hret _ => exact ⟨hlen, Or.inl ⟨⟨e, hf⟩, hret⟩⟩

namespace XConnection

/-! ## Section 3: The invariant -/

/-- What was moved over and what is pending make up what was appended. -/
structure StreamInv (c : ConnId) (w : World σ) : Prop where
  valid : (w.conns c).writeBuff_.Valid
  stream : movedStream (w.trace c) ++ (w.conns c).writeBuff_.readable =
    appendedStream (w.trace c)
  counted : ∀ we outs bytes, .flush we outs bytes ∈ w.trace c → bytes.length = taken outs
  no_zero : ∀ outs ∈ w.writes, .zero ∉ outs

variable {c : ConnId} {w w' : World σ} {live : Halt → Prop} {cbs : Callbacks σ}

/-- The invariant looks at `writeBuff_`, at the trace and at `writes` only. -/
theorem StreamInv.congr (h : StreamInv c w)
    (hbuff : (w'.conns c).writeBuff_ = (w.conns c).writeBuff_)
    (htrace : w'.trace c = w.trace c) (hwrites : w'.writes = w.writes) : StreamInv c w' where
  valid := by rw [hbuff]; exact h.valid
  stream := by rw [hbuff, htrace]; exact h.stream
  counted := by rw [htrace]; exact h.counted
  no_zero := by rw [hwrites]; exact h.no_zero

theorem StreamInv.ignoresInput : IgnoresInput (StreamInv c : World σ → Prop) c where
  script := fun _ _ h => h.congr rfl rfl rfl
  reads := fun _ _ h => h.congr rfl rfl rfl
  errno := fun _ _ h => h.congr rfl rfl rfl
  readBuff := fun _ _ h => h.congr (by simp) rfl rfl

/-- An event that neither appends nor flushes. -/
def isQuietEvent : ConnEvent → Bool
  | .append _ | .flush _ _ _ => false
  | _ => true

theorem streamInv_emit (e : ConnEvent) (he : isQuietEvent e) :
    Maintains live (StreamInv c : World σ → Prop) (emit c e) := by
  intro w h
  show StreamInv c (w.log c e)
  have happ : e.appendedBytes = [] := by cases e <;> first | rfl | cases he
  have hmov : e.movedBytes = [] := by cases e <;> first | rfl | cases he
  constructor
  · exact h.valid
  · rw [World.log_self, movedStream_snoc, appendedStream_snoc, happ, hmov]
    simpa using h.stream
  · intro we outs bytes hmem
    rw [World.log_self, List.mem_append, List.mem_singleton] at hmem
    rcases hmem with hmem | rfl
    · exact h.counted we outs bytes hmem
    · cases he
  · exact h.no_zero

theorem streamInv_onLoop (f : XLoop Handler → Except Halt (XLoop Handler)) :
    Maintains live (StreamInv c : World σ → Prop) (onLoop f) := by
  intro w h
  rw [wp_onLoop]
  split
  · exact h.congr rfl rfl rfl
  · exact fun _ => h

/-! ## Section 4: Appending and flushing -/

theorem streamInv_appendMsg (msg : List UInt8) :
    Maintains live (StreamInv c : World σ → Prop) (appendMsg c msg) := by
  intro w h
  show wp (onWriteBuff c (·.append msg) >>= fun _ => emit c (.append msg)) _ _ w
  rw [wp_bind, wp_onWriteBuff]
  split
  · rename_i b hb
    -- the buffer and the trace grow by the same bytes
    obtain ⟨hv, hread⟩ := XBuffer.append_ok h.valid hb
    constructor
    · simpa using hv
    · simp only [World.log_self, World.log_conns, World.setConn_self, World.setConn_trace,
        movedStream_snoc, appendedStream_snoc, hread, ← h.stream]
      simp [ConnEvent.movedBytes, ConnEvent.appendedBytes]
    · intro we outs bytes hmem
      simp only [World.log_self, World.setConn_trace, List.mem_append, List.mem_singleton,
        reduceCtorEq, or_false] at hmem
      exact h.counted we outs bytes hmem
    · exact h.no_zero
  · exact fun _ => h

theorem streamInv_flushBacklog :
    Maintains live (StreamInv c : World σ → Prop) (flushBacklog c) := by
  intro w h
  show wp (writeFd c >>= fun sent => _) _ _ w
  rw [wp_bind, wp_writeFd]
  cases hwrites : w.writes with
  | nil => exact fun _ => h
  | cons outs rest =>
    have hzeros : ∀ o ∈ outs :: rest, .zero ∉ o := hwrites ▸ h.no_zero
    have hrest : ∀ o ∈ rest, .zero ∉ o := fun o ho => hzeros o (List.mem_cons_of_mem _ ho)
    dsimp only
    split
    · rename_i r hr
      obtain ⟨hlen, hcases⟩ := writeFd_pending h.valid (hzeros outs List.mem_cons_self) hr
      have hcounted : ∀ we' outs' bytes,
          .flush we' outs' bytes ∈ w.trace c ++
            [.flush (w.conns c).writeEnabled_ outs r.accepted] →
          bytes.length = taken outs' := by
        intro we' outs' bytes hmem
        rw [List.mem_append, List.mem_singleton] at hmem
        rcases hmem with hmem | heq
        · exact h.counted we' outs' bytes hmem
        · cases heq
          exact hlen
      rcases hcases with ⟨hf, hret⟩ | ⟨hf, hle, hacc, hsize, hnonneg⟩
      · -- the write failed: nothing is moved over
        rw [wp_ite, if_pos (by omega)]
        constructor
        · exact h.valid
        · simp only [World.log_self, World.log_conns, movedStream_snoc, appendedStream_snoc,
            ConnEvent.movedBytes, ConnEvent.appendedBytes, if_pos hf, List.append_nil]
          exact h.stream
        · simpa using hcounted
        · exact hrest
      · -- the bytes that were taken are the ones that are moved over
        obtain ⟨b, hmove, hv, hread, _⟩ := XBuffer.moveOver_spec h.valid hle
        rw [wp_ite, if_neg (by omega), wp_bind, wp_onWriteBuff, World.log_conns, hsize]
        simp only [hmove, wp_pure]
        constructor
        · simpa using hv
        · simp only [World.log_self, World.setConn_self, World.setConn_trace, movedStream_snoc,
            appendedStream_snoc, ConnEvent.movedBytes, ConnEvent.appendedBytes, if_neg hf,
            List.append_nil, hread, hacc, List.append_assoc, List.take_append_drop]
          exact h.stream
        · simpa using hcounted
        · exact hrest
    · intro _
      exact ⟨h.valid, h.stream, h.counted, hrest⟩

/-! ## Section 5: Every part keeps the invariant -/

theorem streamInv_updateWriteEvent :
    Maintains live (StreamInv c : World σ → Prop) (updateWriteEvent c) := by
  have hset : ∀ we : Bool, Maintains live (StreamInv c : World σ → Prop)
      (modify fun w => w.setConn c { w.conns c with writeEnabled_ := we }) := by
    intro we
    apply Maintains.modify
    intro w h
    exact h.congr (by simp) rfl rfl
  apply Maintains.get.bind
  intro w
  apply Maintains.ite
  · exact (streamInv_onLoop _).bind fun _ => hset true
  · apply Maintains.ite
    · apply (streamInv_emit .disarm rfl).bind
      intro _
      exact (streamInv_onLoop _).bind fun _ => hset false
    · exact Maintains.pure ()

theorem streamInv_sendMsg (hlive : live .exception)
    (hcbs : KeepCallbacks live (StreamInv c) c cbs) :
    Maintains live (StreamInv c) (sendMsg cbs c) := by
  have hsent : ∀ n, Maintains live (StreamInv c) (callSentBytes cbs c n) := by
    intro n
    apply Maintains.get.bind
    intro w
    apply Maintains.ite
    · apply (streamInv_emit _ rfl).bind
      intro _
      exact (hcbs.sentBytesCb n).catching (caught_live hlive) (Maintains.pure ())
    · exact Maintains.pure ()
  apply Maintains.get.bind
  intro w
  apply Maintains.ite (Maintains.pure _)
  apply Maintains.ite
  · apply streamInv_flushBacklog.bind
    intro sent
    apply Maintains.ite
    · exact Maintains.get.bind fun _ => Maintains.pure _
    · apply (hsent _).bind
      intro _
      exact streamInv_updateWriteEvent.bind fun _ => Maintains.pure _
  · exact streamInv_updateWriteEvent.bind fun _ => Maintains.pure _

theorem streamInv_beginClose : Maintains live (StreamInv c : World σ → Prop) (beginClose c) := by
  apply Maintains.get.bind
  intro w
  apply Maintains.ite (Maintains.pure _)
  apply Maintains.bind
  · apply Maintains.modify
    intro w h
    exact h.congr (by simp) rfl rfl
  · intro _
    apply (streamInv_onLoop _).bind
    intro _
    apply Maintains.ite
    · exact (streamInv_emit _ rfl).bind fun _ => Maintains.pure _
    · exact Maintains.pure _

theorem streamInv_parts {fuel : Nat} (hlive : live .exception)
    (hcbs : KeepCallbacks live (StreamInv c) c cbs) :
    KeepParts live (StreamInv c) fuel c cbs where
  sendMsgToBuffer msg := by
    apply (streamInv_appendMsg msg).bind
    intro _
    exact (streamInv_sendMsg hlive hcbs).bind fun _ => Maintains.pure _
  beginClose := streamInv_beginClose
  dispatch := by
    apply dispatch_maintains hlive StreamInv.ignoresInput hcbs
    · intro e he
      exact streamInv_emit e (by cases e <;> first | rfl | cases he)
    · exact streamInv_sendMsg hlive hcbs
    · exact streamInv_beginClose

theorem streamInv_initial {w₀ : World σ} (hinit : Initial c w₀)
    (hzero : ∀ outs ∈ w₀.writes, .zero ∉ outs) : StreamInv c w₀ := by
  obtain ⟨sock, sb, dec, cc, hnew⟩ := hinit.constructed
  rw [XConnection.new_eq, Except.ok.injEq] at hnew
  constructor
  · rw [← hnew]
    exact XBuffer.valid_fresh (by decide)
  · rw [hinit.no_trace, ← hnew]
    exact XBuffer.readable_fresh XBuffer.kInitialSize
  · intro we outs bytes hmem
    rw [hinit.no_trace] at hmem
    cases hmem
  · exact hzero

theorem streamInv_beginConnected :
    Maintains live (StreamInv c : World σ → Prop) (beginConnected c) := by
  apply Maintains.get.bind
  intro w
  apply Maintains.bind
  · apply Maintains.modify
    intro w h
    exact h.congr (by simp) rfl rfl
  · intro _
    exact (streamInv_onLoop _).bind fun _ => streamInv_emit _ rfl

/-- At the end of every run, however it ends. -/
theorem streamInv_run {w₀ : World σ} (hinit : Initial c w₀)
    (hzero : ∀ outs ∈ w₀.writes, .zero ∉ outs) (depth fuel : Nat) (inputs : List Input) :
    StreamInv c (endOfRun depth fuel c inputs w₀) := by
  have hparts : ∀ depth, KeepCallbacks (fun _ => True) (StreamInv c : World σ → Prop) c
      (userCallbacks depth) →
      KeepParts (fun _ => True) (StreamInv c) fuel c (userCallbacks depth) :=
    fun _ hcbs => streamInv_parts trivial hcbs
  have hstart : wp (beginConnected c) (fun _ => StreamInv c)
      (fun _ w => True → StreamInv c w) w₀ :=
    streamInv_beginConnected w₀ (streamInv_initial hinit hzero)
  have hrun := runConnection_keeps trivial StreamInv.ignoresInput.script hparts hstart depth inputs
  exact wp_finalState (wp_mono (fun _ _ h => h) (fun _ _ h => h trivial) hrun)

/-! ## Section 6: What the kernel took -/

/-- **Send-stream integrity.**  In every run of a connection without a
    `::write` that returns 0, the bytes that the kernel has accepted followed
    by the bytes pending are the bytes appended, if and only if no call of
    `writeFd` failed after a `::write` of the same call had taken bytes. -/
theorem accepted_append_pending_iff {w₀ w : World σ} (hinit : Initial c w₀)
    (hzero : ∀ outs ∈ w₀.writes, .zero ∉ outs) (depth fuel : Nat) (inputs : List Input)
    (hw : w = endOfRun depth fuel c inputs w₀) :
    acceptedStream (w.trace c) ++ (w.conns c).writeBuff_.readable =
        appendedStream (w.trace c) ↔
      ∀ we outs bytes, .flush we outs bytes ∈ w.trace c → ¬ FailsAfterTaking outs := by
  have hinv : StreamInv c w := hw ▸ streamInv_run hinit hzero depth fuel inputs
  rw [← movedStream_eq_iff hinv.counted, ← hinv.stream]
  constructor
  · intro heq
    exact (List.append_cancel_right heq).symm
  · intro heq
    rw [heq]

/-- A run with a partial write, an `EINTR` and an `EAGAIN` that comes first. -/
theorem accepted_append_pending_three : ∃ w : World Unit,
    w = endOfRun 1 0 0 [.sendMsg [1, 2], .sendMsg [3]]
      (World.start false false false [[.wrote 1, .fail .EINTR, .wrote 1], [.fail .EAGAIN]] []
        [⟨[], false, 0⟩]) ∧
    acceptedStream (w.trace 0) = [1, 2] ∧
    acceptedStream (w.trace 0) ++ (w.conns 0).writeBuff_.readable =
      appendedStream (w.trace 0) := by
  obtain ⟨w, hw⟩ : ∃ w : World Unit, w = endOfRun 1 0 0 [.sendMsg [1, 2], .sendMsg [3]]
    (World.start false false false [[.wrote 1, .fail .EINTR, .wrote 1], [.fail .EAGAIN]] []
      [⟨[], false, 0⟩]) := ⟨_, rfl⟩
  have htrace : w.trace 0 = [.connFinish, .append [1, 2],
      .flush false [.wrote 1, .fail .EINTR, .wrote 1] [1, 2], .append [3],
      .flush false [.fail .EAGAIN] []] := by
    rw [hw]
    decide +kernel
  have hiff := accepted_append_pending_iff (World.initial_start ..) (by decide) 1 0 _ hw
  refine ⟨w, hw, by rw [htrace]; rfl, hiff.mpr ?_⟩
  -- neither of the two calls failed after it had taken bytes
  intro we outs bytes hmem
  rw [htrace] at hmem
  simp only [List.mem_cons, reduceCtorEq, false_or, ConnEvent.flush.injEq, List.not_mem_nil,
    or_false] at hmem
  rcases hmem with ⟨_, rfl, _⟩ | ⟨_, rfl, _⟩
  · decide
  · decide

/-- The kernel takes one byte of two, then the socket is full: that byte stays
    pending, and the next call sends it again. -/
theorem partial_write_sent_twice : ∃ w₀ w : World Unit, Initial 0 w₀ ∧
    (∀ outs ∈ w₀.writes, .zero ∉ outs) ∧
    w = endOfRun 1 0 0 [.sendMsg [1, 2], .sendMsg [3]] w₀ ∧
    (w.conns 0).connStatus_ = XF_CONN_STATUS_CONNECTED ∧
    appendedStream (w.trace 0) = [1, 2, 3] ∧ acceptedStream (w.trace 0) = [1, 1, 2, 3] ∧
    acceptedStream (w.trace 0) ++ (w.conns 0).writeBuff_.readable ≠
      appendedStream (w.trace 0) := by
  refine ⟨World.start false false false [[.wrote 1, .fail .EAGAIN], [.wrote 3]] []
    [⟨[], false, 0⟩], _, World.initial_start .., by decide, rfl, ?_⟩
  decide +kernel

end XConnection

end XFast
