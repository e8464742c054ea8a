import XFast.Net.Connection

/-! # Rules for connection programs

    The weakest preconditions of the small steps of `Connection`, and the two
    inductions that every property of a run needs: over the nesting depth of
    the user's callbacks, and over the inputs of a run. -/

namespace XFast

open Program XConnStatus

variable {σ : Type}

namespace XConnection

/-! ## Section 1: Small steps -/

section steps

variable {c : ConnId} {E : Halt → World σ → Prop} {w : World σ}

@[simp] theorem wp_emit {Q : Unit → World σ → Prop} (e : ConnEvent) :
    wp (emit c e) Q E w ↔ Q () (w.log c e) := Iff.rfl

theorem wp_onWriteBuff {Q : Unit → World σ → Prop} (f : XBuffer → Except Halt XBuffer) :
    wp (onWriteBuff c f) Q E w ↔
      match f (w.conns c).writeBuff_ with
      | .ok b => Q () (w.setConn c { w.conns c with writeBuff_ := b })
      | .error e => E e w := by
  simp only [onWriteBuff, wp_bind, wp_get]
  cases f (w.conns c).writeBuff_ <;> rfl

theorem wp_onReadBuff {Q : Unit → World σ → Prop} (f : XBuffer → Except Halt XBuffer) :
    wp (onReadBuff c f) Q E w ↔
      match f (w.conns c).readBuff_ with
      | .ok b => Q () (w.setConn c { w.conns c with readBuff_ := b })
      | .error e => E e w := by
  simp only [onReadBuff, wp_bind, wp_get]
  cases f (w.conns c).readBuff_ <;> rfl

theorem wp_onLoop {Q : Unit → World σ → Prop}
    (f : XLoop Handler → Except Halt (XLoop Handler)) :
    wp (onLoop f) Q E w ↔
      match f w.loop with
      | .ok loop => Q () { w with loop := loop }
      | .error e => E e w := by
  simp only [onLoop, wp_bind, wp_get]
  cases f w.loop <;> rfl

theorem wp_writeFd {Q : Int → World σ → Prop} :
    wp (writeFd c) Q E w ↔
      match w.writes with
      | [] => E .infeasible w
      | outs :: rest =>
          match FileApi.writeFd outs (w.conns c).writeBuff_.peek
              (toInt32 (w.conns c).writeBuff_.readableBytes) with
          | .ok r => Q r.ret
              (({ w with writes := rest, errno := r.errno.getD w.errno } : World σ).log c
                (.flush (w.conns c).writeEnabled_ outs r.accepted))
          | .error e => E e { w with writes := rest } := by
  unfold writeFd
  rw [wp_bind, nextWrites, wp_nextAnswer]
  cases hw : w.writes with
  | nil => rfl
  | cons outs rest =>
    simp only [wp_bind, wp_get]
    cases FileApi.writeFd outs (w.conns c).writeBuff_.peek
      (toInt32 (w.conns c).writeBuff_.readableBytes) <;> rfl

end steps

/-! ## Section 2: Contracts of callbacks -/

/-- All callbacks keep the invariant `I` of the world, for connection `c`. -/
structure KeepCallbacks (live : Halt → Prop) (I : World σ → Prop) (c : ConnId)
    (cbs : Callbacks σ) : Prop where
  decodeCb : ∀ buffer buffLen, Maintains live I (cbs.decodeCb_ c buffer buffLen)
  msgCommitCb : ∀ b, Maintains live I (cbs.msgCommitCb_ c b)
  sentBytesCb : ∀ bytes, Maintains live I (cbs.sentBytesCb_ c bytes)
  connCloseCb : Maintains live I (cbs.connCloseCb_ c)
  connFinishCb : Maintains live I (cbs.connFinishCb_ c)

/-- The callbacks that traffic invokes keep the invariant. -/
structure KeepTraffic (live : Halt → Prop) (I : World σ → Prop) (c : ConnId)
    (cbs : Callbacks σ) : Prop where
  decodeCb : ∀ buffer buffLen, Maintains live I (cbs.decodeCb_ c buffer buffLen)
  msgCommitCb : ∀ b, Maintains live I (cbs.msgCommitCb_ c b)
  sentBytesCb : ∀ bytes, Maintains live I (cbs.sentBytesCb_ c bytes)

theorem KeepCallbacks.traffic {live : Halt → Prop} {I : World σ → Prop} {c : ConnId}
    {cbs : Callbacks σ} (h : KeepCallbacks live I c cbs) : KeepTraffic live I c cbs :=
  ⟨h.decodeCb, h.msgCommitCb, h.sentBytesCb⟩

section induction

variable {live : Halt → Prop} {I : World σ → Prop} {c : ConnId}

theorem userCallback_maintains {cbs : Callbacks σ}
    (hscript : ∀ w s, I w → I { w with script := s })
    (hsend : ∀ msg, Maintains live I (sendMsgString cbs c msg))
    (hclose : Maintains live I (closeConnection cbs c)) :
    Maintains live I (userCallback cbs c) := by
  have hnext : Maintains live I (nextScript : LoopM σ CbScript) :=
    Maintains.nextAnswer fun w rest h => hscript w rest h
  have hact : ∀ a, Maintains live I (userAct cbs c a) := by
    intro a
    cases a with
    | sendMsg msg => exact hsend msg
    | closeConnection => exact hclose
  refine hnext.bind fun s => ?_
  refine (Maintains.sequence s.acts fun a _ => hact a).bind fun _ => ?_
  exact Maintains.ite (Maintains.throw _) (Maintains.pure _)

/-- Induction on the nesting depth: it is enough that the two calls a user
    callback makes keep the invariant when the callbacks below do. -/
theorem keepCallbacks_userCallbacks
    (hscript : ∀ w s, I w → I { w with script := s })
    (hsend : ∀ depth, KeepCallbacks live I c (userCallbacks depth : Callbacks σ) →
      ∀ msg, Maintains live I (sendMsgString (userCallbacks depth) c msg))
    (hclose : ∀ depth, KeepCallbacks live I c (userCallbacks depth : Callbacks σ) →
      Maintains live I (closeConnection (userCallbacks depth) c)) :
    ∀ depth, KeepCallbacks live I c (userCallbacks depth : Callbacks σ) := by
  intro depth
  induction depth with
  | zero =>
    exact ⟨fun _ _ => .throw _, fun _ => .throw _, fun _ => .throw _, .throw _, .throw _⟩
  | succ depth ih =>
    have hcb : Maintains live I (userCallback (userCallbacks depth) c) :=
      userCallback_maintains hscript (hsend depth ih) (hclose depth ih)
    have hunit : Maintains live I (userCallbackUnit (userCallbacks depth) c) :=
      hcb.bind fun _ => Maintains.pure ()
    exact ⟨fun _ _ => hcb, fun _ => hunit, fun _ => hunit, hunit, hunit⟩

/-- What has to be shown of the parts of a connection, when its callbacks keep
    the invariant. -/
structure KeepParts (live : Halt → Prop) (I : World σ → Prop) (fuel : Nat) (c : ConnId)
    (cbs : Callbacks σ) : Prop where
  sendMsgToBuffer : ∀ msg, Maintains live I (sendMsgToBuffer cbs c msg)
  beginClose : Maintains live I (beginClose c)
  dispatch : ∀ fd emask, Maintains live I (dispatch cbs fuel c fd emask)

theorem caught_live (hlive : live .exception) : ∀ e, isException e → live e := by
  intro e he
  rw [eq_of_isException he]
  exact hlive

theorem sendMsgString_maintains {cbs : Callbacks σ}
    (hsend : ∀ msg, Maintains live I (sendMsgToBuffer cbs c msg)) (msg : List UInt8) :
    Maintains live I (sendMsgString cbs c msg) := by
  refine Maintains.get.bind fun w => ?_
  exact Maintains.ite (Maintains.pure ()) (hsend msg)

theorem closeConn_maintains {cbs : Callbacks σ} (hlive : live .exception)
    (hcbs : KeepCallbacks live I c cbs) (hclose : Maintains live I (beginClose c)) :
    Maintains live I (closeConn cbs c) := by
  refine hclose.bind fun call => ?_
  refine Maintains.ite ?_ (Maintains.pure ())
  exact hcbs.connCloseCb.catching (caught_live hlive) (Maintains.pure ())

theorem closeConnection_maintains {cbs : Callbacks σ}
    (hclose : Maintains live I (closeConn cbs c)) :
    Maintains live I (closeConnection cbs c) := by
  refine Maintains.get.bind fun w => ?_
  exact Maintains.ite (Maintains.pure ()) hclose

/-- Induction on the nesting depth, then on the inputs: what the first step
    establishes and the parts keep holds at the end of every run. -/
theorem runConnection_keeps {fuel : Nat} {w₀ : World σ} (hlive : live .exception)
    (hscript : ∀ w s, I w → I { w with script := s })
    (hparts : ∀ depth, KeepCallbacks live I c (userCallbacks depth : Callbacks σ) →
      KeepParts live I fuel c (userCallbacks depth))
    (hstart : wp (beginConnected c) (fun _ => I) (fun e w => live e → I w) w₀)
    (depth : Nat) (inputs : List Input) :
    wp (runConnection (userCallbacks depth) fuel c inputs) (fun _ => I)
      (fun e w => live e → I w) w₀ := by
  have hkeep := keepCallbacks_userCallbacks hscript
    (fun depth hcbs => sendMsgString_maintains (hparts depth hcbs).sendMsgToBuffer)
    (fun depth hcbs => closeConnection_maintains
      (closeConn_maintains hlive hcbs (hparts depth hcbs).beginClose))
  have hcbs := hkeep depth
  have hp := hparts depth hcbs
  have hclose := closeConn_maintains hlive hcbs hp.beginClose
  have hinputs : Maintains live I (sequence (input (userCallbacks depth) fuel c) inputs) := by
    refine Maintains.sequence inputs fun i _ => ?_
    refine Maintains.catching (caught_live hlive) ?_ (Maintains.pure ())
    cases i with
    | sendMsg msg => exact sendMsgString_maintains hp.sendMsgToBuffer msg
    | sendMsgToBuffer msg => exact hp.sendMsgToBuffer msg
    | closeConnection => exact closeConnection_maintains hclose
    | closeConn => exact hclose
    | event fd emask => exact hp.dispatch fd emask
  -- `makeConnected` runs its first step from the initial world, the callback from `I`
  have hmake : wp (catching isException (makeConnected (userCallbacks depth) c) (pure ()))
      (fun _ => I) (fun e w => live e → I w) w₀ := by
    rw [wp_catching]
    show wp (beginConnected c >>= fun _ => (userCallbacks depth).connFinishCb_ c) _ _ w₀
    rw [wp_bind]
    refine wp_mono (fun _ w hw => ?_) (fun e w hw => ?_) hstart
    · refine wp_mono (fun _ _ h => h) (fun e w' hw' => ?_) (hcbs.connFinishCb w hw)
      by_cases he : isException e
      · rw [if_pos he]; exact hw' (caught_live hlive e he)
      · rw [if_neg he]; exact hw'
    · by_cases he : isException e
      · rw [if_pos he]; exact hw (caught_live hlive e he)
      · rw [if_neg he]; exact hw
  show wp (catching isException _ _ >>= fun _ => _) _ _ w₀
  rw [wp_bind]
  exact wp_mono (fun _ w hw => hinputs w hw) (fun _ _ h => h) hmake

end induction

/-! ## Section 3: Invariants that do not look at the input side -/

/-- The invariant does not depend on what is still to be read, on `errno` or
    on `readBuff_`. -/
structure IgnoresInput (I : World σ → Prop) (c : ConnId) : Prop where
  script : ∀ w s, I w → I { w with script := s }
  reads : ∀ w r, I w → I { w with reads := r }
  errno : ∀ w e, I w → I { w with errno := e }
  readBuff : ∀ w b, I w → I (w.setConn c { w.conns c with readBuff_ := b })

/-- The events that only `parseProtocol` emits. -/
def isParseEvent : ConnEvent → Bool
  | .decode | .decodeReturn _ | .msgCommit _ | .commitReturn _ => true
  | _ => false

section input

variable {live : Halt → Prop} {O I : World σ → Prop} {c : ConnId} {cbs : Callbacks σ} {fuel : Nat}

theorem onReadBuff_maintains (hin : IgnoresInput I c) (f : XBuffer → Except Halt XBuffer) :
    Maintains live I (onReadBuff c f) := by
  intro w hw
  rw [wp_onReadBuff]
  split
  · exact hin.readBuff w _ hw
  · exact fun _ => hw

theorem readAvailable_maintains (hin : IgnoresInput I c) :
    Maintains live I (readAvailable c) := by
  have hnext : Maintains live I (nextReads : LoopM σ (List ReadvResult)) :=
    Maintains.nextAnswer fun w rest hw => hin.reads w rest hw
  refine hnext.bind fun outs => ?_
  refine Maintains.get.bind fun w => ?_
  refine (Maintains.lift _).bind fun r => ?_
  refine (Maintains.modify fun w' hw' => ?_).bind fun _ => Maintains.pure _
  exact hin.errno _ _ (hin.readBuff w' _ hw')

/-- What is asked of the callbacks of the parse loop when `O` holds while the
    connection is served and `I` always: they are called in `O`, and they
    return in `O` where the loop goes on. -/
structure ServesInput (live : Halt → Prop) (O I : World σ → Prop) (c : ConnId)
    (cbs : Callbacks σ) : Prop where
  weaken : ∀ w, O w → I w
  served : IgnoresInput O c
  ignores : IgnoresInput I c
  logServed : ∀ e, isParseEvent e → Maintains live O (emit c e)
  log : ∀ e, isParseEvent e → Maintains live I (emit c e)
  decodeCb : ∀ buffer buffLen w, O w → wp (cbs.decodeCb_ c buffer buffLen)
    (fun ret w' => if toInt32 ret = XF_MSG_DECODE_ERR ∨ toInt32 ret = XF_MSG_DECODE_NOT_ENOUGH
      then I w' else O w') (fun e w' => live e → I w') w
  msgCommitCb : ∀ b w, O w → wp (cbs.msgCommitCb_ c b)
    (fun _ w' => if (w'.conns c).readBuff_.readableBytes = 0 then I w' else O w')
    (fun e w' => live e → I w') w

theorem ServesInput.of_keep (hin : IgnoresInput I c) (hcbs : KeepTraffic live I c cbs)
    (hemit : ∀ e, isParseEvent e → Maintains live I (emit c e)) :
    ServesInput live I I c cbs where
  weaken := fun _ h => h
  served := hin
  ignores := hin
  logServed := hemit
  log := hemit
  decodeCb := by
    simp only [ite_self]
    exact hcbs.decodeCb
  msgCommitCb := by
    simp only [ite_self]
    exact hcbs.msgCommitCb

theorem decode_serves (h : ServesInput live O I c cbs) (n : Int) {w : World σ} (hw : O w) :
    wp (decode cbs c n) (fun ret w' => if ret = XF_MSG_DECODE_ERR ∨ ret = XF_MSG_DECODE_NOT_ENOUGH
      then I w' else O w') (fun e w' => live e → I w') w := by
  have hlog : O (w.log c .decode) := h.logServed _ rfl w hw
  show wp (XConnection.emit c .decode >>= fun _ => get >>= fun w => _) _ _ w
  rw [wp_bind, wp_emit, wp_bind, wp_get, wp_bind]
  refine wp_mono (fun ret w' hret => ?_) (fun _ _ he => he) (h.decodeCb _ n _ hlog)
  rw [wp_bind, wp_emit, wp_pure]
  split at hret
  · rename_i hstop
    rw [if_pos hstop]
    exact h.log _ rfl w' hret
  · rename_i hstop
    rw [if_neg hstop]
    exact h.logServed _ rfl w' hret

theorem commit_serves (h : ServesInput live O I c cbs) (b : XBuffer) {w : World σ} (hw : O w) :
    wp (commit cbs c b)
      (fun _ w' => if (w'.conns c).readBuff_.readableBytes = 0 then I w' else O w')
      (fun e w' => live e → I w') w := by
  show wp (cbs.msgCommitCb_ c b >>= fun _ => get >>= fun w => _) _ _ w
  rw [wp_bind]
  refine wp_mono (fun _ w' hleft => ?_) (fun _ _ he => he) (h.msgCommitCb b w hw)
  rw [wp_bind, wp_get, wp_emit, World.log_conns]
  split at hleft
  · rename_i hempty
    rw [if_pos hempty]
    exact h.log (.commitReturn _) rfl w' hleft
  · rename_i hmore
    rw [if_neg hmore]
    exact h.logServed (.commitReturn _) rfl w' hleft

theorem takeFrame_maintains (hin : IgnoresInput I c)
    (hemit : ∀ e, isParseEvent e → Maintains live I (emit c e)) (n : Int) :
    Maintains live I (takeFrame c n) := by
  refine (Maintains.lift _).bind fun b => ?_
  refine Maintains.get.bind fun w => ?_
  refine (Maintains.lift _).bind fun b => ?_
  refine (onReadBuff_maintains hin _).bind fun _ => ?_
  exact (hemit _ rfl).bind fun _ => Maintains.pure b

/-- Induction on the iterations of the parse loop: each of them starts in `O`,
    or with nothing to do. -/
theorem parseLoop_serves (h : ServesInput live O I c cbs) : ∀ fuel w,
    (if (w.conns c).readBuff_.readableBytes = 0 then I w else O w) →
      wp (parseLoop cbs c fuel) (fun _ w' => I w') (fun e w' => live e → I w') w := by
  intro fuel
  induction fuel with
  | zero =>
    intro w hw _
    split at hw
    · exact hw
    · exact h.weaken w hw
  | succ fuel ih =>
    intro w hw
    show wp (get >>= fun w => _) _ _ w
    rw [wp_bind, wp_get, wp_ite]
    split at hw
    · rename_i hempty
      rw [if_pos hempty]
      exact hw
    · rename_i hempty
      rw [if_neg hempty, wp_bind]
      refine wp_mono (fun ret w₁ hret => ?_) (fun _ _ he => he) (decode_serves h _ hw)
      rw [wp_ite]
      split
      · rename_i herr
        rw [if_pos (Or.inl herr)] at hret
        exact onReadBuff_maintains h.ignores _ w₁ hret
      · rename_i herr
        rw [wp_ite]
        split
        · rename_i hmore
          rw [if_pos (Or.inr hmore)] at hret
          exact hret
        · rename_i hmore
          rw [if_neg (not_or.mpr ⟨herr, hmore⟩)] at hret
          rw [wp_bind]
          refine wp_mono (fun b w₂ htaken => ?_) (fun e w₂ he hlive => h.weaken w₂ (he hlive))
            (takeFrame_maintains h.served h.logServed _ w₁ hret)
          rw [wp_bind]
          exact wp_mono (fun _ w₃ hleft => ih w₃ hleft) (fun _ _ he => he)
            (commit_serves h b htaken)

theorem parseProtocol_serves (hlive : live .exception) (h : ServesInput live O I c cbs) :
    Leaves live O I (parseProtocol cbs fuel c) := by
  have hloop : Leaves live O I (parseLoop cbs c fuel) := by
    intro w hw
    apply parseLoop_serves h fuel w
    split
    · exact h.weaken w hw
    · exact hw
  refine Leaves.bind Maintains.get h.weaken fun w => ?_
  refine Leaves.ite ?_ (Leaves.of_maintains (Maintains.pure ()) h.weaken)
  exact Leaves.catching (caught_live hlive) hloop (onReadBuff_maintains h.ignores _)

/-- An event, when sending and closing keep the invariant. -/
theorem HandleEvent_serves (hlive : live .exception) (h : ServesInput live O I c cbs)
    (hsend : Maintains live I (sendMsg cbs c)) (hconn : Maintains live I (closeConn cbs c))
    (emask : Mask) : Leaves live O I (HandleEvent cbs fuel c emask) := by
  have hwrite : Maintains live I (handleWritable cbs c emask) := by
    refine Maintains.ite ?_ (Maintains.pure ())
    exact hsend.bind fun ret => Maintains.ite hconn (Maintains.pure ())
  have hdone : ∀ n : Int, Leaves live O I (pure n : LoopM σ Int) :=
    fun n => Leaves.of_maintains (Maintains.pure n) h.weaken
  have hread : Leaves live O I (readMsg cbs fuel c) := by
    refine Leaves.bind (readAvailable_maintains h.served) h.weaken fun size => ?_
    cases size with
    | none => exact hdone _
    | some readSize =>
      refine Leaves.ite ?_ (hdone _)
      exact Leaves.bind (parseProtocol_serves hlive h) (fun _ h => h) fun _ => Maintains.pure _
  refine Leaves.ite (Leaves.of_maintains hconn h.weaken) ?_
  refine Leaves.ite ?_ (Leaves.of_maintains hwrite h.weaken)
  exact Leaves.bind hread (fun _ h => h) fun ret => Maintains.ite hconn hwrite

/-- The case in which the callbacks keep the invariant. -/
theorem HandleEvent_maintains (hlive : live .exception) (hin : IgnoresInput I c)
    (hcbs : KeepTraffic live I c cbs)
    (hemit : ∀ e, isParseEvent e → Maintains live I (emit c e))
    (hsend : Maintains live I (sendMsg cbs c)) (hconn : Maintains live I (closeConn cbs c))
    (emask : Mask) : Maintains live I (HandleEvent cbs fuel c emask) :=
  HandleEvent_serves hlive (ServesInput.of_keep hin hcbs hemit) hsend hconn emask

theorem dispatch_maintains (hlive : live .exception) (hin : IgnoresInput I c)
    (hcbs : KeepCallbacks live I c cbs)
    (hemit : ∀ e, isParseEvent e → Maintains live I (emit c e))
    (hsend : Maintains live I (sendMsg cbs c)) (hclose : Maintains live I (beginClose c))
    (fd : Fd) (emask : Mask) : Maintains live I (dispatch cbs fuel c fd emask) := by
  have hconn : Maintains live I (closeConn cbs c) := closeConn_maintains hlive hcbs hclose
  refine Maintains.get.bind fun w => ?_
  refine Maintains.ite ?_ (Maintains.pure ())
  exact HandleEvent_maintains hlive hin hcbs.traffic hemit hsend hconn emask

end input

/-! ## Section 4: Invariants that sending does not touch -/

/-- The invariant does not depend on the buffers and flags of the connection,
    and it survives that the loop is asked for the writable event or has it
    taken away. -/
structure SurvivesTraffic (I : World σ → Prop) (c : ConnId) : Prop where
  script : ∀ w s, I w → I { w with script := s }
  writes : ∀ w r, I w → I { w with writes := r }
  errno : ∀ w e, I w → I { w with errno := e }
  log : ∀ w e, e ≠ .connClose → I w → I (w.log c e)
  conn : ∀ w x, x.connStatus_ = (w.conns c).connStatus_ → x.sock_ = (w.conns c).sock_ →
    x.connCloseCb_ = (w.conns c).connCloseCb_ → I w → I (w.setConn c x)
  addEvent : ∀ w loop, w.loop.addEvent (w.conns c).sock_ XE_WRITABLE = .ok loop → I w →
    I { w with loop := loop }
  removeEvent : ∀ w loop, w.loop.removeEvent (w.conns c).sock_ XE_WRITABLE = .ok loop → I w →
    I { w with loop := loop }

section traffic

variable {live : Halt → Prop} {O I : World σ → Prop} {c : ConnId} {cbs : Callbacks σ}

theorem SurvivesTraffic.emit (h : SurvivesTraffic I c) {e : ConnEvent} (he : e ≠ .connClose) :
    Maintains live I (emit c e) :=
  Maintains.modify fun w hw => h.log w e he hw

theorem onWriteBuff_maintains (h : SurvivesTraffic I c) (f : XBuffer → Except Halt XBuffer) :
    Maintains live I (onWriteBuff c f) := by
  intro w hw
  rw [wp_onWriteBuff]
  split
  · exact h.conn w _ rfl rfl rfl hw
  · exact fun _ => hw

theorem flushBacklog_maintains (h : SurvivesTraffic I c) :
    Maintains live I (flushBacklog c) := by
  have hwrite : Maintains live I (writeFd c) := by
    intro w hw
    rw [wp_writeFd]
    split
    · exact fun _ => hw
    · rename_i outs rest _
      have hrest : I { w with writes := rest } := h.writes w rest hw
      split
      · exact h.log _ _ (by simp) (h.errno _ _ hrest)
      · exact fun _ => hrest
  apply hwrite.bind
  intro sent
  exact Maintains.ite (Maintains.pure _)
    ((onWriteBuff_maintains h _).bind fun _ => Maintains.pure _)

theorem updateWriteEvent_maintains (h : SurvivesTraffic I c) :
    Maintains live I (updateWriteEvent c : LoopM σ Unit) := by
  have hflag : ∀ b, Maintains live I
      (modify fun w : World σ => w.setConn c { w.conns c with writeEnabled_ := b }) :=
    fun b => Maintains.modify fun w hw => h.conn w _ rfl rfl rfl hw
  intro w hw
  show wp (get >>= fun w => _) _ _ w
  rw [wp_bind, wp_get, wp_ite]
  split
  · rw [wp_bind, wp_onLoop]
    split
    · rename_i loop hadd
      exact hflag true _ (h.addEvent w loop hadd hw)
    · exact fun _ => hw
  · rw [wp_ite]
    split
    · rw [wp_bind, wp_emit, wp_bind, wp_onLoop]
      have hlog := h.log w .disarm (by simp) hw
      split
      · rename_i loop hremove
        exact hflag false _ (h.removeEvent _ loop hremove hlog)
      · exact fun _ => hlog
    · exact hw

/-- `sentBytesCb_` is called while the connection is connected. -/
theorem sendMsg_serves (hlive : live .exception) (hserved : SurvivesTraffic O c)
    (h : SurvivesTraffic I c) (hweaken : ∀ w, O w → I w)
    (hconnected : ∀ w, I w → (w.conns c).connStatus_ = XF_CONN_STATUS_CONNECTED → O w)
    (hcb : ∀ bytes, Leaves live O I (cbs.sentBytesCb_ c bytes)) :
    Maintains live I (sendMsg cbs c) := by
  have hdone : ∀ {α : Type} (a : α), Leaves live O I (pure a : LoopM σ α) :=
    fun a => Leaves.of_maintains (Maintains.pure a) hweaken
  have hsent : ∀ n, Leaves live O I (callSentBytes cbs c n) := by
    intro n
    refine Leaves.bind Maintains.get hweaken fun w => ?_
    refine Leaves.ite ?_ (hdone ())
    have hemit : Maintains live O (XConnection.emit c (.sentBytes n)) := hserved.emit (by simp)
    exact Leaves.bind hemit hweaken fun _ =>
      Leaves.catching (caught_live hlive) (hcb n) (Maintains.pure ())
  intro w hw
  show wp (get >>= fun w => _) _ _ w
  rw [wp_bind, wp_get, wp_ite]
  split
  · exact hw
  · rename_i hstatus
    have hO : O w := hconnected w hw (not_not.mp hstatus)
    rw [wp_ite]
    split
    · refine Leaves.bind (flushBacklog_maintains hserved) hweaken (fun sent => ?_) w hO
      refine Leaves.ite (Leaves.bind Maintains.get hweaken fun _ => hdone _) ?_
      refine Leaves.bind (hsent _) (fun _ h => h) fun _ => ?_
      exact (updateWriteEvent_maintains h).bind fun _ => Maintains.pure _
    · exact ((updateWriteEvent_maintains h).bind fun _ => Maintains.pure _) w hw

theorem sendMsg_maintains (hlive : live .exception) (h : SurvivesTraffic I c)
    (hcb : ∀ bytes, Maintains live I (cbs.sentBytesCb_ c bytes)) :
    Maintains live I (sendMsg cbs c) :=
  sendMsg_serves hlive h h (fun _ h => h) (fun _ h _ => h) hcb

theorem sendMsgToBuffer_of_sendMsg (h : SurvivesTraffic I c)
    (hsend : Maintains live I (sendMsg cbs c)) (msg : List UInt8) :
    Maintains live I (sendMsgToBuffer cbs c msg) := by
  have hemit : Maintains live I (emit c (.append msg)) := h.emit (by simp)
  have happend : Maintains live I (appendMsg c msg) :=
    (onWriteBuff_maintains h _).bind fun _ => hemit
  exact happend.bind fun _ => hsend.bind fun _ => Maintains.pure ()

theorem sendMsgToBuffer_maintains (hlive : live .exception) (h : SurvivesTraffic I c)
    (hcb : ∀ bytes, Maintains live I (cbs.sentBytesCb_ c bytes)) (msg : List UInt8) :
    Maintains live I (sendMsgToBuffer cbs c msg) :=
  sendMsgToBuffer_of_sendMsg h (sendMsg_maintains hlive h hcb) msg

end traffic

/-! ## Section 5: Invariants that look at the socket only -/

/-- The invariant does not depend on what the functions of a connection
    change: neither on its buffers and its status nor on the loop. -/
structure IgnoresState (I : World σ → Prop) (c : ConnId) : Prop where
  script : ∀ w s, I w → I { w with script := s }
  writes : ∀ w r, I w → I { w with writes := r }
  errno : ∀ w e, I w → I { w with errno := e }
  loop : ∀ w loop, I w → I { w with loop := loop }
  log : ∀ w e, I w → I (w.log c e)
  conn : ∀ w x, x.sock_ = (w.conns c).sock_ → I w → I (w.setConn c x)

section state

variable {live : Halt → Prop} {I : World σ → Prop} {c : ConnId}

theorem IgnoresState.survivesTraffic (h : IgnoresState I c) : SurvivesTraffic I c where
  script := h.script
  writes := h.writes
  errno := h.errno
  log := fun w e _ hw => h.log w e hw
  conn := fun w x _ hsock _ hw => h.conn w x hsock hw
  addEvent := fun w loop _ hw => h.loop w loop hw
  removeEvent := fun w loop _ hw => h.loop w loop hw

theorem onLoop_maintains (h : IgnoresState I c)
    (f : XLoop Handler → Except Halt (XLoop Handler)) : Maintains live I (onLoop f) := by
  intro w hw
  rw [wp_onLoop]
  split
  · exact h.loop w _ hw
  · exact fun _ => hw

theorem beginClose_maintains (h : IgnoresState I c) : Maintains live I (beginClose c) := by
  apply Maintains.get.bind
  intro w
  apply Maintains.ite (Maintains.pure _)
  have hstatus : Maintains live I (modify fun w : World σ =>
      w.setConn c { w.conns c with connStatus_ := XF_CONN_STATUS_DISCONNECTING }) :=
    Maintains.modify fun w hw => h.conn w _ rfl hw
  have hemit : Maintains live I (emit c .connClose) := Maintains.modify fun w hw => h.log w _ hw
  apply hstatus.bind
  intro _
  apply (onLoop_maintains h _).bind
  intro _
  exact Maintains.ite (hemit.bind fun _ => Maintains.pure _) (Maintains.pure _)

theorem beginConnected_maintains (h : IgnoresState I c) :
    Maintains live I (beginConnected c : LoopM σ Unit) := by
  apply Maintains.get.bind
  intro w
  have hstatus : Maintains live I (modify fun w : World σ =>
      w.setConn c { w.conns c with connStatus_ := XF_CONN_STATUS_CONNECTED }) :=
    Maintains.modify fun w hw => h.conn w _ rfl hw
  have hemit : Maintains live I (emit c .connFinish) := Maintains.modify fun w hw => h.log w _ hw
  exact hstatus.bind fun _ => (onLoop_maintains h _).bind fun _ => hemit

end state

/-! ## Section 6: Callbacks that may do anything -/

/-- One invocation of a callback, with its arguments. -/
inductive Invocation where
  | decodeCb (buffer : List UInt8) (buffLen : Int)
  | msgCommitCb (buffer : XBuffer)
  | sentBytesCb (bytes : Nat)
  | connCloseCb
  | connFinishCb

/-- What a connection holds when `body` is bound to all its callbacks. -/
def callbacksOf (body : Invocation → ConnId → LoopM σ Int) : Callbacks σ where
  decodeCb_ := fun c buffer buffLen => body (.decodeCb buffer buffLen) c
  msgCommitCb_ := fun c buffer => do let _ ← body (.msgCommitCb buffer) c
  sentBytesCb_ := fun c bytes => do let _ ← body (.sentBytesCb bytes) c
  connCloseCb_ := fun c => do let _ ← body .connCloseCb c
  connFinishCb_ := fun c => do let _ ← body .connFinishCb c

/-- The callbacks nested at most `depth` deep: `body` is given the callbacks
    one level below, for what it calls back into. -/
def nestedCallbacks (body : Callbacks σ → Invocation → ConnId → LoopM σ Int) :
    (depth : Nat) → Callbacks σ
  | 0 => callbacksOf fun _ _ => throw .outOfFuel
  | depth + 1 => callbacksOf (body (nestedCallbacks body depth))

/-- Induction on the nesting depth. -/
theorem nestedCallbacks_induction {body : Callbacks σ → Invocation → ConnId → LoopM σ Int}
    {P : Callbacks σ → Prop} (hzero : P (callbacksOf fun _ _ => throw .outOfFuel))
    (hsucc : ∀ cbs, P cbs → P (callbacksOf (body cbs))) (depth : Nat) :
    P (nestedCallbacks body depth) := by
  induction depth with
  | zero => exact hzero
  | succ depth ih => exact hsucc _ ih

theorem keepCallbacks_callbacksOf {live : Halt → Prop} {I : World σ → Prop} {c : ConnId}
    {body : Invocation → ConnId → LoopM σ Int} (h : ∀ i, Maintains live I (body i c)) :
    KeepCallbacks live I c (callbacksOf body) where
  decodeCb := fun buffer buffLen => h (.decodeCb buffer buffLen)
  msgCommitCb := fun b => (h (.msgCommitCb b)).bind fun _ => Maintains.pure ()
  sentBytesCb := fun bytes => (h (.sentBytesCb bytes)).bind fun _ => Maintains.pure ()
  connCloseCb := (h .connCloseCb).bind fun _ => Maintains.pure ()
  connFinishCb := (h .connFinishCb).bind fun _ => Maintains.pure ()

/-- The case in which every callback keeps the invariant. -/
theorem nestedCallbacks_keep {live : Halt → Prop} {I : World σ → Prop} {c : ConnId}
    {body : Callbacks σ → Invocation → ConnId → LoopM σ Int}
    (hbody : ∀ cbs, KeepCallbacks live I c cbs → ∀ i, Maintains live I (body cbs i c))
    (depth : Nat) : KeepCallbacks live I c (nestedCallbacks body depth) :=
  nestedCallbacks_induction (keepCallbacks_callbacksOf fun _ => Maintains.throw _)
    (fun cbs hcbs => keepCallbacks_callbacksOf (hbody cbs hcbs)) depth

end XConnection

end XFast
