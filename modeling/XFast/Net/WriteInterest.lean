import XFast.Net.ConnectionRules

/-! # Write interest

    Three copies of one fact: `writeBuff_` has pending bytes, `writeEnabled_`
    is set, and the mask that the loop holds for the descriptor contains
    `XE_WRITABLE`.  `updateWriteEvent` makes them agree whenever it is
    reached and the event need not be taken away.

    Two exits spoil the agreement.  A write that fails leaves `sendMsg` before
    `updateWriteEvent`, so a backlog stays without the event if the event was
    not on already.  And `removeEvent` or-s the complement of the event into
    the mask, which takes nothing away.  As long as a run meets neither, the
    three copies agree between any two inputs. -/

namespace XFast

open Program FileApi XConnStatus

variable {σ : Type}

/-! ## Section 1: The steps that spoil the agreement -/

/-- What `writeFd` returns for these outcomes. -/
def flushReturn (outs : List WriteOutcome) : Int :=
  if Fails outs then -1 else toInt32 (taken outs)

theorem writeFd_ret {outs : List WriteOutcome} {mem : List UInt8} {count : Int}
    {r : WriteResult} (h : FileApi.writeFd outs mem count = .ok r) :
    r.ret = flushReturn outs := by
  obtain ⟨_, _, hend⟩ := writeFd_spec h
  unfold flushReturn
  cases hend with
  | done hf _ hcount hret =>
    rw [if_neg hf, hret, ← hcount, Int.zero_add]
  | zero hf _ hret =>
    rw [if_neg hf, hret, Int.zero_add]
  | failed e hf _ hret _ =>
    rw [if_pos ⟨e, hf⟩, hret]

/-- A write that fails while the writable event is off, and taking the event
    away. -/
def ConnEvent.spoils : ConnEvent → Bool
  | .flush false outs _ => flushReturn outs < 0
  | .disarm => true
  | _ => false

/-- No event of the trace spoils the agreement. -/
def Smooth (es : List ConnEvent) : Prop := ∀ e ∈ es, e.spoils = false

instance (es : List ConnEvent) : Decidable (Smooth es) :=
  inferInstanceAs (Decidable (∀ e ∈ es, e.spoils = false))

theorem smooth_snoc {es : List ConnEvent} {e : ConnEvent} :
    Smooth (es ++ [e]) ↔ Smooth es ∧ e.spoils = false := by
  simp [Smooth, or_imp, forall_and]

namespace XConnection

/-! ## Section 2: The invariants -/

/-- The flag and the mask of the registered descriptor agree. -/
structure Flagged (c : ConnId) (w : World σ) : Prop where
  valid : (w.conns c).writeBuff_.Valid
  registered : (w.conns c).connStatus_ = XF_CONN_STATUS_CONNECTED →
    ∃ xes, w.loop.register_ (w.conns c).sock_ = some xes ∧
      ((w.conns c).writeEnabled_ = true ↔ xes.mask.Has XE_WRITABLE)

/-- The backlog and the flag agree. -/
def Backlogged (c : ConnId) (w : World σ) : Prop :=
  (w.conns c).connStatus_ = XF_CONN_STATUS_CONNECTED →
    ((w.conns c).writeBuff_.readable ≠ [] ↔ (w.conns c).writeEnabled_ = true)

/-- What holds inside `sendMsg`: flag and mask agree in a smooth run. -/
def FlagInv (c : ConnId) (w : World σ) : Prop := Smooth (w.trace c) → Flagged c w

/-- What holds between two inputs: all three agree in a smooth run. -/
def CoupledInv (c : ConnId) (w : World σ) : Prop :=
  Smooth (w.trace c) → Flagged c w ∧ Backlogged c w

/-- The process goes on after an exception only. -/
def Survives (e : Halt) : Prop := e = .exception

variable {c : ConnId} {w w' : World σ} {cbs : Callbacks σ} {fuel : Nat}

theorem CoupledInv.flagInv (h : CoupledInv c w) : FlagInv c w := fun hs => (h hs).1

theorem Flagged.congr (h : Flagged c w)
    (hbuff : (w'.conns c).writeBuff_ = (w.conns c).writeBuff_)
    (hflag : (w'.conns c).writeEnabled_ = (w.conns c).writeEnabled_)
    (hsock : (w'.conns c).sock_ = (w.conns c).sock_)
    (hstatus : (w'.conns c).connStatus_ = (w.conns c).connStatus_)
    (hloop : w'.loop = w.loop) : Flagged c w' where
  valid := by rw [hbuff]; exact h.valid
  registered := by rw [hflag, hsock, hstatus, hloop]; exact h.registered

theorem Backlogged.congr (h : Backlogged c w)
    (hbuff : (w'.conns c).writeBuff_ = (w.conns c).writeBuff_)
    (hflag : (w'.conns c).writeEnabled_ = (w.conns c).writeEnabled_)
    (hstatus : (w'.conns c).connStatus_ = (w.conns c).connStatus_) : Backlogged c w' := by
  unfold Backlogged
  rw [hbuff, hflag, hstatus]
  exact h

theorem flagInv_ignoresInput : IgnoresInput (FlagInv c : World σ → Prop) c where
  script := fun _ _ h hs => (h hs).congr rfl rfl rfl rfl rfl
  reads := fun _ _ h hs => (h hs).congr rfl rfl rfl rfl rfl
  errno := fun _ _ h hs => (h hs).congr rfl rfl rfl rfl rfl
  readBuff := fun _ _ h hs => (h hs).congr (by simp) (by simp) (by simp) (by simp) rfl

theorem coupledInv_ignoresInput : IgnoresInput (CoupledInv c : World σ → Prop) c where
  script := fun _ _ h hs =>
    ⟨(h hs).1.congr rfl rfl rfl rfl rfl, (h hs).2.congr rfl rfl rfl⟩
  reads := fun _ _ h hs =>
    ⟨(h hs).1.congr rfl rfl rfl rfl rfl, (h hs).2.congr rfl rfl rfl⟩
  errno := fun _ _ h hs =>
    ⟨(h hs).1.congr rfl rfl rfl rfl rfl, (h hs).2.congr rfl rfl rfl⟩
  readBuff := fun _ _ h hs =>
    ⟨(h hs).1.congr (by simp) (by simp) (by simp) (by simp) rfl,
      (h hs).2.congr (by simp) (by simp) (by simp)⟩

theorem flagInv_emit (e : ConnEvent) :
    Maintains Survives (FlagInv c : World σ → Prop) (emit c e) := by
  intro w h hs
  rw [World.log_self, smooth_snoc] at hs
  exact (h hs.1).congr rfl rfl rfl rfl rfl

theorem coupledInv_emit (e : ConnEvent) :
    Maintains Survives (CoupledInv c : World σ → Prop) (emit c e) := by
  intro w h hs
  rw [World.log_self, smooth_snoc] at hs
  exact ⟨(h hs.1).1.congr rfl rfl rfl rfl rfl, (h hs.1).2.congr rfl rfl rfl⟩

/-- Where the connection is not connected, a valid buffer is all there is to
    show. -/
theorem coupledInv_of_not_connected (hv : Smooth (w.trace c) → (w.conns c).writeBuff_.Valid)
    (hstatus : (w.conns c).connStatus_ ≠ XF_CONN_STATUS_CONNECTED) : CoupledInv c w := by
  intro hs
  exact ⟨⟨hv hs, fun h => absurd h hstatus⟩, fun h => absurd h hstatus⟩

/-! ## Section 3: `sendMsg` -/

/-- A flush of a backlog keeps flag and mask; when it returns a negative
    number in a smooth run, the event was on, so all three agree. -/
theorem wp_flushBacklog_flagInv (h : FlagInv c w)
    (hpending : (w.conns c).writeBuff_.readableBytes ≠ 0) :
    wp (flushBacklog c) (fun sent w' => FlagInv c w' ∧ (sent < 0 → CoupledInv c w'))
      (fun e w' => Survives e → CoupledInv c w') w := by
  show wp (writeFd c >>= fun sent => _) _ _ w
  rw [wp_bind, wp_writeFd]
  cases hwrites : w.writes with
  | nil => exact fun he => Halt.noConfusion he
  | cons outs rest =>
    dsimp only
    cases hr : FileApi.writeFd outs (w.conns c).writeBuff_.peek
        (toInt32 (w.conns c).writeBuff_.readableBytes) with
    | error e =>
      intro he
      rw [eq_of_writeFd_error hr] at he
      cases he
    | ok r =>
      have hret : r.ret = flushReturn outs := writeFd_ret hr
      dsimp only
      rw [wp_ite]
      split
      · rename_i hneg
        -- the backlog is as it was: the event must have been on
        have hcoupled : CoupledInv c ((({ w with
            writes := rest, errno := r.errno.getD w.errno } : World σ)).log c
            (.flush (w.conns c).writeEnabled_ outs r.accepted)) := by
          intro hs
          rw [World.log_self, smooth_snoc] at hs
          have hflag := h hs.1
          have hon : (w.conns c).writeEnabled_ = true := by
            cases hwe : (w.conns c).writeEnabled_ with
            | true => rfl
            | false =>
              have hspoils := hs.2
              rw [hwe] at hspoils
              have hno : ¬ flushReturn outs < 0 := by simpa [ConnEvent.spoils] using hspoils
              exact absurd (hret ▸ hneg) hno
          refine ⟨hflag.congr rfl rfl rfl rfl rfl, fun _ => ?_⟩
          constructor
          · intro _
            exact hon
          · intro _ hnil
            exact hpending (hflag.valid.readable_eq_nil_iff.mp hnil)
        exact ⟨hcoupled.flagInv, fun _ => hcoupled⟩
      · rename_i hnonneg
        rw [wp_bind, wp_onWriteBuff, World.log_conns]
        split
        · rename_i b hb
          refine ⟨?_, fun hneg => absurd hneg hnonneg⟩
          intro hs
          rw [World.setConn_trace, World.log_self, smooth_snoc] at hs
          have hflag := h hs.1
          obtain ⟨_, hv, _⟩ := XBuffer.moveOver_ok hflag.valid hb
          constructor
          · simpa using hv
          · simpa using hflag.registered
        · rename_i e hb
          intro he
          rw [XBuffer.eq_of_moveOver_error hb] at he
          cases he

/-- The end of `sendMsg` makes the three copies agree. -/
theorem wp_updateWriteEvent_coupledInv (h : FlagInv c w) :
    wp (updateWriteEvent c) (fun _ => CoupledInv c) (fun e w' => Survives e → CoupledInv c w')
      w := by
  show wp (get >>= fun w => _) _ _ w
  rw [wp_bind, wp_get]
  dsimp only
  rw [wp_ite]
  split
  · rename_i hcase
    obtain ⟨hpending, hoff⟩ := hcase
    rw [wp_bind, wp_onLoop]
    split
    · rename_i loop' hadd
      -- the event is in the mask now, and the flag is set
      intro hs
      have hflag := h hs
      refine ⟨⟨by simpa using hflag.valid, ?_⟩, ?_⟩
      · intro hconn
        simp only [World.setConn_self] at hconn ⊢
        obtain ⟨xes, hxes, _⟩ := hflag.registered hconn
        have hreg := XLoop.addEvent_register hxes hadd
        refine ⟨_, by rw [World.setConn_loop, hreg, Function.update_self], ?_⟩
        simp only [true_iff]
        split
        · assumption
        · show (xes.mask ||| XE_WRITABLE) &&& XE_WRITABLE ≠ 0
          rw [Mask.or_and_self]
          decide
      · intro _
        simp only [World.setConn_self, iff_true]
        intro hnil
        exact hpending (hflag.valid.readable_eq_nil_iff.mp hnil)
    · rename_i e hadd
      intro he
      rw [XLoop.addEvent_error hadd] at he
      cases he
  · rename_i hcase
    rw [wp_ite]
    split
    · -- the event is taken away: the run is not smooth
      have hspoilt : ∀ w' : World σ, w'.trace c = w.trace c ++ [.disarm] → CoupledInv c w' := by
        intro w' htrace hs
        rw [htrace, smooth_snoc] at hs
        cases hs.2
      rw [wp_bind, wp_emit, wp_bind, wp_onLoop]
      split
      · exact hspoilt _ (by simp [World.log])
      · exact fun _ => hspoilt _ (by simp)
    · rename_i hcase'
      intro hs
      have hflag := h hs
      refine ⟨hflag, fun _ => ?_⟩
      rw [ne_eq, hflag.valid.readable_eq_nil_iff]
      cases hwe : (w.conns c).writeEnabled_ with
      | true => simpa [hwe] using hcase'
      | false => simpa [hwe] using hcase

/-- Taking the event away always spoils the agreement: the flag goes off, and
    the mask keeps `XE_WRITABLE`. -/
theorem wp_updateWriteEvent_disarm (h : Flagged c w)
    (hconn : (w.conns c).connStatus_ = XF_CONN_STATUS_CONNECTED)
    (hempty : (w.conns c).writeBuff_.readableBytes = 0)
    (hon : (w.conns c).writeEnabled_ = true) :
    wp (updateWriteEvent c)
      (fun _ w' => (w'.conns c).writeEnabled_ = false ∧
        ∃ mask, w'.loop.maskOf (w'.conns c).sock_ = some mask ∧ mask.Has XE_WRITABLE)
      (fun _ _ => True) w := by
  obtain ⟨xes, hxes, hiff⟩ := h.registered hconn
  show wp (get >>= fun w => _) _ _ w
  rw [wp_bind, wp_get, wp_ite, if_neg (by simp [hempty]), wp_ite, if_pos ⟨hempty, hon⟩, wp_bind,
    wp_emit, wp_bind, wp_onLoop, World.log_loop]
  split
  · rename_i loop' hremove
    obtain ⟨hreg, hstill⟩ := XLoop.removeEvent_register hxes (hiff.mp hon) hremove
    show (World.conns _ c).writeEnabled_ = false ∧ _
    simp only [World.setConn_self, World.setConn_loop, World.log_conns, XLoop.maskOf, hreg,
      Function.update_self, Option.map_some, true_and]
    exact ⟨_, rfl, hstill⟩
  · trivial

/-- `sentBytesCb_` may do anything but its exceptions stay inside. -/
theorem wp_callSentBytes_flagInv (hcbs : KeepCallbacks Survives (FlagInv c) c cbs) (sent : Nat)
    (h : FlagInv c w) :
    wp (callSentBytes cbs c sent) (fun _ => FlagInv c) (fun e _ => ¬ Survives e) w := by
  show wp (get >>= fun w => _) _ _ w
  rw [wp_bind, wp_get, wp_ite]
  split
  · rw [wp_bind, wp_emit, wp_catching]
    apply wp_mono (fun _ _ h => h) _
      (hcbs.sentBytesCb sent _ (flagInv_emit (.sentBytes sent) w h))
    intro e w' hw'
    by_cases he : isException e
    · rw [if_pos he]
      have hexc := eq_of_isException he
      exact hw' hexc
    · rw [if_neg he]
      intro hlive
      exact he (decide_eq_true hlive)
  · exact h

/-- However the copies stand when it is called, `sendMsg` leaves them in
    agreement. -/
theorem wp_sendMsg_coupledInv (hcbs : KeepCallbacks Survives (FlagInv c) c cbs)
    (h : FlagInv c w) :
    wp (sendMsg cbs c) (fun _ => CoupledInv c) (fun e w' => Survives e → CoupledInv c w') w := by
  show wp (get >>= fun w => _) _ _ w
  rw [wp_bind, wp_get, wp_ite]
  split
  · rename_i hstatus
    exact coupledInv_of_not_connected (fun hs => (h hs).valid) hstatus
  · rw [wp_ite]
    split
    · rename_i hpending
      rw [wp_bind]
      apply wp_mono _ (fun _ _ he => he) (wp_flushBacklog_flagInv h hpending)
      intro sent w₁ hwhen
      obtain ⟨hflag, hneg⟩ := hwhen
      rw [wp_ite]
      split
      · rename_i hlt
        exact hneg hlt
      · rw [wp_bind]
        -- a nested `sendMsg` may have changed all three copies: only the flag is known
        apply wp_mono _ _ (wp_callSentBytes_flagInv hcbs _ hflag)
        · intro _ w₂ hflag₂
          rw [wp_bind]
          exact wp_updateWriteEvent_coupledInv hflag₂
        · intro e _ hdead hlive
          exact absurd hlive hdead
    · rw [wp_bind]
      exact wp_updateWriteEvent_coupledInv h

/-! ## Section 4: Every part keeps the agreement

    The callbacks have to keep both invariants: the weaker one inside
    `sendMsg`, the stronger one everywhere else. -/

/-- An invariant between the one inside `sendMsg` and the one between inputs. -/
structure Coupling (I : World σ → Prop) (c : ConnId) : Prop where
  of_coupledInv : ∀ w, CoupledInv c w → I w
  flagInv : ∀ w, I w → FlagInv c w
  ignoresInput : IgnoresInput I c
  emit : ∀ e, Maintains Survives I (emit c e)

theorem coupling_flagInv : Coupling (FlagInv c : World σ → Prop) c :=
  ⟨fun _ h => h.flagInv, fun _ h => h, flagInv_ignoresInput, flagInv_emit⟩

theorem coupling_coupledInv : Coupling (CoupledInv c : World σ → Prop) c :=
  ⟨fun _ h => h, fun _ h => h.flagInv, coupledInv_ignoresInput, coupledInv_emit⟩

section parts

variable {I : World σ → Prop}

theorem coupling_sendMsg (hI : Coupling I c)
    (hflag : KeepCallbacks Survives (FlagInv c) c cbs) : Maintains Survives I (sendMsg cbs c) := by
  intro w h
  apply wp_mono _ _ (wp_sendMsg_coupledInv hflag (hI.flagInv w h))
  · intro _ w' hw'
    exact hI.of_coupledInv w' hw'
  · intro e w' hw' hlive
    exact hI.of_coupledInv w' (hw' hlive)

theorem coupling_sendMsgToBuffer (hI : Coupling I c)
    (hflag : KeepCallbacks Survives (FlagInv c) c cbs) (msg : List UInt8) :
    Maintains Survives I (sendMsgToBuffer cbs c msg) := by
  intro w h
  show wp ((onWriteBuff c (·.append msg) >>= fun _ => emit c (.append msg)) >>= fun _ =>
    sendMsg cbs c >>= fun _ => pure ()) _ _ w
  rw [wp_bind, wp_bind, wp_onWriteBuff]
  split
  · rename_i b hb
    -- from here on only the flag and the mask agree, until `sendMsg` is through
    have hmid : FlagInv c ((w.setConn c { w.conns c with writeBuff_ := b }).log c
        (.append msg)) := by
      intro hs
      rw [World.log_self, smooth_snoc] at hs
      have hold := hI.flagInv w h hs.1
      constructor
      · simpa using (XBuffer.append_ok hold.valid hb).1
      · simpa using hold.registered
    rw [wp_emit, wp_bind]
    apply wp_mono _ _ (wp_sendMsg_coupledInv hflag hmid)
    · intro _ w' hw'
      exact hI.of_coupledInv w' hw'
    · intro e w' hw' hlive
      exact hI.of_coupledInv w' (hw' hlive)
  · exact fun _ => h

theorem coupling_beginClose (hI : Coupling I c) : Maintains Survives I (beginClose c) := by
  intro w h
  show wp (get >>= fun w => _) _ _ w
  rw [wp_bind, wp_get, wp_ite]
  split
  · exact h
  · -- once the status has changed there is nothing left to agree on
    have hclosed : ∀ w' : World σ, w'.trace c = w.trace c →
        w'.conns c = { w.conns c with connStatus_ := XF_CONN_STATUS_DISCONNECTING } →
        CoupledInv c w' := by
      intro w' htrace hconn
      apply coupledInv_of_not_connected
      · intro hs
        rw [hconn]
        exact (hI.flagInv w h (htrace ▸ hs)).valid
      · rw [hconn]
        simp
    rw [wp_bind, wp_modify, wp_bind, wp_onLoop]
    split
    · rename_i loop' _
      have hmid : CoupledInv c ({ w.setConn c { w.conns c with
          connStatus_ := XF_CONN_STATUS_DISCONNECTING } with loop := loop' } : World σ) :=
        hclosed _ rfl (World.setConn_self ..)
      rw [wp_ite]
      split
      · rw [wp_bind, wp_emit]
        apply hI.of_coupledInv
        exact coupledInv_emit .connClose _ hmid
      · exact hI.of_coupledInv _ hmid
    · intro _
      exact hI.of_coupledInv _ (hclosed _ rfl (World.setConn_self ..))

theorem coupling_parts (hI : Coupling I c) (hflag : KeepCallbacks Survives (FlagInv c) c cbs)
    (hcbs : KeepCallbacks Survives I c cbs) : KeepParts Survives I fuel c cbs where
  sendMsgToBuffer := coupling_sendMsgToBuffer hI hflag
  beginClose := coupling_beginClose hI
  dispatch := dispatch_maintains rfl hI.ignoresInput hcbs (fun e _ => hI.emit e)
    (coupling_sendMsg hI hflag) (coupling_beginClose hI)

end parts

/-- The first step of `makeConnected` registers the descriptor for reading
    only, and nothing is pending yet. -/
theorem wp_beginConnected_coupledInv {w₀ : World σ} (hinit : Initial c w₀) :
    wp (beginConnected c) (fun _ => CoupledInv c) (fun e w => Survives e → CoupledInv c w) w₀ := by
  obtain ⟨sock, sb, dec, cc, hnew⟩ := hinit.constructed
  rw [XConnection.new_eq, Except.ok.injEq] at hnew
  have hbuff : (w₀.conns c).writeBuff_ = XBuffer.fresh XBuffer.kInitialSize := by rw [← hnew]; rfl
  have hoff : (w₀.conns c).writeEnabled_ = false := by rw [← hnew]; rfl
  show wp (get >>= fun w => _) _ _ w₀
  rw [wp_bind, wp_get, wp_bind, wp_modify, wp_bind, wp_onLoop]
  split
  · rename_i loop' hreg
    rw [wp_emit]
    intro _
    refine ⟨⟨?_, ?_⟩, ?_⟩
    · simp only [World.log_conns, World.setConn_self, hbuff]
      exact XBuffer.valid_fresh (by decide)
    · intro _
      refine ⟨⟨XE_READABLE, 0, .connHandleEvent c⟩, ?_, ?_⟩
      · have hsock := XLoop.reg_register hreg
        simp only [World.log_loop, World.log_conns, World.setConn_self, hsock,
          Function.update_self]
      · simp only [World.log_conns, World.setConn_self, hoff]
        decide
    · intro _
      simp only [World.log_conns, World.setConn_self, hbuff, hoff, XBuffer.readable_fresh]
      decide
  · rename_i e hreg
    intro hlive
    rw [XLoop.reg_error hreg] at hlive
    cases hlive

/-! ## Section 5: Runs -/

/-- **Write-interest coupling.**  In every run in which no write failed while
    the writable event was off, and the writable event was never to be taken
    away, the following holds between any two inputs, for a connection that
    is connected: bytes are pending if and only if `writeEnabled_` is set, if
    and only if the mask of its descriptor contains `XE_WRITABLE`. -/
theorem write_interest_coupled {w₀ w : World σ} (hinit : Initial c w₀) (depth fuel : Nat)
    (inputs : List Input)
    (hrun : (runConnection (userCallbacks depth) fuel c inputs).run w₀ = .ok () w)
    (hsmooth : Smooth (w.trace c))
    (hconn : (w.conns c).connStatus_ = XF_CONN_STATUS_CONNECTED) :
    ((w.conns c).writeBuff_.readable ≠ [] ↔ (w.conns c).writeEnabled_ = true) ∧
      ((w.conns c).writeEnabled_ = true ↔
        ∃ mask, w.loop.maskOf (w.conns c).sock_ = some mask ∧ mask.Has XE_WRITABLE) := by
  -- first the invariant inside `sendMsg`, over the nesting depth; then the one between inputs
  have hflag : ∀ depth, KeepCallbacks Survives (FlagInv c) c (userCallbacks depth : Callbacks σ) := by
    apply keepCallbacks_userCallbacks flagInv_ignoresInput.script
    · intro depth hcbs
      exact sendMsgString_maintains (coupling_sendMsgToBuffer coupling_flagInv hcbs)
    · intro depth hcbs
      exact closeConnection_maintains
        (closeConn_maintains rfl hcbs (coupling_beginClose coupling_flagInv))
  have hparts : ∀ depth, KeepCallbacks Survives (CoupledInv c : World σ → Prop) c
      (userCallbacks depth) → KeepParts Survives (CoupledInv c) fuel c (userCallbacks depth) :=
    fun depth hcbs => coupling_parts coupling_coupledInv (hflag depth) hcbs
  have hlive : Survives .exception := rfl
  have hkeeps := runConnection_keeps hlive coupledInv_ignoresInput.script hparts
    (wp_beginConnected_coupledInv hinit) depth inputs
  obtain ⟨hflagged, hback⟩ := wp_run_ok hkeeps hrun hsmooth
  refine ⟨hback hconn, ?_⟩
  obtain ⟨xes, hxes, hiff⟩ := hflagged.registered hconn
  rw [hiff]
  constructor
  · intro hhas
    exact ⟨xes.mask, by rw [XLoop.maskOf, hxes]; rfl, hhas⟩
  · intro hwhen
    obtain ⟨mask, hmask, hhas⟩ := hwhen
    rw [XLoop.maskOf, hxes, Option.map_some, Option.some.injEq] at hmask
    exact hmask ▸ hhas

/-- A run that is still smooth although the socket filled up once: the first
    message is taken in part, and the second one finds the event on. -/
theorem write_interest_coupled_backlog : ∃ w : World Unit,
    (runConnection (userCallbacks 1) 0 0 [.sendMsg [1, 2], .sendMsg [3]]).run
      (World.start false false false [[.wrote 1, .zero], [.fail .EAGAIN]] [] [⟨[], false, 0⟩]) =
        .ok () w ∧
    (w.conns 0).writeBuff_.readable = [2, 3] ∧ (w.conns 0).writeEnabled_ = true ∧
    ((w.conns 0).writeBuff_.readable ≠ [] ↔ (w.conns 0).writeEnabled_ = true) ∧
      ((w.conns 0).writeEnabled_ = true ↔
        ∃ mask, w.loop.maskOf (w.conns 0).sock_ = some mask ∧ mask.Has XE_WRITABLE) := by
  have hrun := eq_ok_of_returned (r := (runConnection (userCallbacks 1) 0 0
    [.sendMsg [1, 2], .sendMsg [3]]).run (World.start false false false
      [[.wrote 1, .zero], [.fail .EAGAIN]] [] [⟨[], false, 0⟩])) (by decide +kernel)
  refine ⟨_, hrun, ?_, ?_, write_interest_coupled (World.initial_start ..) 1 0 _ hrun ?_ ?_⟩
  all_goals decide +kernel

/-- The socket is full at once: two bytes are pending, and the writable event
    is off. -/
theorem stalled_backlog_not_armed : ∃ w₀ w : World Unit, Initial 0 w₀ ∧
    (runConnection (userCallbacks 1) 0 0 [.sendMsg [1, 2]]).run w₀ = .ok () w ∧
    (w.conns 0).connStatus_ = XF_CONN_STATUS_CONNECTED ∧
    (w.conns 0).writeBuff_.readable = [1, 2] ∧ (w.conns 0).writeEnabled_ = false ∧
    w.loop.maskOf (w.conns 0).sock_ = some XE_READABLE ∧
    ¬ ((w.conns 0).writeBuff_.readable ≠ [] ↔ (w.conns 0).writeEnabled_ = true) := by
  refine ⟨World.start false false false [[.fail .EAGAIN]] [] [⟨[], false, 0⟩], _,
    World.initial_start .., eq_ok_of_returned (by decide +kernel), ?_⟩
  decide +kernel

end XConnection

end XFast
