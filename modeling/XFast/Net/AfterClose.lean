import XFast.Framework.Trace
import XFast.Net.ConnectionRules
import XFast.Net.ScatterRead

/-! # No callback after the close callback

    After `connCloseCb_` has been invoked, none of `decodeCb_`,
    `msgCommitCb_` and `sentBytesCb_` may be invoked again.

    `sendMsg` checks the status before it invokes anything, and the loop
    dispatches to registered descriptors only.  What checks nothing is the
    parse loop: when a decode or commit callback closes the connection and
    the loop has something left to do, it goes on.  The events after which it
    goes on are a decode callback that returns a length, and a commit
    callback that returns with bytes left in `readBuff_`. -/

namespace XFast

open Program Trace XConnStatus

variable {σ : Type}

/-! ## Section 1: The events -/

namespace ConnEvent

/-- One of the three callbacks is invoked. -/
def isCallback : ConnEvent → Bool
  | .decode | .msgCommit _ | .sentBytes _ => true
  | _ => false

/-- A callback returns, and the parse loop has something left to do: a frame
    to commit, or bytes to decode. -/
def resumesParse : ConnEvent → Bool
  | .decodeReturn ret => 0 ≤ ret
  | .commitReturn left => 0 < left
  | _ => false

end ConnEvent

/-- No callback of the three is invoked after the close callback. -/
def SilentAfterClose (es : List ConnEvent) : Prop :=
  NoneAfter .connClose ConnEvent.isCallback es

/-- No decode or commit callback leaves a closed connection to the parse loop
    with something left to do. -/
def StopsAfterClose (es : List ConnEvent) : Prop :=
  NoneAfter .connClose ConnEvent.resumesParse es

instance (es : List ConnEvent) : Decidable (SilentAfterClose es) :=
  inferInstanceAs (Decidable (NoneAfter _ _ es))

instance (es : List ConnEvent) : Decidable (StopsAfterClose es) :=
  inferInstanceAs (Decidable (NoneAfter _ _ es))

namespace XConnection

/-! ## Section 2: The invariant -/

/-- A closed connection is neither connected nor registered; and as long as
    the callbacks leave the parse loop nothing to do, it is silent. -/
structure CloseInv (c : ConnId) (w : World σ) : Prop where
  silent : StopsAfterClose (w.trace c) → SilentAfterClose (w.trace c)
  closed : .connClose ∈ w.trace c →
    (w.conns c).connStatus_ = XF_CONN_STATUS_DISCONNECTING ∧
      ∀ fd, w.loop.callbackOf fd ≠ some (.connHandleEvent c)
  own : ∀ fd, w.loop.callbackOf fd = some (.connHandleEvent c) → fd = (w.conns c).sock_
  valid : (w.conns c).readBuff_.Valid

/-- Moreover the connection has not been closed, unless a callback has left
    the parse loop something to do. -/
structure OpenInv (c : ConnId) (w : World σ) : Prop extends CloseInv c w where
  isOpen : StopsAfterClose (w.trace c) → .connClose ∉ w.trace c

variable {c : ConnId} {w w' : World σ} {live : Halt → Prop} {cbs : Callbacks σ}

/-- The invariant survives a change that adds no registration. -/
theorem CloseInv.congr (h : CloseInv c w) (htrace : w'.trace c = w.trace c)
    (hstatus : (w'.conns c).connStatus_ = (w.conns c).connStatus_)
    (hsock : (w'.conns c).sock_ = (w.conns c).sock_)
    (hread : (w'.conns c).readBuff_.Valid)
    (hloop : ∀ fd cb, w'.loop.callbackOf fd = some cb → w.loop.callbackOf fd = some cb) :
    CloseInv c w' where
  silent := by rw [htrace]; exact h.silent
  closed := by
    rw [htrace, hstatus]
    intro hmem
    obtain ⟨hst, hreg⟩ := h.closed hmem
    exact ⟨hst, fun fd hfd => hreg fd (hloop fd _ hfd)⟩
  own := by
    rw [hsock]
    intro fd hfd
    exact h.own fd (hloop fd _ hfd)
  valid := hread

theorem OpenInv.congr (h : OpenInv c w) (htrace : w'.trace c = w.trace c)
    (hstatus : (w'.conns c).connStatus_ = (w.conns c).connStatus_)
    (hsock : (w'.conns c).sock_ = (w.conns c).sock_)
    (hread : (w'.conns c).readBuff_.Valid)
    (hloop : ∀ fd cb, w'.loop.callbackOf fd = some cb → w.loop.callbackOf fd = some cb) :
    OpenInv c w' where
  toCloseInv := h.toCloseInv.congr htrace hstatus hsock hread hloop
  isOpen := by rw [htrace]; exact h.isOpen

theorem OpenInv.of_not_closed (h : CloseInv c w) (hopen : .connClose ∉ w.trace c) :
    OpenInv c w := ⟨h, fun _ => hopen⟩

/-- An event that is none of the three callbacks. -/
theorem CloseInv.log_other (h : CloseInv c w) {e : ConnEvent} (he : e ≠ .connClose)
    (hcb : e.isCallback = false) : CloseInv c (w.log c e) where
  silent := by
    rw [World.log_self]
    intro hstop
    exact noneAfter_snoc.mpr ⟨h.silent (noneAfter_snoc.mp hstop).1, fun _ => hcb⟩
  closed := by
    rw [World.log_self, List.mem_append, List.mem_singleton]
    intro hmem
    rcases hmem with hmem | heq
    · exact h.closed hmem
    · exact absurd heq.symm he
  own := h.own
  valid := h.valid

/-- Any event but the close while the connection is open. -/
theorem OpenInv.log (h : OpenInv c w) {e : ConnEvent} (he : e ≠ .connClose) :
    OpenInv c (w.log c e) := by
  have hopen : StopsAfterClose ((w.log c e).trace c) → .connClose ∉ w.trace c := by
    rw [World.log_self]
    intro hstop
    exact h.isOpen (noneAfter_snoc.mp hstop).1
  refine ⟨⟨?_, ?_, h.own, h.valid⟩, ?_⟩
  · intro hstop
    have hnot := hopen hstop
    rw [World.log_self]
    exact noneAfter_snoc.mpr ⟨noneAfter_of_not_mem hnot, fun hmem => absurd hmem hnot⟩
  · rw [World.log_self, List.mem_append, List.mem_singleton]
    intro hmem
    rcases hmem with hmem | heq
    · exact h.closed hmem
    · exact absurd heq.symm he
  · intro hstop
    have hnot := hopen hstop
    rw [World.log_self, List.mem_append, List.mem_singleton]
    intro hmem
    rcases hmem with hmem | heq
    · exact hnot hmem
    · exact he heq.symm

/-- The return of a callback that leaves the parse loop something to do: the
    connection is open, or the run is not one that stops. -/
theorem CloseInv.log_resumes (h : CloseInv c w) {e : ConnEvent} (he : e ≠ .connClose)
    (hcb : e.isCallback = false) (hres : e.resumesParse = true) : OpenInv c (w.log c e) := by
  refine ⟨h.log_other he hcb, ?_⟩
  rw [World.log_self]
  intro hstop hmem
  rw [List.mem_append, List.mem_singleton] at hmem
  rcases hmem with hmem | heq
  · have hno := (noneAfter_snoc.mp hstop).2 hmem
    rw [hres] at hno
    cases hno
  · exact he heq.symm

theorem closeInv_script (w : World σ) (s : List CbScript) (h : CloseInv c w) :
    CloseInv c { w with script := s } := h.congr rfl rfl rfl h.valid fun _ _ h => h

/-! ## Section 3: Sending -/

theorem openInv_flushBacklog : Maintains live (OpenInv c : World σ → Prop) (flushBacklog c) := by
  have hwrite : Maintains live (OpenInv c : World σ → Prop) (writeFd c) := by
    intro w h
    rw [wp_writeFd]
    split
    · exact fun _ => h
    · split
      · apply OpenInv.log _ (by simp)
        exact h.congr rfl rfl rfl h.valid fun _ _ h => h
      · exact fun _ => h.congr rfl rfl rfl h.valid fun _ _ h => h
  apply hwrite.bind
  intro sent
  apply Maintains.ite (Maintains.pure _)
  apply Maintains.bind
  · intro w h
    rw [wp_onWriteBuff]
    split
    · exact h.congr rfl (by simp) (by simp) (by simpa using h.valid) fun _ _ h => h
    · exact fun _ => h
  · exact fun _ => Maintains.pure _

theorem closeInv_updateWriteEvent :
    Maintains live (CloseInv c : World σ → Prop) (updateWriteEvent c) := by
  have hset : ∀ we : Bool, Maintains live (CloseInv c : World σ → Prop)
      (modify fun w => w.setConn c { w.conns c with writeEnabled_ := we }) := by
    intro we
    apply Maintains.modify
    intro w h
    exact h.congr rfl (by simp) (by simp) (by simpa using h.valid) fun _ _ h => h
  apply Maintains.get.bind
  intro w₀
  apply Maintains.ite
  · apply Maintains.bind _ fun _ => hset true
    intro w h
    rw [wp_onLoop]
    split
    · rename_i loop' hadd
      refine h.congr rfl rfl rfl h.valid ?_
      intro fd cb hcb
      rwa [XLoop.addEvent_callbackOf hadd] at hcb
    · exact fun _ => h
  · apply Maintains.ite _ (Maintains.pure ())
    apply Maintains.bind
    · intro w h
      exact h.log_other (by simp) rfl
    · intro _
      apply Maintains.bind _ fun _ => hset false
      intro w h
      rw [wp_onLoop]
      split
      · rename_i loop' hremove
        exact h.congr rfl rfl rfl h.valid (XLoop.removeEvent_callbackOf hremove)
      · exact fun _ => h

/-- `sentBytesCb_` is invoked on an open connection. -/
theorem wp_callSentBytes_closeInv (hlive : live .exception)
    (hcbs : KeepCallbacks live (CloseInv c) c cbs) (sent : Nat) (h : OpenInv c w) :
    wp (callSentBytes cbs c sent) (fun _ => CloseInv c) (fun e w => live e → CloseInv c w) w := by
  show wp (get >>= fun w => _) _ _ w
  rw [wp_bind, wp_get, wp_ite]
  split
  · rw [wp_bind, wp_emit]
    have hcb : Maintains live (CloseInv c) (catching isException (cbs.sentBytesCb_ c sent)
        (pure ())) := (hcbs.sentBytesCb sent).catching (caught_live hlive) (Maintains.pure ())
    exact hcb _ (h.log (by simp)).toCloseInv
  · exact h.toCloseInv

theorem closeInv_sendMsg (hlive : live .exception)
    (hcbs : KeepCallbacks live (CloseInv c) c cbs) :
    Maintains live (CloseInv c) (sendMsg cbs c) := by
  intro w h
  show wp (get >>= fun w => _) _ _ w
  rw [wp_bind, wp_get, wp_ite]
  split
  · exact h
  · rename_i hstatus
    rw [wp_ite]
    split
    · -- connected, so not closed; and the flush runs no callback
      have hopen : OpenInv c w := by
        apply OpenInv.of_not_closed h
        intro hmem
        rw [(h.closed hmem).1] at hstatus
        exact hstatus (by simp)
      rw [wp_bind]
      have hflush : wp (flushBacklog c) (fun _ => OpenInv c) (fun e w => live e → CloseInv c w) w :=
        wp_mono (fun _ _ h => h) (fun _ _ he hl => (he hl).toCloseInv)
          (openInv_flushBacklog w hopen)
      apply wp_mono _ (fun _ _ he => he) hflush
      intro sent w₁ h₁
      rw [wp_ite]
      split
      · exact h₁.toCloseInv
      · rw [wp_bind]
        apply wp_mono _ (fun _ _ he => he) (wp_callSentBytes_closeInv hlive hcbs _ h₁)
        intro _ w₂ h₂
        exact (closeInv_updateWriteEvent.bind fun _ => Maintains.pure sent) w₂ h₂
    · exact (closeInv_updateWriteEvent.bind fun _ => Maintains.pure 0) w h

theorem closeInv_sendMsgToBuffer (hlive : live .exception)
    (hcbs : KeepCallbacks live (CloseInv c) c cbs) (msg : List UInt8) :
    Maintains live (CloseInv c) (sendMsgToBuffer cbs c msg) := by
  have happend : Maintains live (CloseInv c : World σ → Prop) (appendMsg c msg) := by
    apply Maintains.bind
    · intro w h
      rw [wp_onWriteBuff]
      split
      · exact h.congr rfl (by simp) (by simp) (by simpa using h.valid) fun _ _ h => h
      · exact fun _ => h
    · intro _ w h
      exact h.log_other (by simp) rfl
  apply happend.bind
  intro _
  exact (closeInv_sendMsg hlive hcbs).bind fun _ => Maintains.pure _

/-! ## Section 4: Closing -/

theorem closeInv_beginClose : Maintains live (CloseInv c : World σ → Prop) (beginClose c) := by
  intro w h
  show wp (get >>= fun w => _) _ _ w
  rw [wp_bind, wp_get, wp_ite]
  split
  · exact h
  · rename_i hstatus
    have hopen : .connClose ∉ w.trace c := by
      intro hmem
      exact hstatus (Or.inr (h.closed hmem).1)
    -- the status changes first; without a close event in the trace that is no matter
    have hmid : ∀ loop' : XLoop Handler,
        (∀ fd cb, loop'.callbackOf fd = some cb → w.loop.callbackOf fd = some cb) →
        CloseInv c ({ w.setConn c { w.conns c with
          connStatus_ := XF_CONN_STATUS_DISCONNECTING } with loop := loop' } : World σ) := by
      intro loop' hloop
      refine ⟨h.silent, fun hmem => absurd hmem hopen, ?_, by simpa using h.valid⟩
      intro fd hfd
      simpa using h.own fd (hloop fd _ hfd)
    rw [wp_bind, wp_modify, wp_bind, wp_onLoop]
    split
    · rename_i loop' hremove
      have hsub : ∀ fd cb, loop'.callbackOf fd = some cb → w.loop.callbackOf fd = some cb := by
        intro fd cb hcb
        rw [XLoop.remove_callbackOf hremove] at hcb
        split at hcb
        · cases hcb
        · exact hcb
      have hgone : ∀ fd, loop'.callbackOf fd ≠ some (.connHandleEvent c) := by
        intro fd hfd
        have hsock := h.own fd (hsub fd _ hfd)
        rw [XLoop.remove_callbackOf hremove, if_pos hsock] at hfd
        cases hfd
      have hclosed := hmid loop' hsub
      rw [wp_ite]
      split
      · rw [wp_bind, wp_emit]
        refine ⟨?_, ?_, hclosed.own, hclosed.valid⟩
        · rw [World.log_self]
          intro hstop
          exact noneAfter_snoc.mpr ⟨h.silent (noneAfter_snoc.mp hstop).1, fun _ => rfl⟩
        · intro _
          exact ⟨by simp, hgone⟩
      · exact hclosed
    · intro _
      exact hmid w.loop fun _ _ hcb => hcb

/-! ## Section 5: The parse loop -/

theorem wp_decode_closeInv (hcbs : KeepCallbacks live (CloseInv c) c cbs) (bufferSize : Int)
    (h : OpenInv c w) :
    wp (decode cbs c bufferSize)
      (fun ret w' => -(2 ^ 31) ≤ ret ∧ CloseInv c w' ∧ (0 ≤ ret → OpenInv c w'))
      (fun e w' => live e → CloseInv c w') w := by
  show wp (emit c .decode >>= fun _ => get >>= fun w => _) _ _ w
  rw [wp_bind, wp_emit, wp_bind, wp_get, wp_bind]
  apply wp_mono _ (fun _ _ he => he) (hcbs.decodeCb _ _ _ (h.log (by simp)).toCloseInv)
  intro ret w₁ h₁
  rw [wp_bind, wp_emit]
  refine ⟨le_toInt32 ret, h₁.log_other (by simp) rfl, ?_⟩
  intro hnonneg
  exact h₁.log_resumes (by simp) rfl (decide_eq_true hnonneg)

/-- A frame is committed on an open connection; a negative length commits
    nothing. -/
theorem wp_takeFrame_closeInv {n : Int} (hlo : -(2 ^ 31) ≤ n) (h : CloseInv c w)
    (hopen : 0 ≤ n → OpenInv c w) :
    wp (takeFrame c n) (fun _ => CloseInv c) (fun _ => CloseInv c) w := by
  unfold takeFrame
  rw [wp_bind]
  cases XBuffer.new (toSize n) with
  | error e => exact h
  | ok b =>
    rw [wp_lift_ok, wp_bind, wp_get, wp_bind]
    cases happ : b.appendMem (w.conns c).readBuff_.peek (toSize n) with
    | error e => exact h
    | ok b₁ =>
      have hnonneg : 0 ≤ n := by
        by_contra hneg
        -- the copy would read more than any object holds
        have hbig := le_toSize_of_neg hlo (by omega)
        have hle := XBuffer.appendMem_le_length happ
        have hmax := h.valid.size_le_max
        have hpeek : (w.conns c).readBuff_.peek.length ≤ (w.conns c).readBuff_.buffer_.length := by
          simp only [XBuffer.peek, List.length_drop]
          exact Nat.sub_le _ _
        have hvec : vectorMaxSize < 2 ^ 63 := by decide
        omega
      rw [wp_lift_ok, wp_bind, wp_onReadBuff]
      split
      · rename_i b₂ hmove
        obtain ⟨_, hv, _⟩ := XBuffer.moveOver_ok h.valid hmove
        rw [wp_bind, wp_emit]
        have hmoved : OpenInv c (w.setConn c { w.conns c with readBuff_ := b₂ }) :=
          (hopen hnonneg).congr rfl (by simp) (by simp) (by simpa using hv) fun _ _ h => h
        exact (hmoved.log (by simp)).toCloseInv
      · exact h

theorem wp_commit_closeInv (hcbs : KeepCallbacks live (CloseInv c) c cbs) (b : XBuffer)
    (h : CloseInv c w) :
    wp (commit cbs c b)
      (fun _ w' => CloseInv c w' ∧ ((w'.conns c).readBuff_.readableBytes ≠ 0 → OpenInv c w'))
      (fun e w' => live e → CloseInv c w') w := by
  show wp (cbs.msgCommitCb_ c b >>= fun _ => get >>= fun w => _) _ _ w
  rw [wp_bind]
  apply wp_mono _ (fun _ _ he => he) (hcbs.msgCommitCb b w h)
  intro _ w₁ h₁
  rw [wp_bind, wp_get, wp_emit]
  refine ⟨h₁.log_other (by simp) rfl, ?_⟩
  intro hleft
  exact h₁.log_resumes (by simp) rfl (decide_eq_true (Nat.pos_of_ne_zero hleft))

theorem closeInv_reset : Maintains live (CloseInv c : World σ → Prop)
    (onReadBuff c fun b => .ok b.reset) := by
  intro w h
  rw [wp_onReadBuff]
  exact h.congr rfl (by simp) (by simp) (by simpa using h.valid.reset) fun _ _ h => h

/-- Induction on the iterations: the loop is entered on an open connection, or
    with nothing to decode. -/
theorem wp_parseLoop_closeInv (hcbs : KeepCallbacks live (CloseInv c) c cbs) :
    ∀ (fuel : Nat) (w : World σ), CloseInv c w →
      ((w.conns c).readBuff_.readableBytes ≠ 0 → OpenInv c w) →
      wp (parseLoop cbs c fuel) (fun _ => CloseInv c) (fun e w' => live e → CloseInv c w') w := by
  intro fuel
  induction fuel with
  | zero =>
    intro w h _
    exact fun _ => h
  | succ fuel ih =>
    intro w h hopen
    show wp (get >>= fun w => _) _ _ w
    rw [wp_bind, wp_get, wp_ite]
    split
    · exact h
    · rename_i hbytes
      dsimp only
      rw [wp_bind]
      apply wp_mono _ (fun _ _ he => he) (wp_decode_closeInv hcbs _ (hopen hbytes))
      intro ret w₁ hret
      obtain ⟨hlo, h₁, hopen₁⟩ := hret
      rw [wp_ite]
      split
      · exact closeInv_reset w₁ h₁
      · rw [wp_ite]
        split
        · exact h₁
        · -- a length: the frame is taken, committed, and the loop goes on
          rw [wp_bind]
          have hsize := le_toInt32 (w.conns c).readBuff_.readableBytes
          have htake : ∀ n, -(2 ^ 31) ≤ n → (0 ≤ n → 0 ≤ ret) →
              wp (takeFrame c n) (fun _ => CloseInv c) (fun e w' => live e → CloseInv c w') w₁ := by
            intro n hn hnonneg
            exact wp_mono (fun _ _ h => h) (fun _ _ h _ => h)
              (wp_takeFrame_closeInv hn h₁ fun h0 => hopen₁ (hnonneg h0))
          apply wp_mono _ (fun _ _ he => he) (htake _ _ _)
          rotate_left
          · split <;> omega
          · split <;> omega
          intro b w₂ h₂
          rw [wp_bind]
          apply wp_mono _ (fun _ _ he => he) (wp_commit_closeInv hcbs b h₂)
          intro _ w₃ h₃
          exact ih w₃ h₃.1 h₃.2

theorem wp_parseProtocol_closeInv (hlive : live .exception)
    (hcbs : KeepCallbacks live (CloseInv c) c cbs) (fuel : Nat) (h : OpenInv c w) :
    wp (parseProtocol cbs fuel c) (fun _ => CloseInv c) (fun e w' => live e → CloseInv c w') w := by
  show wp (get >>= fun w => _) _ _ w
  rw [wp_bind, wp_get, wp_ite]
  split
  · rw [wp_catching]
    apply wp_mono (fun _ _ h => h) _
      (wp_parseLoop_closeInv hcbs fuel w h.toCloseInv fun _ => h)
    intro e w' hw'
    by_cases he : isException e
    · rw [if_pos he]
      exact closeInv_reset w' (hw' (caught_live hlive e he))
    · rw [if_neg he]
      exact hw'
  · exact h.toCloseInv

/-! ## Section 6: Runs -/

theorem openInv_readAvailable :
    Maintains live (OpenInv c : World σ → Prop) (readAvailable c) := by
  intro w h
  show wp (nextReads >>= fun outs => get >>= fun w => _) _ _ w
  rw [wp_bind, nextReads, wp_nextAnswer]
  split
  · exact fun _ => h
  · rename_i outs rest _
    rw [wp_bind, wp_get, wp_bind]
    cases hread : readLoop outs 0 (w.conns c).readBuff_ with
    | error e => exact fun _ => h.congr rfl rfl rfl h.valid fun _ _ h => h
    | ok r =>
      obtain ⟨size, errno, b⟩ := r
      have hv : b.Valid := (readLoop_ok h.valid hread).1
      exact h.congr rfl (by simp) (by simp) (by simpa using hv) fun _ _ h => h

theorem closeInv_dispatch (hlive : live .exception) (hcbs : KeepCallbacks live (CloseInv c) c cbs)
    (fuel : Nat) (fd : Fd) (emask : Mask) :
    Maintains live (CloseInv c) (dispatch cbs fuel c fd emask) := by
  have hconn : Maintains live (CloseInv c) (closeConn cbs c) :=
    closeConn_maintains hlive hcbs closeInv_beginClose
  have hwrite : Maintains live (CloseInv c) (handleWritable cbs c emask) := by
    apply Maintains.ite _ (Maintains.pure ())
    exact (closeInv_sendMsg hlive hcbs).bind fun ret => Maintains.ite hconn (Maintains.pure ())
  intro w h
  show wp (get >>= fun w => _) _ _ w
  rw [wp_bind, wp_get, wp_ite]
  split
  · rename_i hreg
    -- a registered connection has not been closed
    have hopen : OpenInv c w :=
      OpenInv.of_not_closed h fun hmem => (h.closed hmem).2 fd hreg
    have hread : wp (readMsg cbs fuel c) (fun _ => CloseInv c)
        (fun e w' => live e → CloseInv c w') w := by
      have hsize : wp (readAvailable c) (fun _ => OpenInv c)
          (fun e w' => live e → CloseInv c w') w :=
        wp_mono (fun _ _ h => h) (fun _ _ he hl => (he hl).toCloseInv)
          (openInv_readAvailable w hopen)
      show wp (readAvailable c >>= fun size => _) _ _ w
      rw [wp_bind]
      apply wp_mono _ (fun _ _ he => he) hsize
      intro size w₁ h₁
      cases size with
      | none => exact h₁.toCloseInv
      | some readSize =>
        show wp (if readSize > 0 then _ else _) _ _ w₁
        rw [wp_ite]
        split
        · rw [wp_bind]
          exact wp_mono (fun _ _ h => h) (fun _ _ h => h)
            (wp_parseProtocol_closeInv hlive hcbs fuel h₁)
        · exact h₁.toCloseInv
    show wp (if _ then _ else _) _ _ w
    rw [wp_ite]
    split
    · exact hconn w h
    · rw [wp_ite]
      split
      · rw [wp_bind]
        apply wp_mono _ (fun _ _ he => he) hread
        intro ret w₁ h₁
        exact Maintains.ite hconn hwrite w₁ h₁
      · exact hwrite w h
  · exact h

theorem closeInv_parts {fuel : Nat} (hlive : live .exception)
    (hcbs : KeepCallbacks live (CloseInv c) c cbs) : KeepParts live (CloseInv c) fuel c cbs where
  sendMsgToBuffer := closeInv_sendMsgToBuffer hlive hcbs
  beginClose := closeInv_beginClose
  dispatch := closeInv_dispatch hlive hcbs fuel

theorem wp_beginConnected_closeInv {w₀ : World σ} (hinit : Initial c w₀) :
    wp (beginConnected c) (fun _ => CloseInv c) (fun e w => live e → CloseInv c w) w₀ := by
  obtain ⟨sock, sb, dec, cc, hnew⟩ := hinit.constructed
  rw [XConnection.new_eq, Except.ok.injEq] at hnew
  have hv : (w₀.conns c).readBuff_.Valid := by
    rw [← hnew]
    exact XBuffer.valid_fresh (by decide)
  have hopen : .connClose ∉ w₀.trace c := by simp [hinit.no_trace]
  -- nothing is closed yet, and only the connection's own descriptor gets its handler
  have hmid : ∀ loop' : XLoop Handler,
      (∀ fd, loop'.callbackOf fd = some (.connHandleEvent c) → fd = (w₀.conns c).sock_) →
      CloseInv c ({ w₀.setConn c { w₀.conns c with
        connStatus_ := XF_CONN_STATUS_CONNECTED } with loop := loop' } : World σ) := by
    intro loop' hown
    refine ⟨?_, fun hmem => absurd hmem hopen, by simpa using hown, by simpa using hv⟩
    intro _
    exact noneAfter_of_not_mem hopen
  show wp (get >>= fun w => _) _ _ w₀
  rw [wp_bind, wp_get, wp_bind, wp_modify, wp_bind, wp_onLoop]
  split
  · rename_i loop' hreg
    rw [wp_emit]
    refine (hmid loop' ?_).log_other (by simp) rfl
    intro fd hfd
    by_contra hne
    rw [XLoop.reg_callbackOf hreg, if_neg hne] at hfd
    exact hinit.not_registered fd hfd
  · intro _
    exact hmid w₀.loop fun fd hfd => absurd hfd (hinit.not_registered fd)

/-- **No message after close.**  In every run in which no decode callback
    returns a length, and no commit callback returns with bytes left in
    `readBuff_`, after the close callback was invoked, none of the decode,
    commit and sent-bytes callbacks is invoked after the close callback.  The
    connection exists throughout; whether the owners keep it so long is the
    subject of `ConnectionLifetime`. -/
theorem silent_after_close {w₀ w : World σ} (hinit : Initial c w₀) (depth fuel : Nat)
    (inputs : List Input) (hw : w = endOfRun depth fuel c inputs w₀)
    (hstop : StopsAfterClose (w.trace c)) : SilentAfterClose (w.trace c) := by
  have hlive : (fun _ : Halt => True) .exception := trivial
  have hparts : ∀ depth, KeepCallbacks (fun _ => True) (CloseInv c : World σ → Prop) c
      (userCallbacks depth) → KeepParts (fun _ => True) (CloseInv c) fuel c (userCallbacks depth) :=
    fun _ hcbs => closeInv_parts hlive hcbs
  have hrun := runConnection_keeps hlive closeInv_script hparts
    (wp_beginConnected_closeInv hinit) depth inputs
  have hinv : CloseInv c w := by
    rw [hw]
    exact wp_finalState (wp_mono (fun _ _ h => h) (fun _ _ h => h trivial) hrun)
  exact hinv.silent hstop

/-- The commit callback closes the connection when nothing is left. -/
theorem silent_after_close_last_frame : ∃ w : World Unit,
    w = endOfRun 2 5 0 [.event 0 XE_READABLE]
      (World.start false true true [] [[.bytes [1, 2], .fail .EAGAIN]]
        [⟨[], false, 0⟩, ⟨[], false, 2⟩, ⟨[.closeConnection], false, 0⟩, ⟨[], false, 0⟩]) ∧
    w.trace 0 = [.connFinish, .decode, .decodeReturn 2, .msgCommit [1, 2], .connClose,
      .commitReturn 0] ∧
    SilentAfterClose (w.trace 0) := by
  obtain ⟨w, hw⟩ : ∃ w : World Unit, w = endOfRun 2 5 0 [.event 0 XE_READABLE]
      (World.start false true true [] [[.bytes [1, 2], .fail .EAGAIN]]
        [⟨[], false, 0⟩, ⟨[], false, 2⟩, ⟨[.closeConnection], false, 0⟩, ⟨[], false, 0⟩]) :=
    ⟨_, rfl⟩
  have htrace : w.trace 0 = [.connFinish, .decode, .decodeReturn 2, .msgCommit [1, 2],
      .connClose, .commitReturn 0] := by
    rw [hw]
    decide +kernel
  have hstop : StopsAfterClose (w.trace 0) := by
    rw [htrace]
    decide
  exact ⟨w, hw, htrace, silent_after_close (World.initial_start ..) 2 5 _ hw hstop⟩

/-- The commit callback closes the connection on the first of two frames: the
    second one is decoded and committed all the same. -/
theorem commits_after_close : ∃ w₀ w : World Unit, Initial 0 w₀ ∧
    w = endOfRun 2 5 0 [.event 0 XE_READABLE] w₀ ∧
    w.trace 0 = [.connFinish, .decode, .decodeReturn 1, .msgCommit [1], .connClose,
      .commitReturn 1, .decode, .decodeReturn 1, .msgCommit [2], .commitReturn 0] ∧
    ¬ SilentAfterClose (w.trace 0) := by
  refine ⟨World.start false true true [] [[.bytes [1, 2], .fail .EAGAIN]]
    [⟨[], false, 0⟩, ⟨[], false, 1⟩, ⟨[.closeConnection], false, 0⟩, ⟨[], false, 0⟩,
      ⟨[], false, 1⟩, ⟨[], false, 0⟩], _, World.initial_start .., rfl, ?_⟩
  decide +kernel

end XConnection

end XFast
