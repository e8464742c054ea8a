import XFast.Net.ClientMachine

/-! # The client follows its machine

    Between any two callbacks, and whatever they do, the view of the client is
    one that its machine reaches.  A user callback is trusted to follow the
    machine; the functions of the client then do so too, and the callbacks that
    the user's code runs in are again such functions, one level deeper.

    `Follows` holds between the steps of the machine and is given up inside a
    step; so a function that is called inside a step, such as `closeConn`, is
    told which steps it is to complete. -/

namespace XFast

open Program XConnStatus Relation

namespace XClient

variable {P : ClientView → Prop} {v₀ v₁ : ClientView} {w w' : World XClient} {c : ConnId}

/-! ## Section 1: What ties the program to the machine -/

/-- The registrations are those of the connector's attempts and of the
    connections that are connected. -/
structure Wired (w : World XClient) : Prop where
  synced : w.loop.Synced
  connection : ∀ fd c, w.loop.callbackOf fd = some (.connHandleEvent c) →
    c < w.ext.created ∧ (w.conns c).sock_ = fd ∧
      (w.conns c).connStatus_ = XF_CONN_STATUS_CONNECTED
  attempt : ∀ fd, w.loop.callbackOf fd = some .connectorOnEventHandle → fd ∈ w.ext.attempts
  closeCb : ∀ c < w.ext.created, (w.conns c).connCloseCb_ = true

/-- The client is wired and unlocked, and its view has the property `P`. -/
structure Tracks (P : ClientView → Prop) (w : World XClient) : Prop where
  wired : Wired w
  unlocked : w.ext.lockHeld = false
  view : P (view w)

/-- The machine has come from `v₀` to where the client is. -/
abbrev Follows (v₀ : ClientView) : World XClient → Prop := Tracks (ClientRun v₀)

/-- So it has, and there is something that still leads to the client. -/
abbrev Served (v₀ : ClientView) : World XClient → Prop :=
  Tracks fun v => ClientRun v₀ v ∧ v.Active

/-- Every way in which a program ends counts. -/
def always : Halt → Prop := fun _ => True

theorem Served.follows (h : Served v₀ w) : Follows v₀ w := ⟨h.wired, h.unlocked, h.view.1⟩

theorem Follows.trans (hrun : ClientRun v₀ v₁) (h : Follows v₁ w) : Follows v₀ w :=
  ⟨h.wired, h.unlocked, ReflTransGen.trans hrun h.view⟩

theorem Follows.good (h : Follows v₀ w) (hgood : v₀.Good) : (view w).Good :=
  ClientView.good_run hgood h.view

theorem view_setConn (w : World XClient) (c : ConnId) (x : XConnection) :
    view (w.setConn c x) = (view w).setStatus c x.connStatus_ := by
  have hstatus : (fun d => ((w.setConn c x).conns d).connStatus_) =
      Function.update (fun d => (w.conns d).connStatus_) c x.connStatus_ :=
    Function.comp_update XConnection.connStatus_ w.conns c x
  unfold view ClientView.setStatus
  rw [hstatus]
  rfl

/-- A change of the client that the registrations have nothing to do with. -/
theorem Wired.setExt (h : Wired w) {x : XClient} (hcreated : x.created = w.ext.created)
    (hattempts : x.attempts = w.ext.attempts) : Wired { w with ext := x } where
  synced := h.synced
  connection := by
    rw [hcreated]
    exact h.connection
  attempt := by
    rw [hattempts]
    exact h.attempt
  closeCb := by
    rw [hcreated]
    exact h.closeCb

/-- A member function is called back. -/
theorem Served.member (h : Served v₀ w) (f : Member) :
    Follows v₀ { w with ext := { w.ext with log := w.ext.log ++ [.member f] } } :=
  ⟨h.wired.setExt rfl rfl, h.unlocked, h.view.1.tail (.member _ _ h.view.2)⟩

/-- The parse loop of a connection goes on. -/
theorem Follows.resumes (h : Follows v₀ w) :
    Served v₀ { w with ext := { w.ext with log := w.ext.log ++ [.resumes] } } :=
  ⟨h.wired.setExt rfl rfl, h.unlocked, h.view.tail (.resumes _), Or.inr List.getLast?_concat⟩

/-- A new connection takes over the descriptor of an attempt. -/
theorem Wired.connect (h : Wired w) {fd : Fd} {loop : XLoop Handler} (hsynced : loop.Synced)
    (hreg : w.loop.reg fd 0 XE_READABLE (.connHandleEvent w.ext.created) = .ok loop)
    (hloop : w'.loop = loop) (hcreated : w'.ext.created = w.ext.created + 1)
    (hattempts : w'.ext.attempts = w.ext.attempts.erase fd)
    (hnew : w'.conns w.ext.created =
      { XConnection.fresh fd true true true with connStatus_ := XF_CONN_STATUS_CONNECTED })
    (hold : ∀ d, d ≠ w.ext.created → w'.conns d = w.conns d) : Wired w' where
  synced := by
    rw [hloop]
    exact hsynced
  connection := by
    intro fd' d hcallback
    rw [hloop, XLoop.reg_callbackOf hreg] at hcallback
    rw [hcreated]
    split at hcallback
    · rename_i hfd
      rw [Option.some.injEq, Handler.connHandleEvent.injEq] at hcallback
      rw [← hcallback, hnew, hfd]
      exact ⟨Nat.lt_succ_self _, rfl, rfl⟩
    · obtain ⟨hd, hsock, hstatus⟩ := h.connection fd' d hcallback
      rw [hold d (Nat.ne_of_lt hd)]
      exact ⟨Nat.lt_succ_of_lt hd, hsock, hstatus⟩
  attempt := by
    intro fd' hcallback
    rw [hloop, XLoop.reg_callbackOf hreg] at hcallback
    rw [hattempts]
    split at hcallback
    · cases hcallback
    · rename_i hfd
      exact (List.mem_erase_of_ne hfd).mpr (h.attempt fd' hcallback)
  closeCb := by
    intro d hd
    by_cases hdc : d = w.ext.created
    · rw [hdc, hnew]
      rfl
    · rw [hold d hdc]
      rw [hcreated] at hd
      exact h.closeCb d (by omega)

/-- The connector watches a descriptor for the end of its attempt. -/
theorem Wired.watch (h : Wired w) {fd : Fd} {loop : XLoop Handler} (hsynced : loop.Synced)
    (hreg : w.loop.reg fd 0 XE_WRITABLE .connectorOnEventHandle = .ok loop) {x : XClient}
    (hcreated : x.created = w.ext.created) (hattempts : x.attempts = w.ext.attempts ++ [fd]) :
    Wired { w with loop := loop, ext := x } where
  synced := hsynced
  connection := by
    intro fd' d hcallback
    rw [XLoop.reg_callbackOf hreg] at hcallback
    rw [hcreated]
    split at hcallback
    · cases hcallback
    · exact h.connection fd' d hcallback
  attempt := by
    intro fd' hcallback
    rw [XLoop.reg_callbackOf hreg] at hcallback
    rw [hattempts, List.mem_append, List.mem_singleton]
    split at hcallback
    · exact Or.inr ‹_›
    · exact Or.inl (h.attempt fd' hcallback)
  closeCb := by
    rw [hcreated]
    exact h.closeCb

/-- It watches the descriptor no more. -/
theorem Wired.unwatch (h : Wired w) {fd : Fd} {loop : XLoop Handler} (hsynced : loop.Synced)
    (hremove : w.loop.remove fd = .ok loop) {x : XClient} (hcreated : x.created = w.ext.created)
    (hattempts : x.attempts = w.ext.attempts.erase fd) :
    Wired { w with loop := loop, ext := x } where
  synced := hsynced
  connection := by
    intro fd' d hcallback
    rw [XLoop.remove_callbackOf hremove] at hcallback
    rw [hcreated]
    split at hcallback
    · cases hcallback
    · exact h.connection fd' d hcallback
  attempt := by
    intro fd' hcallback
    rw [XLoop.remove_callbackOf hremove] at hcallback
    rw [hattempts]
    split at hcallback
    · cases hcallback
    · exact (List.mem_erase_of_ne ‹_›).mpr (h.attempt fd' hcallback)
  closeCb := by
    rw [hcreated]
    exact h.closeCb

/-- A change that the client does not see. -/
theorem Tracks.congr (h : Tracks P w) (hsynced : w'.loop.Synced)
    (hcallback : w'.loop.callbackOf = w.loop.callbackOf)
    (hconns : ∀ d, (w'.conns d).connStatus_ = (w.conns d).connStatus_ ∧
      (w'.conns d).sock_ = (w.conns d).sock_ ∧ (w'.conns d).connCloseCb_ = (w.conns d).connCloseCb_)
    (hext : w'.ext = w.ext) : Tracks P w' where
  wired := by
    refine ⟨hsynced, ?_, ?_, ?_⟩
    · intro fd d
      rw [hcallback, hext, (hconns d).1, (hconns d).2.1]
      exact h.wired.connection fd d
    · rw [hcallback, hext]
      exact h.wired.attempt
    · intro d
      rw [hext, (hconns d).2.2]
      exact h.wired.closeCb d
  unlocked := by
    rw [hext]
    exact h.unlocked
  view := by
    have hstatus : (fun d => (w'.conns d).connStatus_) = fun d => (w.conns d).connStatus_ :=
      funext fun d => (hconns d).1
    have hview : XClient.view w' = XClient.view w := by
      unfold XClient.view
      rw [hstatus, hext]
    rw [hview]
    exact h.view

theorem tracks_survivesTraffic (P : ClientView → Prop) (c : ConnId) :
    XConnection.SurvivesTraffic (Tracks P) c where
  script := fun _ _ h => h.congr h.wired.synced rfl (fun _ => ⟨rfl, rfl, rfl⟩) rfl
  writes := fun _ _ h => h.congr h.wired.synced rfl (fun _ => ⟨rfl, rfl, rfl⟩) rfl
  errno := fun _ _ h => h.congr h.wired.synced rfl (fun _ => ⟨rfl, rfl, rfl⟩) rfl
  log := fun _ _ _ h => h.congr h.wired.synced rfl (fun _ => ⟨rfl, rfl, rfl⟩) rfl
  conn := by
    intro w x hstatus hsock hcb h
    have hconns : ∀ d, ((w.setConn c x).conns d).connStatus_ = (w.conns d).connStatus_ ∧
        ((w.setConn c x).conns d).sock_ = (w.conns d).sock_ ∧
        ((w.setConn c x).conns d).connCloseCb_ = (w.conns d).connCloseCb_ := by
      intro d
      by_cases hd : d = c
      · rw [hd, World.setConn_self]
        exact ⟨hstatus, hsock, hcb⟩
      · rw [World.setConn_ne w x hd]
        exact ⟨rfl, rfl, rfl⟩
    exact h.congr h.wired.synced rfl hconns rfl
  addEvent := by
    intro w loop hadd h
    obtain ⟨loop', hok, hsynced⟩ := h.wired.synced.addEvent (w.conns c).sock_ XE_WRITABLE
    rw [hadd, Except.ok.injEq] at hok
    subst hok
    exact h.congr hsynced (XLoop.addEvent_callbackOf hadd) (fun _ => ⟨rfl, rfl, rfl⟩) rfl
  removeEvent := by
    intro w loop hremove h
    obtain ⟨loop', hok, hsynced⟩ := h.wired.synced.removeEvent (w.conns c).sock_ XE_WRITABLE
    rw [hremove, Except.ok.injEq] at hok
    subst hok
    exact h.congr hsynced (XLoop.removeEvent_callbackOf_eq hremove) (fun _ => ⟨rfl, rfl, rfl⟩) rfl

theorem tracks_ignoresInput (P : ClientView → Prop) (c : ConnId) :
    XConnection.IgnoresInput (Tracks P) c where
  script := (tracks_survivesTraffic P c).script
  reads := fun _ _ h => h.congr h.wired.synced rfl (fun _ => ⟨rfl, rfl, rfl⟩) rfl
  errno := (tracks_survivesTraffic P c).errno
  readBuff := fun w _ h => (tracks_survivesTraffic P c).conn w _ rfl rfl rfl h

/-! ## Section 2: Small steps -/

section steps

variable {E : Halt → World XClient → Prop}

@[simp] theorem wp_note {Q : Unit → World XClient → Prop} (e : ClientEvent) :
    wp (note e) Q E w ↔ Q () { w with ext := { w.ext with log := w.ext.log ++ [e] } } := Iff.rfl

@[simp] theorem wp_update {Q : PUnit → World XClient → Prop} (f : XClient → XClient) :
    wp (update f) Q E w ↔ Q ⟨⟩ { w with ext := f w.ext } := Iff.rfl

/-- The lock is held already. -/
theorem wp_lock_held {Q : Unit → World XClient → Prop} (h : w.ext.lockHeld = true) :
    wp lock Q E w ↔
      E .exception { w with ext := { w.ext with log := w.ext.log ++ [.relock] } } := by
  unfold lock
  rw [wp_bind, wp_get, if_pos h]
  rfl

/-- A scope with the lock, where it is free. -/
theorem wp_withLock {Q : Unit → World XClient → Prop} {p : LoopM XClient Unit}
    (h : w.ext.lockHeld = false) :
    wp (withLock p) Q E w ↔
      wp p (fun _ w' => Q () { w' with ext := { w'.ext with lockHeld := false } })
        (fun e w' => if isException e then E e { w' with ext := { w'.ext with lockHeld := false } }
          else E e w') { w with ext := { w.ext with lockHeld := true } } := by
  unfold withLock lock
  simp only [wp_bind, wp_get, h, Bool.false_eq_true, if_false, wp_update, wp_withDestructor]
  rfl

/-- `closeConn` up to the callback, on a connection that is connected: the
    status comes first, then the registration is taken away. -/
theorem wp_beginClose {Q : Bool → World XClient → Prop} (hw : Wired w) (hc : c < w.ext.created)
    (hstatus : (w.conns c).connStatus_ = XF_CONN_STATUS_CONNECTED)
    (hQ : ∀ w', Wired w' → w'.ext = w.ext →
      view w' = (view w).setStatus c XF_CONN_STATUS_DISCONNECTING → Q true w') :
    wp (XConnection.beginClose c) Q E w := by
  obtain ⟨loop, hremove, hsynced⟩ := hw.synced.remove (w.conns c).sock_
  have hopen : ¬ ((w.conns c).connStatus_ = XF_CONN_STATUS_DISCONNECTED ∨
      (w.conns c).connStatus_ = XF_CONN_STATUS_DISCONNECTING) := by
    rw [hstatus]
    decide
  unfold XConnection.beginClose
  rw [wp_bind, wp_get, wp_ite, if_neg hopen, wp_bind, wp_modify, wp_bind, XConnection.wp_onLoop]
  simp only [World.setConn_loop, hremove]
  rw [wp_ite, if_pos (hw.closeCb c hc), wp_bind, XConnection.wp_emit, wp_pure]
  refine hQ _ ⟨hsynced, ?_, ?_, ?_⟩ rfl (view_setConn w c _)
  · intro fd d hcallback
    have hcallback : loop.callbackOf fd = some (.connHandleEvent d) := hcallback
    rw [XLoop.remove_callbackOf hremove] at hcallback
    split at hcallback
    · cases hcallback
    · rename_i hfd
      obtain ⟨hd, hsock, hconnected⟩ := hw.connection fd d hcallback
      -- the connection that is closed was registered for its own descriptor only
      have hne : d ≠ c := fun heq => hfd (heq ▸ hsock.symm)
      show d < w.ext.created ∧ ((w.setConn c _).conns d).sock_ = fd ∧
        ((w.setConn c _).conns d).connStatus_ = _
      rw [World.setConn_ne w _ hne]
      exact ⟨hd, hsock, hconnected⟩
  · intro fd hcallback
    have hcallback : loop.callbackOf fd = some .connectorOnEventHandle := hcallback
    rw [XLoop.remove_callbackOf hremove] at hcallback
    split at hcallback
    · cases hcallback
    · exact hw.attempt fd hcallback
  · intro d hd
    show ((w.setConn c _).conns d).connCloseCb_ = true
    by_cases hdc : d = c
    · rw [hdc, World.setConn_self]
      exact hw.closeCb c hc
    · rw [World.setConn_ne w _ hdc]
      exact hw.closeCb d hd

theorem wp_beginConnected {Q : Unit → World XClient → Prop} (hsynced : w.loop.Synced)
    (hQ : ∀ loop, w.loop.reg (w.conns c).sock_ 0 XE_READABLE (.connHandleEvent c) = .ok loop →
      loop.Synced → Q () ({ w.setConn c { w.conns c with
        connStatus_ := XF_CONN_STATUS_CONNECTED } with loop := loop }.log c .connFinish)) :
    wp (XConnection.beginConnected c) Q E w := by
  obtain ⟨loop, hreg, hsynced'⟩ :=
    hsynced.reg (w.conns c).sock_ 0 XE_READABLE (.connHandleEvent c)
  unfold XConnection.beginConnected
  rw [wp_bind, wp_get, wp_bind, wp_modify, wp_bind, XConnection.wp_onLoop]
  simp only [World.setConn_loop, hreg, XConnection.wp_emit]
  exact hQ loop hreg hsynced'

end steps

/-! ## Section 3: The callbacks of the connections -/

/-- A user callback that follows the machine, from wherever it is called. -/
def Trusted (user : LoopM XClient Int) : Prop :=
  ∀ v₀ : ClientView, v₀.Good → Maintains always (Follows v₀) user

/-- A program ends where the machine can go. -/
abbrev Ends (v₀ : ClientView) {α : Type} (p : LoopM XClient α) (w : World XClient) : Prop :=
  wp p (fun _ w' => Follows v₀ w') (fun e w' => always e → Follows v₀ w') w

section callbacks

variable {user : LoopM XClient Int}

theorem Trusted.unit (hu : Trusted user) (hgood : v₀.Good) :
    Maintains always (Follows v₀) (do let _ ← user : LoopM XClient Unit) :=
  (hu v₀ hgood).bind fun _ => Maintains.pure ()

theorem Ends.trans {α : Type} {p : LoopM XClient α} (hrun : ClientRun v₀ v₁) (h : Ends v₁ p w) :
    Ends v₀ p w :=
  wp_mono (fun _ _ h' => h'.trans hrun) (fun _ _ h' hlive => (h' hlive).trans hrun) h

/-- The two notes are the callback's own; then the user is called. -/
theorem connectionFinished_ends (hu : Trusted user) (hgood : v₀.Good) (hw : Wired w)
    (hunlocked : w.ext.lockHeld = false) (connPtr : Option ConnId)
    (hrun : ClientRun v₀
      (((view w).note (.member .connectionFinished)).note (.finished connPtr))) :
    Ends v₀ (connectionFinished (do let _ ← user) connPtr) w := by
  have hfollows : Follows v₀ { w with ext := { w.ext with
      log := w.ext.log ++ [.member .connectionFinished] ++ [.finished connPtr] } } :=
    ⟨hw.setExt rfl rfl, hunlocked, hrun⟩
  show wp (note _ >>= fun _ => note _ >>= fun _ => get >>= fun w => _) _ _ w
  rw [wp_bind, wp_note, wp_bind, wp_note, wp_bind, wp_get, wp_ite]
  split
  · exact (hu.unit hgood).catching (XConnection.caught_live trivial) (Maintains.pure ()) _ hfollows
  · exact hfollows

theorem connectedToServer_none_ends (hu : Trusted user) (hgood : v₀.Good) (hw : Wired w)
    (hunlocked : w.ext.lockHeld = false) (hrun : ClientRun v₀ (view w).failed) :
    Ends v₀ (connectedToServer ⟨connectionCallbacks user, user⟩ none) w := by
  have hnoted : Wired { w with ext := { w.ext with
      log := w.ext.log ++ [.member .connectedToServer] } } := hw.setExt rfl rfl
  exact connectionFinished_ends hu hgood hnoted hunlocked none hrun

/-- The connection that has been created for `fd`, before `makeConnected`. -/
def withConnection (w : World XClient) (fd : Fd) : World XClient :=
  { w.setConn w.ext.created (XConnection.fresh fd true true true) with
    ext := { w.ext with
      created := w.ext.created + 1
      replaced := Function.update w.ext.replaced w.ext.created false
      attempts := w.ext.attempts.erase fd
      connectionPtr_ := some w.ext.created
      lockHeld := false
      log := w.ext.log ++ [.member .connectedToServer] ++
        [.created w.ext.created (view w).AllClosed] } }

theorem wp_connectedToServer_some {Q : Unit → World XClient → Prop}
    {E : Halt → World XClient → Prop} (hunlocked : w.ext.lockHeld = false)
    (cbs : ClientCallbacks) (fd : Fd) :
    wp (connectedToServer cbs (some fd)) Q E w ↔
      wp (XConnection.makeConnected cbs.conn w.ext.created) Q E (withConnection w fd) := by
  show wp (note _ >>= fun _ => get >>= fun w => modify _ >>= fun _ => note _ >>= fun _ => _) Q E w ↔ _
  rw [wp_bind, wp_note, wp_bind, wp_get, wp_bind, wp_modify, wp_bind, wp_note, wp_bind,
    wp_withLock]
  · rfl
  · exact hunlocked

/-- The view once the connection is registered. -/
theorem view_connected (w : World XClient) (fd : Fd) :
    view ((withConnection w fd).setConn w.ext.created
      { XConnection.fresh fd true true true with connStatus_ := XF_CONN_STATUS_CONNECTED }) =
    { view w with attempts := (w.ext.attempts.erase fd).length }.established := by
  have hstatus : (view (withConnection w fd)).status =
      Function.update (view w).status w.ext.created XF_CONN_STATUS_CONNECTING :=
    congrArg ClientView.status (view_setConn w w.ext.created (XConnection.fresh fd true true true))
  rw [view_setConn]
  unfold ClientView.setStatus ClientView.established
  rw [hstatus, Function.update_idem]
  rfl

/-- `makeConnected` completes the step. -/
theorem connectedToServer_some_ends (hu : Trusted user) (hgood : v₀.Good) (hw : Wired w)
    (hunlocked : w.ext.lockHeld = false) {fd : Fd}
    (hrun : ClientRun v₀
      { view w with attempts := (w.ext.attempts.erase fd).length }.established) :
    Ends v₀ (connectedToServer ⟨connectionCallbacks user, user⟩ (some fd)) w := by
  apply (wp_connectedToServer_some hunlocked _ fd).mpr
  show wp (XConnection.beginConnected _ >>= fun _ => _) _ _ _
  rw [wp_bind]
  refine wp_beginConnected hw.synced fun loop hreg hsynced => ?_
  -- between its creation and here the connection is not registered, and the
  -- world is not wired
  have hfresh : (withConnection w fd).conns w.ext.created = XConnection.fresh fd true true true :=
    World.setConn_self _ _ _
  rw [hfresh] at hreg ⊢
  have hreg : w.loop.reg fd 0 XE_READABLE (.connHandleEvent w.ext.created) = .ok loop := hreg
  have hother : ∀ d, d ≠ w.ext.created → ((withConnection w fd).setConn w.ext.created
      { XConnection.fresh fd true true true with
        connStatus_ := XF_CONN_STATUS_CONNECTED }).conns d = w.conns d := by
    intro d hd
    rw [World.setConn_ne _ _ hd]
    exact World.setConn_ne _ _ hd
  apply connectionFinished_ends hu hgood
  · exact hw.connect hsynced hreg rfl rfl rfl (World.setConn_self _ _ _) hother
  · rfl
  · have hconnected : ClientView.Connected
        { view w with attempts := (w.ext.attempts.erase fd).length }.established w.ext.created :=
      ⟨Nat.lt_succ_self _, Function.update_self ..⟩
    have hfinished := hrun.tail (ClientStep.finished _ _ hconnected)
    rw [← view_connected] at hfinished
    exact hfinished

/-- The client's part of the parse loop: the user is called in between, and may
    end everything that leads to the client; but a loop that goes on has
    noted so. -/
theorem servesInput (hu : Trusted user) (hgood : v₀.Good) (c : ConnId) :
    XConnection.ServesInput always (Served v₀) (Follows v₀) c (connectionCallbacks user) where
  weaken := fun _ h => Served.follows h
  served := tracks_ignoresInput _ c
  ignores := tracks_ignoresInput _ c
  logServed := fun e he => (tracks_survivesTraffic _ c).emit (by rintro rfl; cases he)
  log := fun e he => (tracks_survivesTraffic _ c).emit (by rintro rfl; cases he)
  decodeCb := by
    intro buffer buffLen w h
    have hcall : Maintains always (Follows v₀) (callMsgDecode user buffLen) := by
      refine Maintains.get.bind fun w => ?_
      refine Maintains.ite ?_ (Maintains.pure _)
      exact (hu v₀ hgood).catching (XConnection.caught_live trivial) (Maintains.pure _)
    show wp (note _ >>= fun _ => callMsgDecode user buffLen >>= fun ret => _) _ _ w
    rw [wp_bind, wp_note, wp_bind]
    apply wp_mono _ (fun _ _ he => he) (hcall _ (h.member .defaultMsgDecode))
    intro ret w' h'
    rw [wp_ite]
    -- the loop goes on exactly where the result is a length
    split
    · rename_i hstop
      rw [wp_pure, if_pos hstop]
      exact h'
    · rename_i hstop
      rw [wp_bind, wp_note, wp_pure, if_neg hstop]
      exact h'.resumes
  msgCommitCb := by
    intro b w h
    have hcall : Maintains always (Follows v₀) (callMsgCommit (do let _ ← user)) := by
      refine Maintains.get.bind fun w => ?_
      refine Maintains.ite ?_ (Maintains.pure _)
      exact (hu.unit hgood).catching (XConnection.caught_live trivial) (Maintains.pure _)
    show wp (note _ >>= fun _ => callMsgCommit _ >>= fun _ => get >>= fun w => _) _ _ w
    rw [wp_bind, wp_note, wp_bind]
    apply wp_mono _ (fun _ _ he => he) (hcall _ (h.member .messageComing))
    intro ret w' h'
    rw [wp_bind, wp_get, wp_ite]
    -- the loop goes on exactly where something is left to read
    split
    · rename_i hleft
      rw [wp_note, if_neg hleft]
      exact h'.resumes
    · rename_i hleft
      rw [wp_pure, if_pos (not_not.mp hleft)]
      exact h'

/-- A connection that is connected leads to the client. -/
theorem served_of_connected (hc : c < v₀.created) (h : Follows v₀ w)
    (hstatus : (w.conns c).connStatus_ = XF_CONN_STATUS_CONNECTED) : Served v₀ w := by
  have hcreated : c < (view w).created :=
    Nat.lt_of_lt_of_le hc (ClientView.run_grows h.view).created
  have hbusy : (view w).Busy := Or.inr (Or.inr (Or.inr (Or.inr ⟨c, hcreated, hstatus⟩)))
  exact ⟨h.wired, h.unlocked, h.view, Or.inl hbusy⟩

theorem sendMsg_maintains (hu : Trusted user) (hgood : v₀.Good) (hc : c < v₀.created) :
    Maintains always (Follows v₀) (XConnection.sendMsg (connectionCallbacks user) c) := by
  apply XConnection.sendMsg_serves trivial (tracks_survivesTraffic _ c)
    (tracks_survivesTraffic _ c) (fun _ h => Served.follows h)
    (fun w h hstatus => served_of_connected hc h hstatus)
  intro bytes w h
  have hnoted := Served.member h .defaultSentBytes
  show wp (note _ >>= fun _ => get >>= fun w => _) _ _ w
  rw [wp_bind, wp_note, wp_bind, wp_get, wp_ite]
  split
  · exact hu.unit hgood _ hnoted
  · exact hnoted

/-! ## Section 4: The connector -/

/-- What `beforeConnect` does is a step together with what has called it. -/
theorem beforeConnect_ends (hu : Trusted user) (hgood : v₀.Good) (hw : Wired w)
    (hunlocked : w.ext.lockHeld = false) (hbegun : ClientRun v₀ (view w))
    (hconnects : ∀ v', ClientView.Connects (view w) v' → ClientRun v₀ v') :
    Ends v₀ (beforeConnect ⟨connectionCallbacks user, user⟩) w := by
  show wp (nextConnect >>= fun outcome => _) _ _ w
  rw [wp_bind, nextConnect, wp_nextAnswer]
  cases w.ext.connects with
  -- with no outcome, and with one for a descriptor in use, the step is cut short
  | nil => exact fun _ => ⟨hw, hunlocked, hbegun⟩
  | cons outcome rest =>
    cases outcome with
    | none =>
      have hfails := hconnects _ (.fails _)
      have hnoted : Wired { w with ext := { w.ext with
          connects := rest, status_ := XF_CONN_STATUS_UNKOWN } } := hw.setExt rfl rfl
      exact connectedToServer_none_ends hu hgood hnoted hunlocked hfails
    | some fd =>
      have hattempt := hconnects _ (.attempt _)
      show wp (get >>= fun w => _) _ _ _
      rw [wp_bind, wp_get, wp_ite]
      split
      · exact fun _ => ⟨hw.setExt rfl rfl, hunlocked, hbegun⟩
      · obtain ⟨loop, hreg, hsynced⟩ :=
          hw.synced.reg fd 0 XE_WRITABLE .connectorOnEventHandle
        show wp (update _ >>= fun _ => XConnection.onLoop _ >>= fun _ => _) _ _ _
        rw [wp_bind, wp_update, wp_bind, XConnection.wp_onLoop]
        simp only [hreg, wp_update]
        refine ⟨hw.watch hsynced hreg rfl rfl, hunlocked, ?_⟩
        have hlength : (w.ext.attempts ++ [fd]).length = w.ext.attempts.length + 1 :=
          List.length_append
        unfold view at hattempt ⊢
        rw [← hlength] at hattempt
        exact hattempt

/-- `beforeConnect`, where something that leads to an attempt comes first. -/
theorem beforeConnect_begins (hu : Trusted user) (hgood : v₀.Good) (h : Follows v₀ w)
    (hw' : Wired w') (hunlocked : w'.ext.lockHeld = false)
    (hbegins : ClientView.Begins (view w) (view w')) :
    Ends v₀ (beforeConnect ⟨connectionCallbacks user, user⟩) w' :=
  beforeConnect_ends hu hgood hw' hunlocked (h.view.tail (.begins _ _ hbegins))
    fun v' hconnects => h.view.tail (.connects _ _ v' hbegins hconnects)

theorem connectOnError_ends (hu : Trusted user) (hgood : v₀.Good) (h : Follows v₀ w) {fd : Fd}
    (hfd : fd ∈ w.ext.attempts) :
    Ends v₀ (connectOnError ⟨connectionCallbacks user, user⟩ fd) w := by
  have hattempts : (view w).attempts = (w.ext.attempts.erase fd).length + 1 :=
    (List.length_erase_add_one hfd).symm
  obtain ⟨loop, hremove, hsynced⟩ := h.wired.synced.remove fd
  have hwired : Wired { w with
      loop := loop
      ext := { w.ext with
        status_ := XF_CONN_STATUS_DISCONNECTED
        attempts := w.ext.attempts.erase fd } } := h.wired.unwatch hsynced hremove rfl rfl
  show wp (update _ >>= fun _ => XConnection.onLoop _ >>= fun _ => update _ >>= fun _ =>
    get >>= fun w => _) _ _ w
  rw [wp_bind, wp_update, wp_bind, XConnection.wp_onLoop]
  simp only [hremove, wp_bind, wp_update, wp_get, wp_ite]
  split
  · exact ⟨hwired.setExt rfl rfl, h.unlocked, h.view.tail (.retries _ _ hattempts)⟩
  · exact connectedToServer_none_ends hu hgood hwired h.unlocked
      (h.view.tail (.givesUp _ _ hattempts))

theorem connectOnSucc_ends (hu : Trusted user) (hgood : v₀.Good) (h : Follows v₀ w) {fd : Fd}
    (hfd : fd ∈ w.ext.attempts) :
    Ends v₀ (connectOnSucc ⟨connectionCallbacks user, user⟩ fd) w := by
  have hattempts : (view w).attempts = (w.ext.attempts.erase fd).length + 1 :=
    (List.length_erase_add_one hfd).symm
  have hnoted : Wired { w with ext := { w.ext with status_ := XF_CONN_STATUS_CONNECTED } } :=
    h.wired.setExt rfl rfl
  exact connectedToServer_some_ends hu hgood hnoted h.unlocked
    (h.view.tail (.succeeds _ _ hattempts))

theorem onEventHandle_ends (hu : Trusted user) (hgood : v₀.Good) (h : Follows v₀ w) {fd : Fd}
    (hfd : fd ∈ w.ext.attempts) (emask : Mask) (rc : Int) :
    Ends v₀ (onEventHandle ⟨connectionCallbacks user, user⟩ fd emask rc) w := by
  show wp (get >>= fun w => _) _ _ w
  rw [wp_bind, wp_get, wp_ite]
  split
  · exact connectOnError_ends hu hgood h hfd
  · rw [wp_ite]
    split
    · rw [wp_ite]
      split
      · exact connectOnError_ends hu hgood h hfd
      · exact connectOnSucc_ends hu hgood h hfd
    · exact h

theorem timerExpires_maintains (hu : Trusted user) (hgood : v₀.Good) :
    Maintains always (Follows v₀) (timerExpires ⟨connectionCallbacks user, user⟩) := by
  intro w h
  show wp (get >>= fun w => _) _ _ w
  rw [wp_bind, wp_get]
  cases hretries : w.ext.retries with
  | zero => exact h
  | succ n =>
    have hbegins : ClientView.Begins (view w) { view w with retries := n } := .timer _ n hretries
    have hwired : Wired { w with ext := { w.ext with
        retries := n, reConnMs_ := toInt32 (w.ext.reConnMs_ + ReConnntervalMs) } } :=
      h.wired.setExt rfl rfl
    exact beforeConnect_begins hu hgood h hwired h.unlocked hbegins

/-! ## Section 5: Closing -/

theorem Ends.catching {p : LoopM XClient Unit} (h : Ends v₀ p w) :
    Ends v₀ (catching isException p (pure ())) w := by
  show wp (Program.catching isException p (pure ())) _ _ w
  rw [wp_catching]
  refine wp_mono (fun _ _ h' => h') (fun e w' h' => ?_) h
  split
  · exact h' trivial
  · exact h'

theorem wp_beginClose_closed {Q : Bool → World XClient → Prop} {E : Halt → World XClient → Prop}
    (hclosed : (w.conns c).connStatus_.Closed) :
    wp (XConnection.beginClose c) Q E w ↔ Q false w := by
  unfold XConnection.beginClose
  unfold XConnStatus.Closed at hclosed
  rw [wp_bind, wp_get, wp_ite, if_pos hclosed]
  rfl

theorem Wired.setClosed (h : Wired w) (hclosed : (w.conns c).connStatus_.Closed) :
    Wired (w.setConn c { w.conns c with connStatus_ := XF_CONN_STATUS_DISCONNECTED }) where
  synced := h.synced
  connection := by
    intro fd d hcallback
    obtain ⟨hd, hsock, hstatus⟩ := h.connection fd d hcallback
    have hdc : d ≠ c := by
      rintro rfl
      rw [hstatus] at hclosed
      exact absurd hclosed (by decide)
    rw [World.setConn_ne w _ hdc]
    exact ⟨hd, hsock, hstatus⟩
  attempt := h.attempt
  closeCb := by
    intro d hd
    by_cases hdc : d = c
    · rw [hdc, World.setConn_self]
      exact h.closeCb c (hdc ▸ hd)
    · rw [World.setConn_ne w _ hdc]
      exact h.closeCb d hd

/-- The function that replaces the close callback.  The user's callback runs
    after the note; what it does leaves the connection closed and the client
    destroyed. -/
theorem closeConnection_ends (hu : Trusted user) (hw : Wired w)
    (hunlocked : w.ext.lockHeld = false) (hgood : (view w).Good) (hc : c < w.ext.created)
    (hclosed : (w.conns c).connStatus_.Closed) (hdestroyed : w.ext.destroyed = true)
    (hcalls : w.ext.connCloseCb_ = true → ClientRun v₀ ((view w).note (.userClosed c)))
    (hthrows : w.ext.connCloseCb_ = false → ClientRun v₀ (view w)) :
    Ends v₀ (closeConnection (do let _ ← user) c) w := by
  show wp (get >>= fun w => _) _ _ w
  rw [wp_bind, wp_get, wp_ite]
  split
  · rename_i hset
    apply Ends.trans (hcalls hset)
    have hfollows : Follows ((view w).note (.userClosed c)) { w with ext := { w.ext with
        log := w.ext.log ++ [.userClosed c] } } := ⟨hw.setExt rfl rfl, hunlocked, .refl⟩
    show wp (note _ >>= fun _ => _ >>= fun _ => XConnection.setClosed c) _ _ w
    rw [wp_bind, wp_note, wp_bind]
    refine wp_mono (fun _ w' h' => ?_) (fun _ _ h' => h') (hu.unit (hgood.note _) _ hfollows)
    -- whatever the user has done, `c` is closed and the client destroyed
    have hgrows := ClientView.run_grows h'.view
    have hclosed' : ((view w').status c).Closed := hgrows.closed c hc hclosed
    refine ⟨h'.wired.setClosed hclosed', h'.unlocked, ?_⟩
    show ClientRun _ (view (w'.setConn c _))
    rw [view_setConn]
    exact h'.view.tail (.setClosed _ c hclosed' (hgrows.destroyed hdestroyed))
  · rename_i hunset
    exact fun _ => ⟨hw, hunlocked, hthrows (eq_false_of_ne_true hunset)⟩

/-- The client's own close callback, where the lock is free. -/
theorem connectionClosed_ends (hw : Wired w) (hunlocked : w.ext.lockHeld = false)
    (hrun : ClientRun v₀ { (view w).note (.member .connectionClosed) with
      connectionPtr_ := none
      replaced := Function.update w.ext.replaced c true }) :
    Ends v₀ (connectionClosed c) w := by
  show wp (note _ >>= fun _ => withLock _ >>= fun _ => setConnectionClosedCallBack c) _ _ w
  rw [wp_bind, wp_note, wp_bind, wp_withLock]
  · exact ⟨hw.setExt rfl rfl, rfl, hrun⟩
  · exact hunlocked

/-- `closeConn` closes a connection that is connected, in one of the ways in
    which the machine does, and leaves a closed one alone. -/
theorem closeConn_ends (hu : Trusted user) (hw : Wired w) (hunlocked : w.ext.lockHeld = false)
    (hgood : (view w).Good) (hc : c < w.ext.created)
    (hclosed : ((view w).status c).Closed → ClientRun v₀ (view w))
    (hcloses : ∀ v', (view w).Connected c → ClientView.Closing c (view w) v' → ClientRun v₀ v') :
    Ends v₀ (XConnection.closeConn (connectionCallbacks user) c) w := by
  show wp (XConnection.beginClose c >>= fun call => _) _ _ w
  rw [wp_bind]
  rcases hgood.status c hc with hconnected | hstatus
  · apply wp_beginClose hw hc hconnected
    intro w₁ hw₁ hext hview
    have hcloses := fun v' => hcloses v' ⟨hc, hconnected⟩
    have hunlocked₁ : w₁.ext.lockHeld = false := by rw [hext]; exact hunlocked
    rw [wp_ite, if_pos rfl]
    apply Ends.catching
    show wp (get >>= fun w => _) _ _ w₁
    rw [wp_bind, wp_get, wp_ite]
    split
    · rename_i hreplaced
      rw [hext] at hreplaced
      -- the callback of an open connection is replaced by the destructor only
      have hdestroyed : w.ext.destroyed = true := by
        by_contra hd
        have hnot := hgood.replaced (eq_false_of_ne_true hd) c hc hreplaced
        rw [hconnected] at hnot
        exact absurd hnot (by decide)
      apply closeConnection_ends hu hw₁ hunlocked₁
      · rw [hview]
        exact hgood.setStatus c ClientView.closed_disconnecting
      · rw [hext]
        exact hc
      · have hstatus₁ : (view w₁).status c = XF_CONN_STATUS_DISCONNECTING := by
          rw [hview]
          exact Function.update_self ..
        exact Or.inr hstatus₁
      · rw [hext]
        exact hdestroyed
      · intro hset
        rw [hext] at hset
        rw [hview]
        exact hcloses _ (.user _ hreplaced hset)
      · intro hunset
        rw [hext] at hunset
        rw [hview]
        exact hcloses _ (.nobody _ hreplaced hunset)
    · rename_i hreplaced
      rw [hext] at hreplaced
      apply connectionClosed_ends hw₁ hunlocked₁
      rw [hview, hext]
      exact hcloses _ (.client _ (eq_false_of_ne_true hreplaced))
  · rw [wp_beginClose_closed hstatus]
    exact ⟨hw, hunlocked, hclosed hstatus⟩

theorem closeConn_maintains (hu : Trusted user) (hgood : v₀.Good) (hc : c < v₀.created) :
    Maintains always (Follows v₀) (XConnection.closeConn (connectionCallbacks user) c) := by
  intro w h
  have hcreated : c < w.ext.created :=
    Nat.lt_of_lt_of_le hc (ClientView.run_grows h.view).created
  exact closeConn_ends hu h.wired h.unlocked (h.good hgood) hcreated (fun _ => h.view)
    fun v' hconnected hclosing => h.view.tail (.closes _ v' c hconnected hclosing)

/-- `closeConn` under the lock of `stop`: the client's own close callback cannot
    lock it, and its exception is caught. -/
theorem wp_closeConn_held {Q : Unit → World XClient → Prop} {E : Halt → World XClient → Prop}
    (hw : Wired w) (hheld : w.ext.lockHeld = true) (hc : c < w.ext.created)
    (hstatus : (w.conns c).connStatus_ = XF_CONN_STATUS_CONNECTED)
    (hreplaced : w.ext.replaced c = false)
    (hQ : ∀ w', Wired w' → view w' = (view w).closedHeld c → Q () w') :
    wp (XConnection.closeConn (connectionCallbacks user) c) Q E w := by
  show wp (XConnection.beginClose c >>= fun call => _) _ _ w
  rw [wp_bind]
  apply wp_beginClose hw hc hstatus
  intro w₁ hw₁ hext hview
  have hheld₁ : w₁.ext.lockHeld = true := by rw [hext]; exact hheld
  have hreplaced₁ : w₁.ext.replaced c = false := by rw [hext]; exact hreplaced
  rw [wp_ite, if_pos rfl, wp_catching]
  show wp (get >>= fun w => _) _ _ w₁
  rw [wp_bind, wp_get, hreplaced₁]
  show wp (note _ >>= fun _ => (lock >>= fun _ => _) >>= fun _ => _) _ _ w₁
  rw [wp_bind, wp_note, wp_bind, wp_bind, wp_lock_held]
  swap
  · exact hheld₁
  rw [if_pos (by rfl : isException .exception = true)]
  refine hQ _ (hw₁.setExt rfl rfl) ?_
  unfold ClientView.closedHeld
  rw [← hview]
  rfl

/-! ## Section 6: What the user calls -/

theorem start_ends (hu : Trusted user) (hgood : v₀.Good) (h : Follows v₀ w)
    (hdestroyed : w.ext.destroyed = false) :
    Ends v₀ (start ⟨connectionCallbacks user, user⟩) w := by
  have hbegins := ClientView.Begins.start (view w) hdestroyed
  have hwired : Wired { w with ext := { w.ext with
      log := w.ext.log ++ [.start ((view w).Quiet ∧ (view w).AllClosed)]
      isConnected_ := true } } := h.wired.setExt rfl rfl
  exact beforeConnect_begins hu hgood h hwired h.unlocked hbegins

theorem connection_none (hptr : w.ext.connectionPtr_ = none) : (view w).connection = none := by
  show Option.filter _ w.ext.connectionPtr_ = none
  rw [hptr]
  rfl

theorem connection_some (hptr : w.ext.connectionPtr_ = some c) :
    (view w).connection =
      if (w.conns c).connStatus_ = XF_CONN_STATUS_CONNECTED then some c else none := by
  show Option.filter _ w.ext.connectionPtr_ = _
  rw [hptr, Option.filter_some]
  simp only [decide_eq_true_eq]
  rfl

theorem stop_ends (hgood : v₀.Good) (h : Follows v₀ w) (hdestroyed : w.ext.destroyed = false) :
    Ends v₀ (stop ⟨connectionCallbacks user, user⟩) w := by
  -- nothing is closed: there is no connection, or it is not connected
  have hidle : (view w).connection = none → ClientRun v₀
      ((view w).note (.stop (view w).connection (view w).Quiet)) := by
    intro hconn
    have hstep := ClientStep.stopIdle (view w) hdestroyed hconn
    rw [← hconn] at hstep
    exact h.view.tail hstep
  show wp (get >>= fun w => note _ >>= fun _ => update _ >>= fun _ => withLock _) _ _ w
  rw [wp_bind, wp_get, wp_bind, wp_note, wp_bind, wp_update, wp_withLock]
  swap
  · exact h.unlocked
  rw [wp_bind, wp_get]
  split
  · rename_i hptr
    exact ⟨h.wired.setExt rfl rfl, rfl, hidle (connection_none hptr)⟩
  · rename_i c hptr
    have hptr : w.ext.connectionPtr_ = some c := hptr
    have hconn := connection_some hptr
    show wp (get >>= fun w => _) _ _ _
    rw [wp_bind, wp_get, wp_ite]
    split
    · rename_i hstatus
      rw [if_neg hstatus] at hconn
      exact ⟨h.wired.setExt rfl rfl, rfl, hidle hconn⟩
    · rename_i hstatus
      have hstatus := not_not.mp hstatus
      rw [if_pos hstatus] at hconn
      -- the client's own callback is called, and finds the lock held
      have hgoodw := h.good hgood
      have hc : c < w.ext.created := hgoodw.pointer c hptr
      have hreplaced : w.ext.replaced c = false := by
        by_contra hr
        have hnot := hgoodw.replaced hdestroyed c hc (eq_true_of_ne_false hr)
        exact absurd (hstatus ▸ hnot : XF_CONN_STATUS_CONNECTED.Closed) (by decide)
      have hstep := ClientStep.stop (view w) c hdestroyed hconn
      rw [← hconn] at hstep
      apply wp_closeConn_held
      · exact h.wired.setExt rfl rfl
      · rfl
      · exact hc
      · exact hstatus
      · exact hreplaced
      · intro w' hw' hview
        refine ⟨hw'.setExt rfl rfl, rfl, ?_⟩
        show ClientRun v₀ (view w')
        rw [hview]
        exact h.view.tail hstep

theorem destroy_ends (h : Follows v₀ w) (hdestroyed : w.ext.destroyed = false) :
    Ends v₀ destroy w := by
  show wp (get >>= fun w => note _ >>= fun _ => update _ >>= fun _ => withLock _ >>= fun _ => _)
    _ _ w
  rw [wp_bind, wp_get, wp_bind, wp_note, wp_bind, wp_update, wp_bind, wp_withLock]
  swap
  · exact h.unlocked
  rw [wp_pure]
  split
  · rename_i hptr
    exact ⟨h.wired.setExt rfl rfl, rfl, h.view.tail (.destroy _ hdestroyed hptr)⟩
  · rename_i c hptr
    exact ⟨h.wired.setExt rfl rfl, rfl, h.view.tail (.destroyConnected _ c hdestroyed hptr)⟩

theorem otherStart_ends (h : Follows v₀ w) (hdestroyed : w.ext.destroyed = false) :
    Ends v₀ otherStart w :=
  ⟨h.wired.setExt rfl rfl, h.unlocked, h.view.tail (.otherStart _ hdestroyed)⟩

theorem otherStop_ends (h : Follows v₀ w) (hdestroyed : w.ext.destroyed = false) :
    Ends v₀ otherStop w := by
  show wp (get >>= fun w => note _ >>= fun _ => update _ >>= fun _ => _) _ _ w
  rw [wp_bind, wp_get, wp_bind, wp_note, wp_bind, wp_update]
  split
  · rename_i hconn
    rw [hconn]
    exact ⟨h.wired.setExt rfl rfl, h.unlocked, h.view.tail (.otherStopIdle _ hdestroyed hconn)⟩
  · rename_i c hconn
    rw [hconn]
    exact ⟨h.wired.setExt rfl rfl, h.unlocked, h.view.tail (.otherStop _ c hdestroyed hconn)⟩

theorem otherDestroy_ends (h : Follows v₀ w) (hdestroyed : w.ext.destroyed = false) :
    Ends v₀ otherDestroy w := by
  show wp (get >>= fun w => note _ >>= fun _ => update _ >>= fun _ => _) _ _ w
  rw [wp_bind, wp_get, wp_bind, wp_note, wp_bind, wp_update]
  split
  · rename_i hptr
    exact ⟨h.wired.setExt rfl rfl, h.unlocked, h.view.tail (.destroy _ hdestroyed hptr)⟩
  · rename_i c hptr
    exact ⟨h.wired.setExt rfl rfl, h.unlocked, h.view.tail (.otherDestroy _ c hdestroyed hptr)⟩

theorem onClient_maintains {call : LoopM XClient Unit}
    (hcall : ∀ w, Follows v₀ w → w.ext.destroyed = false → Ends v₀ call w) :
    Maintains always (Follows v₀) (onClient call) := by
  intro w h
  show wp (get >>= fun w => _) _ _ w
  rw [wp_bind, wp_get, wp_ite]
  split
  · exact h
  · rename_i hd
    exact hcall w h (eq_false_of_ne_true hd)

/-- A program that may count on the connection to exist. -/
def KeepsOn (c : ConnId) (call : LoopM XClient Unit) : Prop :=
  ∀ v₀ : ClientView, v₀.Good → c < v₀.created → Maintains always (Follows v₀) call

theorem KeepsOn.ends {call : LoopM XClient Unit} (hcall : KeepsOn c call) (hgood : v₀.Good)
    (h : Follows v₀ w) (hc : c < w.ext.created) : Ends v₀ call w :=
  Ends.trans h.view (hcall (view w) (h.good hgood) hc w ⟨h.wired, h.unlocked, .refl⟩)

theorem onConnection_maintains {call : LoopM XClient Unit} (hcall : KeepsOn c call)
    (hgood : v₀.Good) : Maintains always (Follows v₀) (onConnection c call) := by
  intro w h
  show wp (get >>= fun w => _) _ _ w
  rw [wp_bind, wp_get, wp_ite]
  split
  · rename_i hc
    exact (hcall.ends hgood h hc).catching
  · exact h

theorem ofConnection_maintains {call : LoopM XClient Unit} (hcall : KeepsOn c call)
    (hgood : v₀.Good) : Maintains always (Follows v₀) (ofConnection c call) := by
  intro w h
  show wp (get >>= fun w => _) _ _ w
  rw [wp_bind, wp_get, wp_ite]
  split
  · rename_i hc
    exact hcall.ends hgood h hc
  · exact h

theorem sendMsgToBuffer_keepsOn (hu : Trusted user) (c : ConnId) (msg : List UInt8) :
    KeepsOn c (XConnection.sendMsgToBuffer (connectionCallbacks user) c msg) :=
  fun _ hgood hc => XConnection.sendMsgToBuffer_of_sendMsg (tracks_survivesTraffic _ c)
    (sendMsg_maintains hu hgood hc) msg

theorem closeConn_keepsOn (hu : Trusted user) (c : ConnId) :
    KeepsOn c (XConnection.closeConn (connectionCallbacks user) c) :=
  fun _ hgood hc => closeConn_maintains hu hgood hc

theorem clientAct_maintains (hu : Trusted user) (hgood : v₀.Good) (a : ClientAct) :
    Maintains always (Follows v₀) (clientAct ⟨connectionCallbacks user, user⟩ a) := by
  cases a with
  | start => exact onClient_maintains fun _ h hd => start_ends hu hgood h hd
  | stop => exact onClient_maintains fun _ h hd => stop_ends hgood h hd
  | destroy => exact onClient_maintains fun _ h hd => destroy_ends h hd
  | otherStart => exact onClient_maintains fun _ h hd => otherStart_ends h hd
  | otherStop => exact onClient_maintains fun _ h hd => otherStop_ends h hd
  | otherDestroy => exact onClient_maintains fun _ h hd => otherDestroy_ends h hd
  | sendMsg c msg =>
    have hsend : KeepsOn c (XConnection.sendMsgString (connectionCallbacks user) c msg) :=
      fun v₁ hgood₁ hc => XConnection.sendMsgString_maintains
        (fun msg => sendMsgToBuffer_keepsOn hu c msg v₁ hgood₁ hc) msg
    exact onConnection_maintains hsend hgood
  | closeConnection c =>
    have hclose : KeepsOn c (XConnection.closeConnection (connectionCallbacks user) c) :=
      fun v₁ hgood₁ hc => XConnection.closeConnection_maintains
        (closeConn_keepsOn hu c v₁ hgood₁ hc)
    exact onConnection_maintains hclose hgood

/-- One level of callbacks over trusted ones is trusted. -/
theorem userCallback_trusted (hu : Trusted user) :
    Trusted (userCallback ⟨connectionCallbacks user, user⟩) := by
  intro v₀ hgood
  have hnext : Maintains always (Follows v₀) nextScript :=
    Maintains.nextAnswer fun _ _ h => ⟨h.wired.setExt rfl rfl, h.unlocked, h.view⟩
  refine hnext.bind fun s => ?_
  refine (Maintains.sequence s.acts fun a _ => clientAct_maintains hu hgood a).bind fun _ => ?_
  exact Maintains.ite (Maintains.throw _) (Maintains.pure _)

/-! ## Section 7: Runs -/

theorem HandleEvent_keepsOn (hu : Trusted user) (fuel : Nat) (c : ConnId) (emask : Mask)
    (hgood : v₀.Good) (hc : c < v₀.created) : Leaves always (Served v₀) (Follows v₀)
      (XConnection.HandleEvent (connectionCallbacks user) fuel c emask) :=
  XConnection.HandleEvent_serves trivial (servesInput hu hgood c) (sendMsg_maintains hu hgood hc)
    (closeConn_maintains hu hgood hc) emask

theorem handleEvent_maintains (hu : Trusted user) (hgood : v₀.Good) (fuel : Nat) (fd : Fd)
    (emask : Mask) (rc : Int) :
    Maintains always (Follows v₀)
      (handleEvent ⟨connectionCallbacks user, user⟩ fuel fd emask rc) := by
  intro w h
  show wp (get >>= fun w => _) _ _ w
  rw [wp_bind, wp_get]
  split
  · rename_i c hcallback
    obtain ⟨hc, _, hstatus⟩ := h.wired.connection fd c hcallback
    have hfollows : Follows (view w) w := ⟨h.wired, h.unlocked, .refl⟩
    apply Ends.trans h.view
    exact HandleEvent_keepsOn hu fuel c emask (h.good hgood) hc w
      (served_of_connected hc hfollows hstatus)
  · rename_i hcallback
    exact onEventHandle_ends hu hgood h (h.wired.attempt fd hcallback) emask rc
  · exact h

theorem runPosted_maintains (hu : Trusted user) (hgood : v₀.Good) :
    Maintains always (Follows v₀) (runPosted ⟨connectionCallbacks user, user⟩) := by
  intro w h
  show wp (get >>= fun w => _) _ _ w
  rw [wp_bind, wp_get]
  cases hposted : w.ext.posted with
  | nil => exact h
  | cons f rest =>
    have hwired : Wired { w with ext := { w.ext with posted := rest } } := h.wired.setExt rfl rfl
    cases f with
    | beforeConnect =>
      have hbegins := ClientView.Begins.posted (view w) rest hposted
      exact beforeConnect_begins hu hgood h hwired h.unlocked hbegins
    | closeConn c =>
      have hgoodw := h.good hgood
      have hc : c < w.ext.created := by
        apply hgoodw.closing c
        show _ ∈ w.ext.posted
        rw [hposted]
        exact List.mem_cons_self
      exact closeConn_ends hu hwired h.unlocked (hgoodw.pop hposted) hc
        (fun hclosed => h.view.tail (.dropsClose _ c rest hposted hclosed))
        (fun v' hconn hclosing => h.view.tail (.runsClose _ v' c rest hposted hconn hclosing))
    | setConnectionClosedCallBack c =>
      exact ⟨h.wired.setExt rfl rfl, h.unlocked, h.view.tail (.runsReplace _ c rest hposted)⟩

theorem clientInput_maintains (hu : Trusted user) (hgood : v₀.Good) (fuel : Nat)
    (i : ClientInput) :
    Maintains always (Follows v₀) (clientInput ⟨connectionCallbacks user, user⟩ fuel i) := by
  cases i with
  | act a => exact clientAct_maintains hu hgood a
  | event fd emask rc => exact handleEvent_maintains hu hgood fuel fd emask rc
  | runPosted => exact runPosted_maintains hu hgood
  | onReConnect => exact timerExpires_maintains hu hgood
  | closeConn c => exact ofConnection_maintains (closeConn_keepsOn hu c) hgood
  | sendMsgToBuffer c msg => exact ofConnection_maintains (sendMsgToBuffer_keepsOn hu c msg) hgood

end callbacks

/-- Induction on the nesting depth of the user's callbacks. -/
theorem clientCallbacks_trusted (depth : Nat) :
    ∃ user, clientCallbacks depth = ⟨connectionCallbacks user, user⟩ ∧ Trusted user := by
  induction depth with
  | zero => exact ⟨throw .outOfFuel, rfl, fun _ _ => Maintains.throw _⟩
  | succ depth ih =>
    obtain ⟨user, hcbs, hu⟩ := ih
    refine ⟨userCallback (clientCallbacks depth), rfl, ?_⟩
    rw [hcbs]
    exact userCallback_trusted hu

/-- The world in which a run from `w₀` ends, however it ends. -/
def endOfClient (depth fuel : Nat) (inputs : List ClientInput) (w₀ : World XClient) :
    World XClient :=
  finalState ((runClient depth fuel inputs).run w₀)

/-- **Every run follows the machine.**  Induction on the inputs. -/
theorem endOfClient_follows (hgood : v₀.Good) (h : Follows v₀ w) (depth fuel : Nat)
    (inputs : List ClientInput) : Follows v₀ (endOfClient depth fuel inputs w) := by
  obtain ⟨user, hcbs, hu⟩ := clientCallbacks_trusted depth
  have hrun : Maintains always (Follows v₀) (runClient depth fuel inputs) := by
    unfold runClient
    rw [hcbs]
    exact Maintains.sequence inputs fun i _ => clientInput_maintains hu hgood fuel i
  exact wp_finalState (wp_mono (fun _ _ h' => h') (fun _ _ h' => h' trivial) (hrun w h))

theorem Constructed.wired (h : Constructed w) : Wired w where
  synced := by
    obtain ⟨wakeupFd, ops, hloop⟩ := h.loop
    exact XLoop.synced_of_created hloop
  connection := fun fd c hcallback => absurd hcallback ((h.not_registered fd).2 c)
  attempt := fun fd hcallback => absurd hcallback (h.not_registered fd).1
  closeCb := by
    rw [h.created]
    exact fun c hc => absurd hc (Nat.not_lt_zero c)

theorem Constructed.good (h : Constructed w) : (view w).Good := by
  have hcreated : (view w).created = 0 := h.created
  have hposted : (view w).posted = [] := h.posted
  have hptr : (view w).connectionPtr_ = none := h.client.1
  constructor
  · rw [hcreated]
    exact fun c hc => absurd hc (Nat.not_lt_zero c)
  · rw [hptr]
    exact nofun
  · rw [hposted]
    exact nofun
  · rw [hposted]
    exact nofun
  · rw [hcreated]
    exact fun _ c hc => absurd hc (Nat.not_lt_zero c)

/-- What the machine can do is all that a run can do. -/
theorem Constructed.clientRun (h : Constructed w) (depth fuel : Nat) (inputs : List ClientInput) :
    ClientRun (view w) (view (endOfClient depth fuel inputs w)) :=
  (endOfClient_follows h.good ⟨h.wired, h.client.2.1, .refl⟩ depth fuel inputs).view

end XClient

end XFast
