import Mathlib.Logic.Relation
import XFast.Net.Client

/-! # What a client can do, as a machine

    Client, connector and connections call each other inline, and the user's
    callbacks run inside.  Seen from outside, between any two callbacks the
    client has taken some of a few atomic steps.  The machine of these steps
    says what the client is for; it knows nothing of buffers, masks or
    programs.

    A step that calls a member function back needs something that still points
    to the client: the client itself exists, or an attempt, a timer, a functor
    or an open connection is left, or a parse loop has just been given
    something to do. -/

namespace XFast

open XConnStatus Relation

namespace ClientView

/-! ## Section 1: The steps -/

def note (v : ClientView) (e : ClientEvent) : ClientView := { v with log := v.log ++ [e] }

def setStatus (v : ClientView) (c : ConnId) (status : XConnStatus) : ClientView :=
  { v with status := Function.update v.status c status }

def Connected (v : ClientView) (c : ConnId) : Prop :=
  c < v.created ∧ v.status c = XF_CONN_STATUS_CONNECTED

/-- Something is left that can lead to the client. -/
def Busy (v : ClientView) : Prop :=
  v.destroyed = false ∨ v.attempts ≠ 0 ∨ v.retries ≠ 0 ∨ .beforeConnect ∈ v.posted ∨
    ∃ c, v.Connected c

/-- So it is, or a parse loop goes on. -/
def Active (v : ClientView) : Prop := v.Busy ∨ v.log.getLast? = some .resumes

/-- An attempt has failed for good, or at once. -/
def failed (v : ClientView) : ClientView :=
  ((v.note (.member .connectedToServer)).note (.member .connectionFinished)).note (.finished none)

/-- The attempt has a connection. -/
def established (v : ClientView) : ClientView :=
  { (v.note (.member .connectedToServer)).note (.created v.created v.AllClosed) with
    created := v.created + 1
    status := Function.update v.status v.created XF_CONN_STATUS_CONNECTED
    connectionPtr_ := some v.created
    replaced := Function.update v.replaced v.created false }

/-- `closeConn` inside `stop`, which holds the lock. -/
def closedHeld (v : ClientView) (c : ConnId) : ClientView :=
  ((v.setStatus c XF_CONN_STATUS_DISCONNECTING).note (.member .connectionClosed)).note .relock

/-- Who calls `beforeConnect`. -/
inductive Begins : ClientView → ClientView → Prop
  | start (v : ClientView) (h : v.destroyed = false) :
      Begins v (v.note (.start (v.Quiet ∧ v.AllClosed)))
  | timer (v : ClientView) (n : Nat) (h : v.retries = n + 1) : Begins v { v with retries := n }
  | posted (v : ClientView) (rest : List Posted) (h : v.posted = .beforeConnect :: rest) :
      Begins v { v with posted := rest }

/-- What `beforeConnect` does: the connect is under way, or has failed. -/
inductive Connects : ClientView → ClientView → Prop
  | attempt (v : ClientView) : Connects v { v with attempts := v.attempts + 1 }
  | fails (v : ClientView) : Connects v v.failed

/-- What `closeConn` does to a connection that is connected: its close callback
    is the client's, or it has been replaced and calls the user, if it can. -/
inductive Closing (c : ConnId) : ClientView → ClientView → Prop
  | client (v : ClientView) (h : v.replaced c = false) :
      Closing c v { (v.setStatus c XF_CONN_STATUS_DISCONNECTING).note
          (.member .connectionClosed) with
        connectionPtr_ := none
        replaced := Function.update v.replaced c true }
  | user (v : ClientView) (h : v.replaced c = true) (hcb : v.connCloseCb_ = true) :
      Closing c v ((v.setStatus c XF_CONN_STATUS_DISCONNECTING).note (.userClosed c))
  | nobody (v : ClientView) (h : v.replaced c = true) (hcb : v.connCloseCb_ = false) :
      Closing c v (v.setStatus c XF_CONN_STATUS_DISCONNECTING)

end ClientView

open ClientView in
inductive ClientStep : ClientView → ClientView → Prop
  | member (v : ClientView) (f : Member) (h : v.Active) : ClientStep v (v.note (.member f))
  | resumes (v : ClientView) : ClientStep v (v.note .resumes)
  | finished (v : ClientView) (c : ConnId) (h : v.Connected c) :
      ClientStep v ((v.note (.member .connectionFinished)).note (.finished (some c)))
  | begins (v v₁ : ClientView) (h : Begins v v₁) : ClientStep v v₁
  | connects (v v₁ v₂ : ClientView) (h : Begins v v₁) (h₁ : Connects v₁ v₂) : ClientStep v v₂
  | retries (v : ClientView) (n : Nat) (h : v.attempts = n + 1) :
      ClientStep v { v with attempts := n, retries := v.retries + 1 }
  | givesUp (v : ClientView) (n : Nat) (h : v.attempts = n + 1) :
      ClientStep v { v with attempts := n }.failed
  | succeeds (v : ClientView) (n : Nat) (h : v.attempts = n + 1) :
      ClientStep v { v with attempts := n }.established
  | closes (v v' : ClientView) (c : ConnId) (h : v.Connected c) (hc : Closing c v v') :
      ClientStep v v'
  | runsClose (v v' : ClientView) (c : ConnId) (rest : List Posted)
      (hp : v.posted = .closeConn c :: rest) (h : v.Connected c)
      (hc : Closing c { v with posted := rest } v') : ClientStep v v'
  | dropsClose (v : ClientView) (c : ConnId) (rest : List Posted)
      (hp : v.posted = .closeConn c :: rest) (h : (v.status c).Closed) :
      ClientStep v { v with posted := rest }
  | setClosed (v : ClientView) (c : ConnId) (h : (v.status c).Closed) (hd : v.destroyed = true) :
      ClientStep v (v.setStatus c XF_CONN_STATUS_DISCONNECTED)
  | stopIdle (v : ClientView) (h : v.destroyed = false) (hc : v.connection = none) :
      ClientStep v (v.note (.stop none v.Quiet))
  | stop (v : ClientView) (c : ConnId) (h : v.destroyed = false) (hc : v.connection = some c) :
      ClientStep v ((v.note (.stop (some c) v.Quiet)).closedHeld c)
  | otherStart (v : ClientView) (h : v.destroyed = false) :
      ClientStep v { v.note .otherStart with posted := v.posted ++ [.beforeConnect] }
  | otherStopIdle (v : ClientView) (h : v.destroyed = false) (hc : v.connection = none) :
      ClientStep v (v.note (.otherStop none))
  | otherStop (v : ClientView) (c : ConnId) (h : v.destroyed = false)
      (hc : v.connection = some c) :
      ClientStep v { v.note (.otherStop (some c)) with posted := v.posted ++ [.closeConn c] }
  | destroy (v : ClientView) (h : v.destroyed = false) (hp : v.connectionPtr_ = none) :
      ClientStep v { v.note (.destroyed (v.Quiet ∧ v.AllClosed)) with destroyed := true }
  | destroyConnected (v : ClientView) (c : ConnId) (h : v.destroyed = false)
      (hp : v.connectionPtr_ = some c) :
      ClientStep v { v.note (.destroyed (v.Quiet ∧ v.AllClosed)) with
        destroyed := true
        replaced := Function.update v.replaced c true }
  | otherDestroy (v : ClientView) (c : ConnId) (h : v.destroyed = false)
      (hp : v.connectionPtr_ = some c) :
      ClientStep v { v.note (.destroyed (v.Quiet ∧ v.AllClosed)) with
        destroyed := true
        posted := v.posted ++ [.setConnectionClosedCallBack c] }
  | runsReplace (v : ClientView) (c : ConnId) (rest : List Posted)
      (hp : v.posted = .setConnectionClosedCallBack c :: rest) :
      ClientStep v { v with posted := rest, replaced := Function.update v.replaced c true }

/-- A run of the machine. -/
abbrev ClientRun : ClientView → ClientView → Prop := ReflTransGen ClientStep

namespace ClientView

/-! ## Section 2: What a step adds to the log -/

section log

variable (v : ClientView) (c : ConnId) (e : ClientEvent)

@[simp] theorem note_log : (v.note e).log = v.log ++ [e] := rfl

@[simp] theorem setStatus_log (status : XConnStatus) : (v.setStatus c status).log = v.log := rfl

@[simp] theorem failed_log : v.failed.log = v.log ++ [.member .connectedToServer] ++
    [.member .connectionFinished] ++ [.finished none] := rfl

@[simp] theorem established_log : v.established.log = v.log ++ [.member .connectedToServer] ++
    [.created v.created v.AllClosed] := rfl

@[simp] theorem closedHeld_log : (v.closedHeld c).log =
    v.log ++ [.member .connectionClosed] ++ [.relock] := rfl

end log

/-! ## Section 3: What every step keeps -/

/-- What holds of a client between any two steps. -/
structure Good (v : ClientView) : Prop where
  status : ∀ c < v.created, v.status c = XF_CONN_STATUS_CONNECTED ∨ (v.status c).Closed
  pointer : ∀ c, v.connectionPtr_ = some c → c < v.created
  closing : ∀ c, .closeConn c ∈ v.posted → c < v.created
  replacing : ∀ c, .setConnectionClosedCallBack c ∈ v.posted → v.destroyed = true
  replaced : v.destroyed = false → ∀ c < v.created, v.replaced c = true → (v.status c).Closed

/-- What a step never takes back. -/
structure Grows (v v' : ClientView) : Prop where
  created : v.created ≤ v'.created
  destroyed : v.destroyed = true → v'.destroyed = true
  closed : ∀ c < v.created, (v.status c).Closed → (v'.status c).Closed
  log : v.log <+: v'.log

variable {v v₁ v' : ClientView} {c : ConnId}

theorem Grows.refl (v : ClientView) : Grows v v :=
  ⟨Nat.le_refl _, id, fun _ _ h => h, List.prefix_refl _⟩

theorem Grows.trans (h : Grows v v₁) (h' : Grows v₁ v') : Grows v v' where
  created := Nat.le_trans h.created h'.created
  destroyed := fun hd => h'.destroyed (h.destroyed hd)
  closed := fun c hc hclosed => h'.closed c (Nat.lt_of_lt_of_le hc h.created) (h.closed c hc hclosed)
  log := h.log.trans h'.log

/-- The status of one connection becomes a closed one. -/
theorem closed_update {status : ConnId → XConnStatus} {s : XConnStatus} (hs : s.Closed)
    {d : ConnId} (hd : (status d).Closed) : (Function.update status c s d).Closed := by
  by_cases hdc : d = c
  · rw [hdc, Function.update_self]
    exact hs
  · rw [Function.update_of_ne hdc]
    exact hd

theorem connected_or_closed_update {status : ConnId → XConnStatus} {s : XConnStatus}
    (hs : s.Closed) {d : ConnId} (hd : status d = XF_CONN_STATUS_CONNECTED ∨ (status d).Closed) :
    Function.update status c s d = XF_CONN_STATUS_CONNECTED ∨
      (Function.update status c s d).Closed := by
  by_cases hdc : d = c
  · rw [hdc, Function.update_self]
    exact Or.inr hs
  · rw [Function.update_of_ne hdc]
    exact hd

theorem closed_disconnecting : XF_CONN_STATUS_DISCONNECTING.Closed := Or.inr rfl

theorem closed_disconnected : XF_CONN_STATUS_DISCONNECTED.Closed := Or.inl rfl

theorem connection_eq_some (h : v.connection = some c) :
    v.connectionPtr_ = some c ∧ v.status c = XF_CONN_STATUS_CONNECTED := by
  obtain ⟨hptr, hstatus⟩ := Option.filter_eq_some_iff.mp h
  exact ⟨hptr, of_decide_eq_true hstatus⟩

theorem begins_grows (h : Begins v v') : Grows v v' := by
  cases h <;> exact ⟨Nat.le_refl _, id, fun _ _ h => h, by simp⟩

theorem connects_grows (h : Connects v v') : Grows v v' := by
  cases h <;> exact ⟨Nat.le_refl _, id, fun _ _ h => h, by simp⟩

theorem closing_grows (h : Closing c v v') : Grows v v' := by
  cases h <;>
    exact ⟨Nat.le_refl _, id, fun _ _ hd => closed_update closed_disconnecting hd, by simp⟩

theorem step_grows (h : ClientStep v v') : Grows v v' := by
  cases h with
  | begins _ hb => exact begins_grows hb
  | connects _ _ hb hc => exact (begins_grows hb).trans (connects_grows hc)
  | succeeds n hn =>
    refine ⟨Nat.le_succ _, id, fun c hc hclosed => ?_, by simp⟩
    show (Function.update v.status v.created _ c).Closed
    rw [Function.update_of_ne (Nat.ne_of_lt hc)]
    exact hclosed
  | closes _ _ _ hclose => exact closing_grows hclose
  | runsClose _ _ _ hp hc hclose =>
    have hgrows := closing_grows hclose
    exact ⟨hgrows.created, hgrows.destroyed, hgrows.closed, hgrows.log⟩
  | setClosed c hclosed hd =>
    exact ⟨Nat.le_refl _, id, fun _ _ hd => closed_update closed_disconnected hd, by simp⟩
  | stop c hd hc =>
    exact ⟨Nat.le_refl _, id, fun _ _ hd => closed_update closed_disconnecting hd, by simp⟩
  | destroy _ _ => exact ⟨Nat.le_refl _, fun _ => rfl, fun _ _ h => h, by simp⟩
  | destroyConnected _ _ _ => exact ⟨Nat.le_refl _, fun _ => rfl, fun _ _ h => h, by simp⟩
  | otherDestroy _ _ _ => exact ⟨Nat.le_refl _, fun _ => rfl, fun _ _ h => h, by simp⟩
  | _ => exact ⟨Nat.le_refl _, id, fun _ _ h => h, by simp⟩

theorem run_grows (h : ClientRun v v') : Grows v v' := by
  induction h with
  | refl => exact Grows.refl v
  | tail _ hstep ih => exact ih.trans (step_grows hstep)

/-- `Good` looks at neither the log nor the attempts. -/
theorem Good.congr (h : v.Good) (hcreated : v'.created = v.created)
    (hstatus : v'.status = v.status) (hptr : v'.connectionPtr_ = v.connectionPtr_)
    (hposted : ∀ f ∈ v'.posted, f ∈ v.posted ∨ f = .beforeConnect)
    (hdestroyed : v'.destroyed = v.destroyed) (hreplaced : v'.replaced = v.replaced) :
    v'.Good where
  status := by
    rw [hcreated, hstatus]
    exact h.status
  pointer := by
    rw [hptr, hcreated]
    exact h.pointer
  closing := by
    intro c hc
    rw [hcreated]
    exact h.closing c ((hposted _ hc).resolve_right nofun)
  replacing := by
    intro c hc
    rw [hdestroyed]
    exact h.replacing c ((hposted _ hc).resolve_right nofun)
  replaced := by
    rw [hcreated, hstatus, hdestroyed, hreplaced]
    exact h.replaced

theorem Good.pop (h : v.Good) {f : Posted} {rest : List Posted} (hp : v.posted = f :: rest) :
    Good { v with posted := rest } := by
  have hmem : ∀ g ∈ rest, g ∈ v.posted ∨ g = .beforeConnect := by
    intro g hg
    left
    rw [hp]
    exact List.mem_cons_of_mem f hg
  exact h.congr rfl rfl rfl hmem rfl rfl

theorem good_begins (h : v.Good) (hb : Begins v v') : v'.Good := by
  cases hb with
  | start hd => exact h.congr rfl rfl rfl (fun _ hf => Or.inl hf) rfl rfl
  | timer n hn => exact h.congr rfl rfl rfl (fun _ hf => Or.inl hf) rfl rfl
  | posted rest hp => exact h.pop hp

theorem good_connects (h : v.Good) (hc : Connects v v') : v'.Good := by
  cases hc <;> exact h.congr rfl rfl rfl (fun _ hf => Or.inl hf) rfl rfl

/-- A status becomes a closed one. -/
theorem Good.setStatus (h : v.Good) (c : ConnId) {s : XConnStatus} (hs : s.Closed) :
    (v.setStatus c s).Good where
  status := fun d hd => connected_or_closed_update hs (h.status d hd)
  pointer := h.pointer
  closing := h.closing
  replacing := h.replacing
  replaced := fun hdestroyed d hd hr => closed_update hs (h.replaced hdestroyed d hd hr)

theorem Good.note (h : v.Good) (e : ClientEvent) : (v.note e).Good :=
  h.congr rfl rfl rfl (fun _ hf => Or.inl hf) rfl rfl

theorem good_closing (h : v.Good) (hc : Closing c v v') : v'.Good := by
  have hclosed := h.setStatus c closed_disconnecting
  cases hc with
  | client hr =>
    refine ⟨hclosed.status, nofun, h.closing, h.replacing, ?_⟩
    intro hdestroyed d hd hreplaced
    -- the one callback that is replaced here is that of `c`, which is closed
    show (Function.update v.status c _ d).Closed
    by_cases hdc : d = c
    · rw [hdc, Function.update_self]
      exact closed_disconnecting
    · have hreplaced : Function.update v.replaced c true d = true := hreplaced
      rw [Function.update_of_ne hdc] at hreplaced ⊢
      exact h.replaced hdestroyed d hd hreplaced
  | user _ _ => exact hclosed.note _
  | nobody _ _ => exact hclosed

/-- After the destruction nothing is asked of the replaced callbacks. -/
theorem Good.destroy (h : v.Good) (e : ClientEvent) (replaced : ConnId → Bool)
    (posted : List Posted) (hposted : ∀ c, .closeConn c ∈ posted → .closeConn c ∈ v.posted) :
    Good { v.note e with destroyed := true, replaced := replaced, posted := posted } where
  status := h.status
  pointer := h.pointer
  closing := fun c hc => h.closing c (hposted c hc)
  replacing := fun _ _ => rfl
  replaced := nofun

theorem good_step (h : v.Good) (hstep : ClientStep v v') : v'.Good := by
  cases hstep with
  | begins _ hb => exact good_begins h hb
  | connects _ _ hb hc => exact good_connects (good_begins h hb) hc
  | succeeds n hn =>
    -- the new connection is connected, and its callback is not replaced
    have hfresh : ∀ d, d < v.created + 1 → d ≠ v.created → d < v.created := by omega
    refine ⟨?_, ?_, ?_, h.replacing, ?_⟩
    · intro d hd
      show Function.update v.status v.created _ d = _ ∨ (Function.update v.status v.created _ d).Closed
      by_cases hdc : d = v.created
      · rw [hdc, Function.update_self]
        exact Or.inl rfl
      · rw [Function.update_of_ne hdc]
        exact h.status d (hfresh d hd hdc)
    · intro d hd
      rw [← Option.some.inj hd]
      exact Nat.lt_succ_self _
    · exact fun d hd => Nat.lt_succ_of_lt (h.closing d hd)
    · intro hdestroyed d hd hreplaced
      have hreplaced : Function.update v.replaced v.created false d = true := hreplaced
      show (Function.update v.status v.created _ d).Closed
      by_cases hdc : d = v.created
      · rw [hdc, Function.update_self] at hreplaced
        cases hreplaced
      · rw [Function.update_of_ne hdc] at hreplaced ⊢
        exact h.replaced hdestroyed d (hfresh d hd hdc) hreplaced
  | closes _ _ _ hclose => exact good_closing h hclose
  | runsClose _ _ _ hp _ hclose => exact good_closing (h.pop hp) hclose
  | dropsClose c rest hp _ => exact h.pop hp
  | setClosed c _ _ => exact h.setStatus c closed_disconnected
  | stop c _ _ => exact (((h.note _).setStatus c closed_disconnecting).note _).note _
  | otherStart _ =>
    have hmem : ∀ f ∈ v.posted ++ [Posted.beforeConnect], f ∈ v.posted ∨ f = .beforeConnect :=
      fun f hf => (List.mem_append.mp hf).imp id List.mem_singleton.mp
    exact h.congr rfl rfl rfl hmem rfl rfl
  | otherStop c _ hc =>
    have hmem : ∀ f ∈ v.posted ++ [Posted.closeConn c], f ∈ v.posted ∨ f = .closeConn c :=
      fun f hf => (List.mem_append.mp hf).imp id List.mem_singleton.mp
    refine ⟨h.status, h.pointer, ?_, ?_, h.replaced⟩
    · intro d hd
      rcases hmem _ hd with hd | hd
      · exact h.closing d hd
      · cases hd
        exact h.pointer c (connection_eq_some hc).1
    · exact fun d hd => h.replacing d ((hmem _ hd).resolve_right nofun)
  | destroy _ _ => exact h.destroy _ v.replaced v.posted fun _ h => h
  | destroyConnected c _ _ => exact h.destroy _ _ v.posted fun _ h => h
  | otherDestroy c _ _ =>
    apply h.destroy _ v.replaced
    intro d hd
    exact (List.mem_append.mp hd).resolve_right (by simp)
  | runsReplace c rest hp =>
    -- only the destructor posts this functor
    have hdestroyed : v.destroyed = true := h.replacing c (by simp [hp])
    have hpop := h.pop hp
    refine ⟨h.status, h.pointer, hpop.closing, hpop.replacing, fun hd => ?_⟩
    exact absurd (hdestroyed.symm.trans hd) (by decide)
  | _ => exact h.congr rfl rfl rfl (fun _ hf => Or.inl hf) rfl rfl

theorem good_run (h : v.Good) (hrun : ClientRun v v') : v'.Good := by
  induction hrun with
  | refl => exact h
  | tail _ hstep ih => exact good_step ih hstep

/-- Induction on a run of a client: what every step keeps holds at its end. -/
theorem run_invariant {I : ClientView → Prop}
    (hstep : ∀ v v' : ClientView, v.Good → I v → ClientStep v v' → I v') (hgood : v.Good)
    (h : I v) (hrun : ClientRun v v') : I v' := by
  induction hrun with
  | refl => exact h
  | tail hrun hlast ih => exact hstep _ _ (good_run hgood hrun) ih hlast

/-- An invariant that is only claimed while the client exists. -/
theorem run_invariant_alive {I : ClientView → Prop}
    (hstep : ∀ v v' : ClientView, v.Good → v.destroyed = false → I v → ClientStep v v' → I v')
    (hgood : v.Good) (h : I v) (hrun : ClientRun v v') (halive : v'.destroyed = false) : I v' := by
  induction hrun with
  | refl => exact h
  | tail hrun hlast ih =>
    have halive' := mt (step_grows hlast).destroyed (ne_true_of_eq_false halive)
    have halive' := eq_false_of_ne_true halive'
    exact hstep _ _ (good_run hgood hrun) halive' (ih halive') hlast

/-- An invariant that is only claimed of runs whose log has a property, which
    goes over to what comes before. -/
theorem run_invariant_while {C : List ClientEvent → Prop} {I : ClientView → Prop}
    (hbefore : ∀ l l', l <+: l' → C l' → C l)
    (hstep : ∀ v v' : ClientView, v.Good → C v'.log → I v → ClientStep v v' → I v')
    (hgood : v.Good) (h : I v) (hrun : ClientRun v v') (hC : C v'.log) : I v' := by
  induction hrun with
  | refl => exact h
  | tail hrun hlast ih =>
    have hC' := hbefore _ _ (step_grows hlast).log hC
    exact hstep _ _ (good_run hgood hrun) hC (ih hC') hlast

end ClientView

end XFast
