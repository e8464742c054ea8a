import XFast.Framework.References
import XFast.Framework.Steps

/-! # Who holds the server

    `start` makes the listener, whose callback is bound to the server, and the
    group of the handlers, which has a weak pointer only; the server keeps
    both.  So the server holds the listener, and the listener the server, and
    nothing in the program ever takes one of these pointers away.

    The destructor of the server, which stops the workers and closes the
    connections, begins with a call through `groupPtr_`. -/

namespace XFast

open Steps References

/-! ## Section 1: The objects -/

inductive ServerObject where
  | server
  | listener (n : Nat)
  | group (n : Nat)
  | connection (n : Nat)
  deriving DecidableEq, Repr

/-- The objects that exist, the pointers outside of them (the user's, those of
    the loop, of functors and of running calls), and the members of the server.
    `next` has not been used for an object. -/
structure ServerHeap where
  objects : List ServerObject
  outside : List ServerObject
  groupPtr_ : Option Nat
  connections_ : List Nat
  listenner_ : Option Nat
  connFinishedCb_ : Option Nat
  next : Nat
  fault : Bool
  deriving DecidableEq, Repr

inductive OwnershipStep where
  /-- The user calls `start`, and listening succeeds. -/
  | start
  | registerHandler
  /-- A connection is accepted by one of the listeners, and made connected. -/
  | acceptNewConnection (n : Nat)
  /-- A connection is closed. -/
  | doCloseConnection (n : Nat)
  /-- Somebody copies a pointer that he has. -/
  | copy (o : ServerObject)
  /-- `shared_from_this()`, or `lock()` on a weak pointer. -/
  | sharedFromThis (o : ServerObject)
  /-- A pointer outside of the objects goes. -/
  | drop (o : ServerObject)
  /-- The last pointer to an object has gone. -/
  | destroy (o : ServerObject)
  deriving DecidableEq, Repr

namespace ServerHeap

/-- `xServerPtr server(new xServer(loop, ip, port))`. -/
def initial : ServerHeap := ⟨[.server], [.server], none, [], none, none, 0, false⟩

/-- The pointers in the members of an object. -/
def members (s : ServerHeap) : ServerObject → List ServerObject
  | .server => s.groupPtr_.toList.map .group ++ s.connections_.map .connection ++
      s.listenner_.toList.map .listener ++ s.connFinishedCb_.toList.map .group
  -- `newConnectionCallback_`
  | .listener _ => [.server]
  -- the five callbacks
  | .connection _ => List.replicate 5 .server
  -- `xServerWptr_` is weak
  | .group _ => []

def heap (s : ServerHeap) : Heap ServerObject := ⟨s.objects, s.members, s.outside⟩

/-- `init()`, and `doListen`, which binds the listener to a functor and then to
    a registration in the loop. -/
def start (s : ServerHeap) : ServerHeap :=
  { s with
    objects := .listener (s.next + 1) :: .group s.next :: s.objects
    outside := .listener (s.next + 1) :: s.outside
    groupPtr_ := some s.next
    listenner_ := some (s.next + 1)
    next := s.next + 2 }

/-- The pointer to the group goes into `connFinishedCb_`. -/
def registerHandler (s : ServerHeap) : ServerHeap :=
  match s.groupPtr_ with
  | none => { s with fault := true }
  | some g => { s with connFinishedCb_ := some g }

/-- The loop has a pointer to the connection, in its registration. -/
def acceptNewConnection (s : ServerHeap) : ServerHeap :=
  { s with
    objects := .connection s.next :: s.objects
    outside := .connection s.next :: s.outside
    connections_ := s.next :: s.connections_
    next := s.next + 1 }

def doCloseConnection (s : ServerHeap) (n : Nat) : ServerHeap :=
  { s with
    outside := s.outside.erase (.connection n)
    connections_ := s.connections_.erase n }

/-- `~xServer()`, after which the members go. -/
def destroyServer (s : ServerHeap) : ServerHeap :=
  match s.groupPtr_ with
  -- `groupPtr_->stopAllWorkers()`
  | none => { s with objects := s.objects.filter (· ≠ .server), fault := true }
  | some _ =>
      -- each connection is bound to a functor that closes it
      { s with
        objects := s.objects.filter (· ≠ .server)
        outside := s.connections_.map .connection ++ s.outside }

def destroy (s : ServerHeap) (o : ServerObject) : ServerHeap :=
  if o = .server then s.destroyServer else { s with objects := s.objects.filter (· ≠ o) }

/-- No step is taken after a call through a null pointer. -/
def step (s : ServerHeap) (l : OwnershipStep) : Option ServerHeap :=
  if s.fault then none
  else
    match l with
    | .start => if .server ∈ s.outside then some s.start else none
    | .registerHandler => if .server ∈ s.outside then some s.registerHandler else none
    | .acceptNewConnection n =>
        if .listener n ∈ s.objects then some s.acceptNewConnection else none
    | .doCloseConnection n =>
        if n ∈ s.connections_ then some (s.doCloseConnection n) else none
    | .copy o =>
        if o ∈ s.outside then some { s with outside := o :: s.outside } else none
    | .sharedFromThis o =>
        if o ∈ s.objects then some { s with outside := o :: s.outside } else none
    | .drop o =>
        if o ∈ s.outside then some { s with outside := s.outside.erase o } else none
    | .destroy o => if Unheld s.heap o then some (s.destroy o) else none

/-! ## Section 2: The ring -/

/-- The server and its listener. -/
def ring (n : Nat) (o : ServerObject) : Prop := o = .server ∨ o = .listener n

/-- With a listener the server is in a ring, and has a group; without the
    server, its destructor has failed. -/
structure Inv (s : ServerHeap) : Prop where
  ring : ∀ n, s.listenner_ = some n → SelfHeld s.heap (ring n)
  group : ∀ g, s.groupPtr_ = some g → .server ∈ s.objects → .group g ∈ s.objects
  both : s.groupPtr_.isSome = s.listenner_.isSome
  gone : .server ∉ s.objects → s.fault = true

theorem inv_initial : initial.Inv where
  ring _ h := by cases h
  group _ h := by cases h
  both := rfl
  gone h := absurd List.mem_cons_self h

variable {s s' : ServerHeap}

/-- The ring only needs the pointers between the server and the listener. -/
theorem ring_mono {n : Nat} (h : SelfHeld s.heap (ring n))
    (hobjects : ∀ o, ring n o → o ∈ s.objects → o ∈ s'.objects)
    (hlistener : s'.listenner_ = some n) : SelfHeld s'.heap (ring n) := by
  refine h.mono hobjects (fun p o hp ho hmember => ?_)
  rcases hp with rfl | rfl
  · rcases ho with rfl | rfl
    · -- the server holds no server
      simp [heap, members] at hmember
    · simp [heap, members, hlistener]
  · exact hmember

/-- A step that changes neither the ring nor the group. -/
theorem Inv.congr (h : s.Inv) (hobjects : ∀ o, o ∈ s.objects → o ∈ s'.objects)
    (hlistener : s'.listenner_ = s.listenner_) (hgroup : s'.groupPtr_ = s.groupPtr_)
    (hserver : .server ∈ s.objects) : s'.Inv where
  ring n hn := by
    rw [hlistener] at hn
    exact ring_mono (h.ring n hn) (fun o _ => hobjects o) (by rw [hlistener, hn])
  group g hg _ := by
    rw [hgroup] at hg
    exact hobjects _ (h.group g hg hserver)
  both := by rw [hgroup, hlistener]; exact h.both
  gone hnot := absurd (hobjects _ hserver) hnot

theorem inv_start (hserver : .server ∈ s.objects) : s.start.Inv where
  ring n hn := by
    cases hn
    constructor
    · rintro o (rfl | rfl)
      · exact List.mem_cons_of_mem _ (List.mem_cons_of_mem _ hserver)
      · exact List.mem_cons_self
    · rintro o (rfl | rfl)
      · exact ⟨.listener (s.next + 1), Or.inr rfl, List.mem_singleton.mpr rfl⟩
      · refine ⟨.server, Or.inl rfl, ?_⟩
        simp [heap, members, ServerHeap.start]
  group g hg _ := by
    cases hg
    exact List.mem_cons_of_mem _ List.mem_cons_self
  both := rfl
  gone hnot := absurd (List.mem_cons_of_mem _ (List.mem_cons_of_mem _ hserver)) hnot

/-- The server is destroyed only without a listener, so without a group. -/
theorem Inv.destroyServer (h : s.Inv) (hlast : Unheld s.heap .server) : s.destroyServer.Inv := by
  have hlistener : s.listenner_ = none := by
    by_contra hsome
    obtain ⟨n, hn⟩ := Option.ne_none_iff_exists'.mp hsome
    exact (h.ring n hn).not_unheld (Or.inl rfl) hlast
  have hgroup : s.groupPtr_ = none := by
    have hboth := h.both
    rw [hlistener, Option.isSome_none] at hboth
    exact Option.not_isSome_iff_eq_none.mp (Bool.eq_false_iff.mp hboth)
  have hdestroyed : s.destroyServer =
      { s with objects := s.objects.filter (· ≠ .server), fault := true } := by
    unfold ServerHeap.destroyServer
    rw [hgroup]
  rw [hdestroyed]
  refine ⟨fun n hn => ?_, fun g hg => ?_, h.both, fun _ => rfl⟩
  · rw [show s.listenner_ = some n from hn] at hlistener
    cases hlistener
  · rw [show s.groupPtr_ = some g from hg] at hgroup
    cases hgroup

/-- Any other object that is destroyed is neither in the ring nor the group. -/
theorem Inv.destroy (h : s.Inv) {o : ServerObject} (hserver : .server ∈ s.objects)
    (hne : o ≠ .server) (hlast : Unheld s.heap o) :
    Inv { s with objects := s.objects.filter (· ≠ o) } := by
  have hkept : ∀ p, p ≠ o → p ∈ s.objects → p ∈ s.objects.filter (· ≠ o) := by
    intro p hp hmem
    rw [List.mem_filter, decide_eq_true_eq]
    exact ⟨hmem, hp⟩
  refine ⟨fun n hn => ?_, fun g hg _ => ?_, h.both, fun hnot => ?_⟩
  · exact (h.ring n hn).destroy hlast
  · refine hkept _ ?_ (h.group g hg hserver)
    rintro rfl
    -- the server holds its group
    refine hlast.2 (Or.inr ⟨.server, hserver, ?_⟩)
    have hg : s.groupPtr_ = some g := hg
    simp [heap, members, hg]
  · exact absurd (hkept _ hne.symm hserver) hnot

theorem inv_step (s : ServerHeap) (l : OwnershipStep) (s' : ServerHeap) (h : s.Inv)
    (hstep : s.step l = some s') : s'.Inv := by
  unfold step at hstep
  split at hstep
  · cases hstep
  · rename_i hfault
    have hserver : .server ∈ s.objects := by
      by_contra hnot
      exact hfault (h.gone hnot)
    cases l with
    | start =>
      dsimp only at hstep
      split at hstep
      · cases hstep
        exact inv_start hserver
      · cases hstep
    | registerHandler =>
      dsimp only at hstep
      split at hstep
      · cases hstep
        unfold registerHandler
        split <;> exact h.congr (fun _ ho => ho) rfl rfl hserver
      · cases hstep
    | acceptNewConnection n =>
      dsimp only at hstep
      split at hstep
      · cases hstep
        exact h.congr (fun _ ho => List.mem_cons_of_mem _ ho) rfl rfl hserver
      · cases hstep
    | doCloseConnection n =>
      dsimp only at hstep
      split at hstep
      · cases hstep
        exact h.congr (fun _ ho => ho) rfl rfl hserver
      · cases hstep
    | copy o | sharedFromThis o | drop o =>
      dsimp only at hstep
      split at hstep
      · cases hstep
        exact h.congr (fun _ ho => ho) rfl rfl hserver
      · cases hstep
    | destroy o =>
      dsimp only at hstep
      split at hstep
      · rename_i hlast
        cases hstep
        unfold ServerHeap.destroy
        split
        · rename_i heq
          subst heq
          exact h.destroyServer hlast
        · rename_i hne
          exact h.destroy hserver hne hlast
      · cases hstep

/-! ## Section 3: Runs -/

/-- The server has been started. -/
def Started (s : ServerHeap) : Prop := s.listenner_ ≠ none

theorem started_step (s : ServerHeap) (l : OwnershipStep) (s' : ServerHeap) (h : s.Started)
    (hstep : s.step l = some s') : s'.Started := by
  unfold step at hstep
  split at hstep
  · cases hstep
  · cases l with
    | start =>
      dsimp only at hstep
      split at hstep
      · cases hstep
        exact nofun
      · cases hstep
    | registerHandler =>
      dsimp only at hstep
      split at hstep
      · cases hstep
        unfold registerHandler
        split <;> exact h
      · cases hstep
    | destroy o =>
      dsimp only at hstep
      split at hstep
      · cases hstep
        unfold ServerHeap.destroy destroyServer
        split
        · split <;> exact h
        · exact h
      · cases hstep
    | _ =>
      dsimp only at hstep
      split at hstep
      · cases hstep
        exact h
      · cases hstep

/-- **A started server is never destroyed.**  Whatever pointers the user, the
    loop and the workers copy and drop, and whatever connections come and go:
    once `start` has been called, the server and its group exist for ever, so
    that its destructor stops no worker and closes no connection.  A server
    that is destroyed was never started, and its destructor calls
    `stopAllWorkers` through a null pointer. -/
theorem started_server_lives {ls : List OwnershipStep} (hrun : run step initial ls = some s) :
    (.server ∉ s.objects → ¬s.Started ∧ s.fault = true) ∧
    (s.Started → ∀ ls' s', run step s ls' = some s' → .server ∈ s'.objects ∧
      ∃ g, s'.groupPtr_ = some g ∧ .group g ∈ s'.objects) := by
  have hinv : s.Inv := run_invariant inv_step ls initial s inv_initial hrun
  have hlives : ∀ s : ServerHeap, s.Inv → s.Started → .server ∈ s.objects := by
    intro s h hstarted
    obtain ⟨n, hn⟩ := Option.ne_none_iff_exists'.mp hstarted
    exact (h.ring n hn).exist .server (Or.inl rfl)
  refine ⟨fun hnot => ⟨fun hstarted => hnot (hlives s hinv hstarted), hinv.gone hnot⟩, ?_⟩
  intro hstarted ls' s' hrun'
  have hinv' : s'.Inv := run_invariant inv_step ls' s s' hinv hrun'
  have hstarted' : s'.Started := run_invariant started_step ls' s s' hstarted hrun'
  have hserver := hlives s' hinv' hstarted'
  refine ⟨hserver, ?_⟩
  have hsome : s'.groupPtr_.isSome := by
    rw [hinv'.both]
    exact Option.isSome_iff_ne_none.mpr hstarted'
  obtain ⟨g, hg⟩ := Option.isSome_iff_exists.mp hsome
  exact ⟨g, hg, hinv'.group g hg hserver⟩

/-- The server is started, and a handler registers itself. -/
def beginning : List OwnershipStep := [.start, .registerHandler]

/-- A connection comes and goes, and everybody drops his pointers. -/
def ending : List OwnershipStep :=
  [.acceptNewConnection 1, .drop .server, .sharedFromThis .server, .doCloseConnection 2,
    .destroy (.connection 2), .drop .server, .drop (.listener 1)]

theorem started_server_lives_alone : ∃ s s', run step initial beginning = some s ∧
    run step s ending = some s' ∧ s'.outside = [] ∧ .server ∈ s'.objects := by
  have hstarted : (run step initial beginning).map (·.listenner_) = some (some 1) := by decide
  have hleft : ((run step initial beginning).bind (run step · ending)).map (·.outside) =
      some [] := by decide
  obtain ⟨s, hs, hlistener⟩ := Option.map_eq_some_iff.mp hstarted
  rw [hs, Option.bind_some] at hleft
  obtain ⟨s', hs', houtside⟩ := Option.map_eq_some_iff.mp hleft
  have hlives := (started_server_lives hs).2 (by rw [Started, hlistener]; exact nofun) ending s' hs'
  exact ⟨s, s', hs, hs', houtside, hlives.1⟩

end ServerHeap

end XFast
