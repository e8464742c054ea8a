import Mathlib.Data.List.Basic
import XFast.Base.Machine
import XFast.Framework.Steps

/-! # Handlers and their group

    `registerHandler` constructs the handlers, attaches the group to each and
    stores it.  The thread of a handler is started by its constructor, so it
    runs while the handler is being registered.  In each iteration of `run` it
    locks its weak pointer to the group, tests what it got, and reads a message
    through it.  The branch for a null pointer calls `stop`, and goes on to the
    call all the same.

    The group lives as long as somebody outside refers to it or a worker holds
    what it got from its weak pointer; the last to let go destroys it, which
    stops the handlers that are stored.  A worker that lets go last then joins
    its own thread and does not come back from that.

    A call through a null pointer is a fault; it ends the run.  `stopCalled` is
    history: whether `stop` was called on the handler from outside of `run`. -/

namespace XFast

open Steps

/-! ## Section 1: The steps -/

/-- Where `xHandler::run` is; `groupPtr` says whether the pointer is non-null. -/
inductive HandlerPhase where
  /-- At `while(!isTerminate_)`. -/
  | testTerminate
  /-- Before `groupWeakPtr_.lock()`. -/
  | lock
  /-- Before `groupPtr == nullptr`. -/
  | testNull (groupPtr : Bool)
  /-- Before `stop()`. -/
  | stop
  /-- Before `groupPtr->readMsg(buffer)`. -/
  | readMsg (groupPtr : Bool)
  /-- In `dispatch`. -/
  | dispatch
  /-- At the end of the body, where `groupPtr` is released. -/
  | endOfBody
  /-- The loop has been left. -/
  | exited
  /-- In the destructor of the group. -/
  | destroys
  deriving DecidableEq, Repr

/-- The worker holds a reference to the group. -/
def HandlerPhase.holds : HandlerPhase → Bool
  | .testNull groupPtr | .readMsg groupPtr => groupPtr
  | .dispatch | .endOfBody => true
  | .testTerminate | .lock | .stop | .exited | .destroys => false

/-- A handler and its thread.  `groupWeakPtr_` says whether the group has been
    attached, `stored` whether the handler is in `handleWorkers_`. -/
structure XHandler where
  isTerminate_ : Bool
  groupWeakPtr_ : Bool
  stored : Bool
  phase : HandlerPhase
  stopCalled : Bool
  deriving DecidableEq, Repr

namespace XHandler

/-- The constructor: the thread has been started. -/
def construct : XHandler := ⟨false, false, false, .testTerminate, false⟩

def isRunning (h : XHandler) : Bool := !h.isTerminate_

def holds (h : XHandler) : Bool := h.phase.holds

end XHandler

/-- Where `registerHandler` is: in which iteration out of how many, and with
    which handler. -/
inductive RegisterPhase where
  /-- At `i < handlerNum`. -/
  | test (i handlerNum : Nat)
  /-- Before `handler->setHandlerGroup(shared_from_this())`. -/
  | setHandlerGroup (i handlerNum handler : Nat)
  /-- Before `handleWorkers_.push_back(handler)`. -/
  | pushBack (i handlerNum handler : Nat)
  deriving DecidableEq, Repr

/-- The handlers in the order of their construction; where `registerHandler`
    is; and whether anybody else refers to the group. -/
structure HandlerThreads where
  handlers : List XHandler
  registering : Option RegisterPhase
  owned : Bool
  halted : Option Halt
  deriving DecidableEq, Repr

inductive HandlerLabel where
  /-- A thread calls `registerHandler(handlerNum)`. -/
  | registerHandler (handlerNum : Nat)
  /-- It goes on. -/
  | registerNext
  /-- The worker of the `i`-th handler goes on; `hasMsg` is what `readMsg`
      returns. -/
  | worker (i : Nat) (hasMsg : Bool)
  /-- `dispatch` calls `sendResponse`. -/
  | sendResponse (i : Nat)
  /-- Somebody calls `stop` on the handler, as `stopAllWorkers` does. -/
  | stop (i : Nat)
  /-- The last reference from outside is dropped. -/
  | release
  deriving DecidableEq, Repr

namespace HandlerThreads

def initial : HandlerThreads := ⟨[], none, true, none⟩

/-- Somebody refers to the group. -/
def alive (s : HandlerThreads) : Bool := s.owned || s.handlers.any XHandler.holds

def put (s : HandlerThreads) (i : Nat) (h : XHandler) : HandlerThreads :=
  { s with handlers := s.handlers.set i h }

/-- `~xHandlerGroup`. -/
def destroyGroup (s : HandlerThreads) : HandlerThreads :=
  { s with handlers := s.handlers.map fun h => if h.stored then { h with isTerminate_ := true } else h }

/-- `groupWeakPtr_.lock()`: whether the pointer is non-null. -/
def lock (s : HandlerThreads) (h : XHandler) : Bool := h.groupWeakPtr_ && s.alive

def registerNext (s : HandlerThreads) : RegisterPhase → HandlerThreads
  | .test i handlerNum =>
      if i < handlerNum then
        { s with
          handlers := s.handlers ++ [.construct]
          registering := some (.setHandlerGroup i handlerNum s.handlers.length) }
      else { s with registering := none }
  | .setHandlerGroup i handlerNum handler =>
      { s with
        handlers := s.handlers.modify handler fun h => { h with groupWeakPtr_ := true }
        registering := some (.pushBack i handlerNum handler) }
  | .pushBack i handlerNum handler =>
      { s with
        handlers := s.handlers.modify handler fun h => { h with stored := true }
        registering := some (.test (i + 1) handlerNum) }

/-- The next step of the worker of `h`, which is the `i`-th handler. -/
def workerNext (s : HandlerThreads) (i : Nat) (h : XHandler) (hasMsg : Bool) : HandlerThreads :=
  match h.phase with
  | .testTerminate =>
      if h.isTerminate_ then s.put i { h with phase := .exited }
      else s.put i { h with phase := .lock }
  -- null before the group is attached and after it is gone
  | .lock => s.put i { h with phase := .testNull (s.lock h) }
  | .testNull groupPtr =>
      if groupPtr then s.put i { h with phase := .readMsg true }
      else s.put i { h with phase := .stop }
  -- the branch does not leave the iteration
  | .stop => s.put i { h with isTerminate_ := true, phase := .readMsg false }
  | .readMsg groupPtr =>
      if groupPtr then
        if hasMsg then s.put i { h with phase := .dispatch }
        else s.put i { h with phase := .endOfBody }
      else { s with halted := some .memoryFault }
  | .dispatch => s.put i { h with phase := .endOfBody }
  | .endOfBody =>
      -- the last reference may be this one
      let released := s.put i { h with phase := .testTerminate }
      if released.alive then released
      else (s.put i { h with phase := .destroys }).destroyGroup
  | .exited | .destroys => s

/-- `sendResponse` locks the weak pointer again. -/
def sendResponse (s : HandlerThreads) (i : Nat) (h : XHandler) : HandlerThreads :=
  if s.lock h then s
  else { s.put i { h with isTerminate_ := true } with halted := some .memoryFault }

def release (s : HandlerThreads) : HandlerThreads :=
  let released := { s with owned := false }
  if released.alive then released else released.destroyGroup

/-- `registerHandler` is called by one thread at a time, which refers to the
    group. -/
def step (s : HandlerThreads) (l : HandlerLabel) : Option HandlerThreads :=
  if s.halted ≠ none then none
  else
    match l with
    | .registerHandler handlerNum =>
        if s.owned ∧ s.registering = none then
          some { s with registering := some (.test 0 handlerNum) }
        else none
    | .registerNext => s.registering.map s.registerNext
    | .worker i hasMsg => s.handlers[i]?.map fun h => s.workerNext i h hasMsg
    | .sendResponse i =>
        match s.handlers[i]? with
        | none => none
        | some h => if h.phase = .dispatch then some (s.sendResponse i h) else none
    | .stop i =>
        s.handlers[i]?.map fun h => s.put i { h with isTerminate_ := true, stopCalled := true }
    | .release => if s.owned ∧ s.registering = none then some s.release else none

/-! ## Section 2: What each step can do -/

/-- One constructor for each step, with its guard. -/
inductive StepTo (s : HandlerThreads) : HandlerLabel → HandlerThreads → Prop where
  | registerHandler (handlerNum : Nat) :
      StepTo s (.registerHandler handlerNum) { s with registering := some (.test 0 handlerNum) }
  | registerNext (phase : RegisterPhase) : StepTo s .registerNext (s.registerNext phase)
  | worker (i : Nat) (hasMsg : Bool) (h : XHandler) (hget : s.handlers[i]? = some h) :
      StepTo s (.worker i hasMsg) (s.workerNext i h hasMsg)
  | sendResponse (i : Nat) (h : XHandler) (hget : s.handlers[i]? = some h)
      (hphase : h.phase = .dispatch) : StepTo s (.sendResponse i) (s.sendResponse i h)
  | stop (i : Nat) (h : XHandler) (hget : s.handlers[i]? = some h) :
      StepTo s (.stop i) (s.put i { h with isTerminate_ := true, stopCalled := true })
  | release : StepTo s .release s.release

theorem step_cases {s s' : HandlerThreads} {l : HandlerLabel} (h : s.step l = some s') :
    s.halted = none ∧ StepTo s l s' := by
  unfold step at h
  split at h
  · cases h
  · rename_i hrunning
    refine ⟨not_ne_iff.mp hrunning, ?_⟩
    cases l with
    | registerHandler handlerNum =>
      dsimp only at h
      split at h
      · cases h
        exact .registerHandler handlerNum
      · cases h
    | registerNext =>
      obtain ⟨phase, _, rfl⟩ := Option.map_eq_some_iff.mp h
      exact .registerNext phase
    | worker i hasMsg =>
      obtain ⟨handler, hget, rfl⟩ := Option.map_eq_some_iff.mp h
      exact .worker i hasMsg handler hget
    | sendResponse i =>
      dsimp only at h
      split at h
      · cases h
      · rename_i handler hget
        split at h
        · rename_i hphase
          cases h
          exact .sendResponse i handler hget hphase
        · cases h
    | stop i =>
      obtain ⟨handler, hget, rfl⟩ := Option.map_eq_some_iff.mp h
      exact .stop i handler hget
    | release =>
      dsimp only at h
      split at h
      · cases h
        exact .release
      · cases h

/-- A worker goes on. -/
theorem step_worker {s : HandlerThreads} {i : Nat} {h : XHandler} (hrunning : s.halted = none)
    (hget : s.handlers[i]? = some h) (hasMsg : Bool) :
    s.step (.worker i hasMsg) = some (s.workerNext i h hasMsg) := by
  unfold step
  rw [if_neg (not_not_intro hrunning)]
  simp only [hget, Option.map_some]

theorem get_put {s : HandlerThreads} {i : Nat} {h : XHandler} (hget : s.handlers[i]? = some h)
    (h' : XHandler) : (s.put i h').handlers[i]? = some h' := by
  obtain ⟨hlt, _⟩ := List.getElem?_eq_some_iff.mp hget
  rw [put, List.getElem?_set_self hlt]

/-! ## Section 3: What is to be shown -/

/-- No message has been read through a null pointer; and unless a registration
    is in progress, every handler whose group is alive and on which nobody has
    called `stop` is running. -/
structure WorkersRun (s : HandlerThreads) : Prop where
  calls : s.halted = none
  running : s.registering = none → s.alive = true → ∀ h ∈ s.handlers, h.stopCalled = false →
    h.isRunning = true ∧ h.phase ≠ .exited

/-- A worker locks its weak pointer after the group has been attached and while
    it is alive. -/
def LocksGroup (s : HandlerThreads) : HandlerLabel → Prop
  | .worker i _ =>
      match s.handlers[i]? with
      | some h => h.phase = .lock → h.groupWeakPtr_ = true ∧ s.alive = true
      | none => True
  | .registerHandler _ | .registerNext | .sendResponse _ | .stop _ | .release => True

instance (s : HandlerThreads) (l : HandlerLabel) : Decidable (s.LocksGroup l) := by
  unfold LocksGroup
  split
  · split <;> infer_instance
  all_goals exact isTrue trivial

/-! ## Section 4: The invariant -/

/-- What is known of a handler. -/
structure Sound (alive : Bool) (h : XHandler) : Prop where
  nonnull : h.phase ≠ .testNull false ∧ h.phase ≠ .stop ∧ h.phase ≠ .readMsg false
  attached : h.holds = true → h.groupWeakPtr_ = true
  running : alive = true → h.stopCalled = false → h.isTerminate_ = false ∧ h.phase ≠ .exited
  returned : alive = true → h.phase ≠ .destroys

theorem Sound.mono {alive alive' : Bool} {h : XHandler} (hsound : Sound alive h)
    (halive : alive' = true → alive = true) : Sound alive' h :=
  ⟨hsound.nonnull, hsound.attached, fun h' => hsound.running (halive h'),
    fun h' => hsound.returned (halive h')⟩

theorem Sound.testNull {alive : Bool} {h : XHandler} (hsound : Sound alive h) {groupPtr : Bool}
    (hphase : h.phase = .testNull groupPtr) : groupPtr = true := by
  by_contra hnull
  rw [Bool.eq_false_iff.mpr hnull] at hphase
  exact hsound.nonnull.1 hphase

theorem Sound.readMsg {alive : Bool} {h : XHandler} (hsound : Sound alive h) {groupPtr : Bool}
    (hphase : h.phase = .readMsg groupPtr) : groupPtr = true := by
  by_contra hnull
  rw [Bool.eq_false_iff.mpr hnull] at hphase
  exact hsound.nonnull.2.2 hphase

structure Attached (s : HandlerThreads) : Prop where
  calls : s.halted = none
  sound : ∀ h ∈ s.handlers, Sound s.alive h

theorem attached_initial : initial.Attached := ⟨rfl, fun _ hmem => absurd hmem List.not_mem_nil⟩

namespace Attached

variable {s : HandlerThreads} {i : Nat} {h : XHandler}

theorem workersRun (hs : s.Attached) : s.WorkersRun := by
  refine ⟨hs.calls, ?_⟩
  intro _ halive h hmem hstop
  obtain ⟨hterminate, hexited⟩ := (hs.sound h hmem).running halive hstop
  refine ⟨?_, hexited⟩
  rw [XHandler.isRunning, hterminate]
  rfl

theorem of_get (hs : s.Attached) (hget : s.handlers[i]? = some h) : Sound s.alive h :=
  hs.sound h (List.mem_of_getElem? hget)

/-- Nobody refers to the group who did not before. -/
theorem alive_of_put {h' : XHandler} (hholds : h'.holds = true → s.alive = true) :
    (s.put i h').alive = true → s.alive = true := by
  intro halive
  rw [alive, Bool.or_eq_true] at halive
  rcases halive with howned | hany
  · have howned : s.owned = true := howned
    rw [alive, howned]
    rfl
  · obtain ⟨a, ha, hheld⟩ := List.any_eq_true.mp hany
    rcases List.mem_or_eq_of_mem_set ha with hold | heq
    · rw [alive, Bool.or_eq_true]
      exact Or.inr (List.any_eq_true.mpr ⟨a, hold, hheld⟩)
    · exact hholds (heq ▸ hheld)

/-- Of the handler that changes, only what it holds matters. -/
theorem alive_put (s : HandlerThreads) (i : Nat) (h' : XHandler) : (s.put i h').alive =
    (s.owned || ((s.handlers.map XHandler.holds).set i h'.holds).any id) := by
  rw [← List.map_set, List.any_map]
  rfl

/-- A worker that holds a reference keeps the group alive. -/
theorem alive_of_holds (hget : s.handlers[i]? = some h) (hholds : h.holds = true) :
    s.alive = true := by
  rw [alive, Bool.or_eq_true]
  exact Or.inr (List.any_eq_true.mpr ⟨h, List.mem_of_getElem? hget, hholds⟩)

/-- One handler changes. -/
theorem put (hs : s.Attached) {h' : XHandler} (hsound : Sound s.alive h')
    (hholds : h'.holds = true → s.alive = true) : (s.put i h').Attached := by
  have halive := alive_of_put (i := i) hholds
  refine ⟨hs.calls, ?_⟩
  intro a ha
  rcases List.mem_or_eq_of_mem_set ha with hold | heq
  · exact (hs.sound a hold).mono halive
  · rw [heq]
    exact hsound.mono halive

/-- The group is gone, and nothing is known of the handlers but that they do
    not hold it. -/
theorem destroyGroup (hs : s.Attached) (hgone : s.alive = false) : s.destroyGroup.Attached := by
  have hdead : s.destroyGroup.alive = false := by
    rw [alive, Bool.or_eq_false_iff] at hgone ⊢
    refine ⟨hgone.1, ?_⟩
    rw [List.any_eq_false] at hgone ⊢
    intro a ha
    obtain ⟨b, hb, rfl⟩ := List.mem_map.mp ha
    have hheld := hgone.2 b hb
    split <;> exact hheld
  refine ⟨hs.calls, ?_⟩
  intro a ha
  obtain ⟨b, hb, rfl⟩ := List.mem_map.mp ha
  have hsound := hs.sound b hb
  rw [hdead]
  split <;> exact ⟨hsound.nonnull, hsound.attached, nofun, nofun⟩

/-- A worker goes on to a phase in which it holds the group only if it did
    before, or has just been given it. -/
theorem goto (hs : s.Attached) (hget : s.handlers[i]? = some h) {phase : HandlerPhase}
    (hnonnull : phase ≠ .testNull false ∧ phase ≠ .stop ∧ phase ≠ .readMsg false)
    (hholds : phase.holds = true → h.groupWeakPtr_ = true ∧ s.alive = true)
    (hover : phase ≠ .exited ∧ phase ≠ .destroys) : (s.put i { h with phase := phase }).Attached := by
  have hsound := hs.of_get hget
  refine hs.put ⟨hnonnull, fun hheld => (hholds hheld).1, ?_, fun _ => hover.2⟩
    fun hheld => (hholds hheld).2
  intro halive hstop
  exact ⟨(hsound.running halive hstop).1, hover.1⟩

/-- While it holds the group, a worker goes on to a phase in which it does. -/
theorem goto_of_holds (hs : s.Attached) (hget : s.handlers[i]? = some h) (hheld : h.holds = true)
    {phase : HandlerPhase}
    (hnonnull : phase ≠ .testNull false ∧ phase ≠ .stop ∧ phase ≠ .readMsg false)
    (hover : phase ≠ .exited ∧ phase ≠ .destroys) : (s.put i { h with phase := phase }).Attached :=
  hs.goto hget hnonnull
    (fun _ => ⟨(hs.of_get hget).attached hheld, alive_of_holds hget hheld⟩) hover

/-- The end of an iteration, where the worker may be the last to let go. -/
theorem endOfBody (hs : s.Attached) (hget : s.handlers[i]? = some h)
    (hphase : h.phase = .endOfBody) (hasMsg : Bool) : (s.workerNext i h hasMsg).Attached := by
  have hsound := hs.of_get hget
  have hreleased : (s.put i { h with phase := .testTerminate }).Attached :=
    hs.goto hget ⟨nofun, nofun, nofun⟩ nofun ⟨nofun, nofun⟩
  simp only [workerNext, hphase]
  split
  · exact hreleased
  · rename_i hgone
    have hgone := Bool.eq_false_iff.mpr hgone
    -- in the destructor the worker does not hold the group either
    have hdead : (s.put i { h with phase := .destroys }).alive = false := by
      rw [alive_put] at hgone ⊢
      exact hgone
    refine Attached.destroyGroup ?_ hdead
    refine ⟨hs.calls, ?_⟩
    rw [hdead]
    intro a ha
    rcases List.mem_or_eq_of_mem_set ha with hold | heq
    · exact (hs.sound a hold).mono nofun
    · rw [heq]
      exact ⟨⟨nofun, nofun, nofun⟩, nofun, nofun, nofun⟩

/-- A worker that locks its weak pointer only where it gets the group. -/
theorem worker (hs : s.Attached) (hget : s.handlers[i]? = some h) {hasMsg : Bool}
    (hgood : h.phase = .lock → h.groupWeakPtr_ = true ∧ s.alive = true) :
    (s.workerNext i h hasMsg).Attached := by
  have hsound := hs.of_get hget
  cases hphase : h.phase with
  | testTerminate =>
    simp only [workerNext, hphase]
    split
    · rename_i hterminate
      refine hs.put ⟨⟨nofun, nofun, nofun⟩, nofun, ?_, nofun⟩ nofun
      -- nobody has set the flag if the group is alive and `stop` was not called
      intro halive hstop
      rw [(hsound.running halive hstop).1] at hterminate
      cases hterminate
    · exact hs.goto hget ⟨nofun, nofun, nofun⟩ nofun ⟨nofun, nofun⟩
  | lock =>
    obtain ⟨hattached, halive⟩ := hgood hphase
    have hlock : s.lock h = true := by rw [HandlerThreads.lock, hattached, halive]; rfl
    simp only [workerNext, hphase, hlock]
    exact hs.goto hget ⟨nofun, nofun, nofun⟩ (fun _ => ⟨hattached, halive⟩) ⟨nofun, nofun⟩
  | testNull groupPtr =>
    rw [hsound.testNull hphase] at hphase
    have hheld : h.holds = true := by rw [XHandler.holds, hphase]; rfl
    simp only [workerNext, hphase, if_true]
    exact hs.goto_of_holds hget hheld ⟨nofun, nofun, nofun⟩ ⟨nofun, nofun⟩
  | stop => exact absurd hphase hsound.nonnull.2.1
  | readMsg groupPtr =>
    rw [hsound.readMsg hphase] at hphase
    have hheld : h.holds = true := by rw [XHandler.holds, hphase]; rfl
    simp only [workerNext, hphase, if_true]
    split
    · exact hs.goto_of_holds hget hheld ⟨nofun, nofun, nofun⟩ ⟨nofun, nofun⟩
    · exact hs.goto_of_holds hget hheld ⟨nofun, nofun, nofun⟩ ⟨nofun, nofun⟩
  | dispatch =>
    have hheld : h.holds = true := by rw [XHandler.holds, hphase]; rfl
    simp only [workerNext, hphase]
    exact hs.goto_of_holds hget hheld ⟨nofun, nofun, nofun⟩ ⟨nofun, nofun⟩
  | endOfBody => exact hs.endOfBody hget hphase hasMsg
  | exited =>
    -- no step any more, here and in the destructor
    simp only [workerNext, hphase]
    exact hs
  | destroys =>
    simp only [workerNext, hphase]
    exact hs

/-- In `dispatch` the worker holds the group, so the weak pointer gives it. -/
theorem sendResponse (hs : s.Attached) (hget : s.handlers[i]? = some h)
    (hphase : h.phase = .dispatch) : (s.sendResponse i h).Attached := by
  have hheld : h.holds = true := by rw [XHandler.holds, hphase]; rfl
  have hlock : s.lock h = true := by
    rw [HandlerThreads.lock, (hs.of_get hget).attached hheld, alive_of_holds hget hheld]
    rfl
  rw [HandlerThreads.sendResponse, if_pos hlock]
  exact hs

theorem stop (hs : s.Attached) (hget : s.handlers[i]? = some h) :
    (s.put i { h with isTerminate_ := true, stopCalled := true }).Attached := by
  have hsound := hs.of_get hget
  exact hs.put ⟨hsound.nonnull, hsound.attached, nofun, hsound.returned⟩
    fun hheld => alive_of_holds (h := h) hget hheld

theorem release (hs : s.Attached) : s.release.Attached := by
  have hreleased : Attached { s with owned := false } := by
    refine ⟨hs.calls, fun a ha => (hs.sound a ha).mono ?_⟩
    intro halive
    rw [alive, Bool.or_eq_true] at halive ⊢
    exact Or.inr (halive.resolve_left nofun)
  unfold HandlerThreads.release
  dsimp only
  split
  · exact hreleased
  · rename_i hgone
    exact hreleased.destroyGroup (Bool.eq_false_iff.mpr hgone)

/-- What a registration does to a handler leaves its worker alone. -/
theorem modify (hs : s.Attached) (handler : Nat) (registering : Option RegisterPhase)
    {f : XHandler → XHandler} (hphase : ∀ a, (f a).phase = a.phase)
    (hsound : ∀ a, Sound s.alive a → Sound s.alive (f a)) :
    Attached { s with
      handlers := s.handlers.modify handler f, registering := registering } := by
  have hmem : ∀ a ∈ s.handlers.modify handler f, ∃ b ∈ s.handlers, a = b ∨ a = f b := by
    intro a ha
    obtain ⟨j, hj⟩ := List.getElem?_of_mem ha
    rw [List.getElem?_modify] at hj
    obtain ⟨b, hb, rfl⟩ := Option.map_eq_some_iff.mp hj
    refine ⟨b, List.mem_of_getElem? hb, ?_⟩
    split
    · exact Or.inr rfl
    · exact Or.inl rfl
  have halive : alive { s with
      handlers := s.handlers.modify handler f, registering := registering } = true →
        s.alive = true := by
    intro halive
    rw [alive, Bool.or_eq_true] at halive ⊢
    refine halive.imp_right ?_
    intro hany
    obtain ⟨a, ha, hheld⟩ := List.any_eq_true.mp hany
    obtain ⟨b, hb, rfl | rfl⟩ := hmem a ha
    · exact List.any_eq_true.mpr ⟨_, hb, hheld⟩
    · refine List.any_eq_true.mpr ⟨b, hb, ?_⟩
      rw [XHandler.holds, hphase b] at hheld
      exact hheld
  refine ⟨hs.calls, ?_⟩
  intro a ha
  obtain ⟨b, hb, rfl | rfl⟩ := hmem a ha
  · exact (hs.sound _ hb).mono halive
  · exact (hsound b (hs.sound b hb)).mono halive

theorem registerNext (hs : s.Attached) (phase : RegisterPhase) :
    (s.registerNext phase).Attached := by
  cases phase with
  | test i handlerNum =>
    dsimp only [HandlerThreads.registerNext]
    split
    · -- the new worker is at the head of its loop
      have halive : alive { s with
          handlers := s.handlers ++ [.construct]
          registering := some (.setHandlerGroup i handlerNum s.handlers.length) } = s.alive := by
        rw [alive, alive, List.any_append]
        simp [XHandler.construct, XHandler.holds, HandlerPhase.holds]
      refine ⟨hs.calls, ?_⟩
      rw [halive]
      intro a ha
      rcases List.mem_append.mp ha with hold | hnew
      · exact hs.sound a hold
      · rw [List.mem_singleton.mp hnew]
        exact ⟨⟨nofun, nofun, nofun⟩, nofun, fun _ _ => ⟨rfl, nofun⟩, nofun⟩
    · exact ⟨hs.calls, hs.sound⟩
  | setHandlerGroup i handlerNum handler =>
    -- the worker may be anywhere in its loop
    refine hs.modify handler _ (fun _ => rfl) ?_
    exact fun a ha => ⟨ha.nonnull, fun _ => rfl, ha.running, ha.returned⟩
  | pushBack i handlerNum handler =>
    refine hs.modify handler _ (fun _ => rfl) ?_
    exact fun a ha => ⟨ha.nonnull, ha.attached, ha.running, ha.returned⟩

end Attached

theorem attached_step (s : HandlerThreads) (l : HandlerLabel) (s' : HandlerThreads)
    (hs : s.Attached) (hgood : s.LocksGroup l) (hstep : s.step l = some s') : s'.Attached := by
  obtain ⟨_, hto⟩ := step_cases hstep
  cases hto with
  | registerHandler handlerNum => exact ⟨hs.calls, hs.sound⟩
  | registerNext phase => exact hs.registerNext phase
  | worker i hasMsg h hget =>
    apply hs.worker hget
    simpa only [LocksGroup, hget] using hgood
  | sendResponse i h hget hphase => exact hs.sendResponse hget hphase
  | stop i h hget => exact hs.stop hget
  | release => exact hs.release

/-! ## Section 5: A null pointer -/

/-- Steps of the kind that is allowed lead to a call through a null pointer, or
    to a handler that is not running. -/
def LeadsAstray (s : HandlerThreads) : Prop := Reaches step LocksGroup (¬ ·.WorkersRun) s

/-- A worker that does not lock its weak pointer goes on. -/
theorem LeadsAstray.of_worker {s : HandlerThreads} {i : Nat} {h : XHandler}
    (hrunning : s.halted = none) (hget : s.handlers[i]? = some h) (hphase : h.phase ≠ .lock)
    (hnext : (s.workerNext i h false).LeadsAstray) : s.LeadsAstray := by
  refine Reaches.of_step (step_worker hrunning hget false) ?_ hnext
  simp only [LocksGroup, hget]
  exact fun hlock => absurd hlock hphase

/-- A worker that has got a null pointer tests it, calls `stop`, and makes the
    call. -/
theorem leadsAstray_of_testNull {s : HandlerThreads} {i : Nat} {h : XHandler}
    (hrunning : s.halted = none) (hget : s.handlers[i]? = some h)
    (hphase : h.phase = .testNull false) : s.LeadsAstray := by
  have htest : s.workerNext i h false = s.put i { h with phase := .stop } := by
    simp [workerNext, hphase]
  have hget₁ := get_put hget { h with phase := .stop }
  have hget₂ := get_put hget₁ { h with isTerminate_ := true, phase := .readMsg false }
  -- the test, `stop`, and the call: nobody else has to take a step
  refine LeadsAstray.of_worker hrunning hget (by rw [hphase]; exact nofun) ?_
  rw [htest]
  refine LeadsAstray.of_worker hrunning hget₁ nofun ?_
  refine LeadsAstray.of_worker hrunning hget₂ nofun (Reaches.here ?_)
  intro hrun
  cases hrun.calls

theorem leadsAstray_of_not_locksGroup {s s₁ : HandlerThreads} {l : HandlerLabel}
    (hstep : s.step l = some s₁) (hbad : ¬ s.LocksGroup l) : s₁.LeadsAstray := by
  obtain ⟨hrunning, hto⟩ := step_cases hstep
  cases hto with
  | worker i hasMsg h hget =>
    simp only [LocksGroup, hget, Classical.not_imp] at hbad
    obtain ⟨hphase, hnot⟩ := hbad
    have hlock : s.lock h = false := by
      rw [lock, Bool.and_eq_false_iff]
      by_contra hboth
      rw [not_or, Bool.not_eq_false, Bool.not_eq_false] at hboth
      exact hnot hboth
    have hnext : s.workerNext i h hasMsg = s.put i { h with phase := .testNull false } := by
      simp only [workerNext, hphase, hlock]
    rw [hnext]
    exact leadsAstray_of_testNull hrunning (get_put hget _) rfl
  | _ => exact absurd trivial hbad

/-! ## Section 6: Runs -/

/-- **Workers and their group.**  In every run of registrations of any numbers
    of handlers, of all their workers, of calls of `stop` and of the release of
    the group: if every worker locks its weak pointer only after the group has
    been attached and while it is alive, then no message is read through a null
    pointer; and after a registration, while the group is alive, every handler
    that nobody has stopped is running.  Of the steps that are possible then,
    exactly those of this kind can never lead to anything else. -/
theorem workers_run_iff {ls : List HandlerLabel} {s : HandlerThreads}
    (hgood : AllSteps step LocksGroup initial ls) (hrun : run step initial ls = some s) :
    s.WorkersRun ∧ ∀ l s₁, s.step l = some s₁ →
      (s.LocksGroup l ↔ ∀ ls' s', AllSteps step LocksGroup s₁ ls' →
        run step s₁ ls' = some s' → s'.WorkersRun) := by
  apply keeps_and_exact attached_initial attached_step (fun _ hs => hs.workersRun) _ hgood hrun
  exact fun _ _ _ _ hstep hbad => leadsAstray_of_not_locksGroup hstep hbad

/-- Two handlers; the first worker runs an iteration while the second handler
    is registered. -/
theorem workers_run_iff_two : ∃ s, run step initial
      [.registerHandler 2, .registerNext, .registerNext, .registerNext, .worker 0 true,
        .worker 0 true, .registerNext, .worker 0 true, .worker 0 true, .sendResponse 0,
        .registerNext, .worker 1 false, .worker 1 false, .worker 0 true, .registerNext,
        .registerNext, .worker 0 true] = some s ∧
    s.registering = none ∧ s.handlers.map XHandler.isRunning = [true, true] ∧ s.WorkersRun := by
  refine ⟨⟨[⟨false, true, true, .testTerminate, false⟩, ⟨false, true, true, .testNull true, false⟩],
    none, true, none⟩, by decide +kernel, rfl, rfl, ?_⟩
  refine (workers_run_iff ?_ (by decide +kernel : run step initial
      [.registerHandler 2, .registerNext, .registerNext, .registerNext, .worker 0 true,
        .worker 0 true, .registerNext, .worker 0 true, .worker 0 true, .sendResponse 0,
        .registerNext, .worker 1 false, .worker 1 false, .worker 0 true, .registerNext,
        .registerNext, .worker 0 true] = some _)).1
  decide +kernel

/-- One handler.  Its worker locks the weak pointer before the group has been
    attached: it reads a message through a null pointer.  Or it locks it after
    the group has been released. -/
theorem null_group_called :
    (∃ s, run step initial [.registerHandler 1, .registerNext, .worker 0 false, .worker 0 false,
        .worker 0 false, .worker 0 false, .worker 0 false] = some s ∧
      s.halted = some .memoryFault ∧ ¬ s.WorkersRun) ∧
    (∃ s, run step initial [.registerHandler 1, .registerNext, .worker 0 false, .worker 0 false,
        .worker 0 false, .worker 0 false, .registerNext, .registerNext, .registerNext] = some s ∧
      s.registering = none ∧ s.alive = true ∧
      s.handlers = [⟨true, true, true, .readMsg false, false⟩] ∧ ¬ s.WorkersRun) ∧
    ∃ s, run step initial [.registerHandler 1, .registerNext, .registerNext, .registerNext,
        .registerNext, .worker 0 false, .release, .worker 0 false, .worker 0 false, .worker 0 false,
        .worker 0 false] = some s ∧
      s.halted = some .memoryFault ∧ ¬ s.WorkersRun := by
  refine ⟨?_, ?_, ?_⟩
  · refine ⟨⟨[⟨true, false, false, .readMsg false, false⟩], some (.setHandlerGroup 0 1 0), true,
      some .memoryFault⟩, by decide +kernel, rfl, ?_⟩
    intro hrun
    cases hrun.calls
  · refine ⟨⟨[⟨true, true, true, .readMsg false, false⟩], none, true, none⟩, by decide +kernel, rfl,
      rfl, rfl, ?_⟩
    intro hrun
    have hrunning := hrun.running rfl rfl _ (List.mem_singleton.mpr rfl) rfl
    exact absurd hrunning.1 (by decide)
  · refine ⟨⟨[⟨true, true, true, .readMsg false, false⟩], none, false, some .memoryFault⟩,
      by decide +kernel, rfl, ?_⟩
    intro hrun
    cases hrun.calls

end HandlerThreads

end XFast
