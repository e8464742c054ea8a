import XFast.Base.InterestList
import XFast.Framework.Steps

/-! # Dispatching a batch of events

    `process` first collects everything that the poller reports in `fired_`
    and then looks the descriptor of each event up in the registry, one event
    after the other.  In between run the callbacks of the events that came
    first, and they may do anything with the registry.

    An event whose descriptor has been removed in the meantime finds no entry
    and is dropped.  But an entry under the same number may be another
    registration: the descriptor was removed and closed, and the kernel has
    handed out the number again.  Every registration gets a generation
    number here, and every event that of the registration it was reported
    for; no step of the loop reads them. -/

namespace XFast

open Steps

/-! ## Section 1: The loop with its batch -/

def EPOLLERR : Mask := 8
def EPOLLHUP : Mask := 16

structure XEvent where
  efd : Fd
  emask : Mask
  edata : Int
  deriving DecidableEq, Repr

/-- An element of `fired_`, with the generation of its registration. -/
structure Fired where
  event : XEvent
  generation : Nat
  deriving DecidableEq, Repr

/-- A call of a callback by `process`: the event, the generation it was
    reported for, and the generation of the registration called. -/
structure Invocation (κ : Type) where
  callback : κ
  event : XEvent
  reportedFor : Nat
  calledFor : Nat
  deriving DecidableEq, Repr

/-- Where the loop thread is. -/
inductive LoopPhase where
  /-- Not in the loop over `fired_`: before `process`, in the functors, in the timers. -/
  | outside
  /-- In the loop over `fired_`, at the test of its condition. -/
  | dispatching
  /-- In the callback of the first element of `fired_`. -/
  | running
  deriving DecidableEq, Repr

structure EventLoop (κ : Type) where
  loop : XLoop κ
  generations : Fd → Nat
  fired_ : List Fired
  phase : LoopPhase
  invoked : List (Invocation κ)

inductive EventLoopStep (κ : Type) where
  /-- `poller_.Wait`: the kernel reports descriptors with their epoll events. -/
  | wait (reported : List (Fd × Mask))
  /-- The next event of `fired_` is looked up. -/
  | dispatch
  /-- The callback returns. -/
  | callbackReturns
  /-- The callback throws; the exception leaves `process`. -/
  | callbackThrows
  /-- `fired_` is empty. -/
  | leave
  /-- A callback, a functor or a timer calls the registry. -/
  | call (op : RegistryOp κ)
  /-- A callback, a functor or a timer closes a descriptor. -/
  | close (fd : Fd)

namespace EventLoop

variable {κ : Type}

/-- A loop before its first `process`. -/
def initial (loop : XLoop κ) : EventLoop κ := ⟨loop, fun _ => 0, [], .outside, []⟩

/-! ## Section 2: The steps -/

/-- The mask that `Wait` computes from the epoll events. -/
def firedMask (events : Mask) : Mask :=
  (if events &&& EPOLLIN ≠ 0 then XE_READABLE else 0) |||
    (if events &&& EPOLLOUT ≠ 0 then XE_WRITABLE else 0) |||
    (if events &&& EPOLLERR ≠ 0 then XE_ERROR else 0) |||
    (if events &&& EPOLLHUP ≠ 0 then XE_HUP else 0)

/-- `edata` comes from the same union as `efd`, read as 64 bits. -/
def fire (s : EventLoop κ) (reported : Fd × Mask) : Fired :=
  ⟨⟨reported.1, firedMask reported.2, reported.1 % 2 ^ 32⟩, s.generations reported.1⟩

/-- The generations after an operation: `reg` starts a new one when it creates
    the entry. -/
def generationsAfter (s : EventLoop κ) : RegistryOp κ → Fd → Nat
  | .reg fd _ _ _ =>
      if (s.loop.register_ fd).isSome then s.generations
      else Function.update s.generations fd (s.generations fd + 1)
  | _ => s.generations

/-- User code runs: a callback, a functor or a timer. -/
def Calls (s : EventLoop κ) : Prop := s.phase ≠ .dispatching

instance (s : EventLoop κ) : Decidable s.Calls := inferInstanceAs (Decidable (_ ≠ _))

/-- A step that would end the process is not taken. -/
def step (s : EventLoop κ) : EventLoopStep κ → Option (EventLoop κ)
  | .wait reported =>
      if s.phase = .outside ∧ ∀ r ∈ reported, (s.loop.poller_ r.1).isSome then
        some { s with fired_ := s.fired_ ++ reported.map s.fire, phase := .dispatching }
      else none
  | .dispatch =>
      match s.phase, s.fired_ with
      | .dispatching, f :: rest =>
          match s.loop.register_ f.event.efd with
          | some xes =>
              some { s with
                phase := .running
                invoked := s.invoked ++
                  [⟨xes.callback, f.event, f.generation, s.generations f.event.efd⟩] }
          -- "missing callback"
          | none => some { s with fired_ := rest }
      | _, _ => none
  | .callbackReturns =>
      match s.phase, s.fired_ with
      | .running, _ :: rest => some { s with fired_ := rest, phase := .dispatching }
      | _, _ => none
  -- the event is still in front of `fired_`
  | .callbackThrows =>
      if s.phase = .running then some { s with phase := .outside } else none
  | .leave =>
      if s.phase = .dispatching ∧ s.fired_ = [] then some { s with phase := .outside } else none
  | .call op =>
      if s.Calls then
        match s.loop.apply op with
        | .ok loop => some { s with loop := loop, generations := s.generationsAfter op }
        | .error _ => none
      else none
  -- the kernel takes the descriptor out of the interest list
  | .close fd =>
      if s.Calls then
        some { s with
          loop := { s.loop with poller_ := Function.update s.loop.poller_ fd none } }
      else none

/-- What each step can do, with its guard. -/
inductive StepTo (s : EventLoop κ) : EventLoopStep κ → EventLoop κ → Prop where
  | wait (reported : List (Fd × Mask)) (hphase : s.phase = .outside) :
      StepTo s (.wait reported)
        { s with fired_ := s.fired_ ++ reported.map s.fire, phase := .dispatching }
  | invoke (f : Fired) (rest : List Fired) (xes : XEventState κ)
      (hphase : s.phase = .dispatching) (hfired : s.fired_ = f :: rest)
      (hxes : s.loop.register_ f.event.efd = some xes) :
      StepTo s .dispatch
        { s with
          phase := .running
          invoked := s.invoked ++
            [⟨xes.callback, f.event, f.generation, s.generations f.event.efd⟩] }
  | drop (f : Fired) (rest : List Fired) (hphase : s.phase = .dispatching)
      (hfired : s.fired_ = f :: rest) (hxes : s.loop.register_ f.event.efd = none) :
      StepTo s .dispatch { s with fired_ := rest }
  | callbackReturns (f : Fired) (rest : List Fired) (hphase : s.phase = .running)
      (hfired : s.fired_ = f :: rest) :
      StepTo s .callbackReturns { s with fired_ := rest, phase := .dispatching }
  | callbackThrows (hphase : s.phase = .running) :
      StepTo s .callbackThrows { s with phase := .outside }
  | leave (hphase : s.phase = .dispatching) (hfired : s.fired_ = []) :
      StepTo s .leave { s with phase := .outside }
  | call (op : RegistryOp κ) (loop : XLoop κ) (hcalls : s.Calls)
      (hop : s.loop.apply op = .ok loop) :
      StepTo s (.call op) { s with loop := loop, generations := s.generationsAfter op }
  | close (fd : Fd) (hcalls : s.Calls) :
      StepTo s (.close fd)
        { s with loop := { s.loop with poller_ := Function.update s.loop.poller_ fd none } }

theorem step_cases {s s' : EventLoop κ} {l : EventLoopStep κ} (h : s.step l = some s') :
    StepTo s l s' := by
  cases l with
  | wait reported =>
    dsimp only [step] at h
    split at h
    · rename_i hguard
      cases h
      exact .wait reported hguard.1
    · cases h
  | dispatch =>
    dsimp only [step] at h
    split at h
    · rename_i f rest hphase hfired
      split at h
      · rename_i xes hxes
        cases h
        exact .invoke f rest xes hphase hfired hxes
      · rename_i hxes
        cases h
        exact .drop f rest hphase hfired hxes
    · cases h
  | callbackReturns =>
    dsimp only [step] at h
    split at h
    · rename_i f rest hphase hfired
      cases h
      exact .callbackReturns f rest hphase hfired
    · cases h
  | callbackThrows =>
    dsimp only [step] at h
    split at h
    · rename_i hphase
      cases h
      exact .callbackThrows hphase
    · cases h
  | leave =>
    dsimp only [step] at h
    split at h
    · rename_i hguard
      cases h
      exact .leave hguard.1 hguard.2
    · cases h
  | call op =>
    dsimp only [step] at h
    split at h
    · rename_i hcalls
      split at h
      · rename_i loop hop
        cases h
        exact .call op loop hcalls hop
      · cases h
    · cases h
  | close fd =>
    dsimp only [step] at h
    split at h
    · rename_i hcalls
      cases h
      exact .close fd hcalls
    · cases h

/-! ## Section 3: Events and registrations -/

/-- Every callback was called with an event that had been reported for the
    registration it belongs to. -/
def Faithful (s : EventLoop κ) : Prop := ∀ i ∈ s.invoked, i.reportedFor = i.calledFor

instance (s : EventLoop κ) : Decidable s.Faithful :=
  inferInstanceAs (Decidable (∀ i ∈ s.invoked, _))

/-- The events that are still to be dispatched, if the callback that runs
    returns. -/
def waiting (s : EventLoop κ) : List Fired :=
  match s.phase with
  | .running => s.fired_.tail
  | _ => s.fired_

/-- The event is for the registration that there is, or there is none. -/
def Current (s : EventLoop κ) (f : Fired) : Prop :=
  (s.loop.register_ f.event.efd).isSome → f.generation = s.generations f.event.efd

instance (s : EventLoop κ) (f : Fired) : Decidable (s.Current f) :=
  inferInstanceAs (Decidable (_ → _))

/-- No `reg` creates an entry for a descriptor of which an event is waiting;
    and when a callback throws, its own event, which is not taken off, is not
    left to another registration. -/
def NotReused (s : EventLoop κ) : EventLoopStep κ → Prop
  | .call (.reg fd _ _ _) =>
      s.loop.register_ fd = none → ∀ f ∈ s.waiting, f.event.efd ≠ fd
  | .callbackThrows => ∀ f ∈ s.fired_.head?, s.Current f
  | _ => True

instance (s : EventLoop κ) : ∀ l, Decidable (s.NotReused l)
  | .call (.reg fd _ _ _) =>
      decidable_of_iff ((s.loop.register_ fd).isNone → ∀ f ∈ s.waiting, f.event.efd ≠ fd)
        (by rw [Option.isNone_iff_eq_none]; rfl)
  | .call (.remove _) | .call (.addEvent _ _) | .call (.removeEvent _ _) => isTrue trivial
  | .callbackThrows => inferInstanceAs (Decidable (∀ f ∈ s.fired_.head?, s.Current f))
  | .wait _ | .dispatch | .callbackReturns | .leave | .close _ => isTrue trivial

/-- The invariant of the runs without reuse. -/
structure Inv (s : EventLoop κ) : Prop where
  faithful : s.Faithful
  current : ∀ f ∈ s.waiting, s.Current f

theorem inv_initial (loop : XLoop κ) : (initial loop).Inv where
  faithful := by
    intro i hi
    cases hi
  current := by
    intro f hf
    cases hf

theorem waiting_of_dispatching {s : EventLoop κ} (h : s.phase = .dispatching) :
    s.waiting = s.fired_ := by
  unfold waiting
  rw [h]

/-- The only operation that creates an entry is `reg`. -/
theorem register_none_of_apply {loop loop' : XLoop κ} {op : RegistryOp κ}
    (hop : loop.apply op = .ok loop') {fd : Fd} (hnone : loop.register_ fd = none)
    (hreg : ∀ data mask cb, op ≠ .reg fd data mask cb) : loop'.register_ fd = none := by
  have hcallback : loop.callbackOf fd = none := by rw [XLoop.callbackOf, hnone, Option.map_none]
  have hgone : loop'.callbackOf fd = none → loop'.register_ fd = none :=
    Option.map_eq_none_iff.mp
  cases op with
  | reg fd' data mask cb =>
    have hne : fd ≠ fd' := by
      intro heq
      exact hreg data mask cb (heq ▸ rfl)
    rw [XLoop.reg_register hop, Function.update_of_ne hne]
    exact hnone
  | remove fd' =>
    apply hgone
    rw [XLoop.remove_callbackOf hop, hcallback, ite_self]
  | addEvent fd' mask =>
    apply hgone
    rw [XLoop.addEvent_callbackOf hop, hcallback]
  | removeEvent fd' mask =>
    apply hgone
    rw [XLoop.removeEvent_callbackOf_eq hop, hcallback]

/-- An operation of the registry leaves the waiting events current, unless it
    creates an entry for one of them. -/
theorem current_call {s : EventLoop κ} {op : RegistryOp κ} {loop : XLoop κ}
    (hop : s.loop.apply op = .ok loop) {f : Fired} (h : s.Current f)
    (hfresh : ∀ data mask cb, op = .reg f.event.efd data mask cb →
      s.loop.register_ f.event.efd ≠ none) :
    Current { s with loop := loop, generations := s.generationsAfter op } f := by
  intro hsome
  have hgen : s.generationsAfter op f.event.efd = s.generations f.event.efd := by
    cases op with
    | reg fd data mask cb =>
      by_cases hfd : f.event.efd = fd
      · have hentry : (s.loop.register_ fd).isSome := by
          rw [Option.isSome_iff_ne_none, ← hfd]
          exact hfresh data mask cb (by rw [hfd])
        simp only [generationsAfter, if_pos hentry]
      · simp only [generationsAfter]
        split
        · rfl
        · rw [Function.update_of_ne hfd]
    | _ => rfl
  show f.generation = s.generationsAfter op f.event.efd
  rw [hgen]
  apply h
  -- an entry that is there now was there before
  rw [Option.isSome_iff_ne_none]
  intro hnone
  rw [register_none_of_apply hop hnone fun data mask cb heq => hfresh data mask cb heq hnone]
    at hsome
  cases hsome

theorem inv_step (s : EventLoop κ) (l : EventLoopStep κ) (s' : EventLoop κ) (h : s.Inv)
    (hgood : s.NotReused l) (hstep : s.step l = some s') : s'.Inv := by
  cases step_cases hstep with
  | wait reported hphase =>
    refine ⟨h.faithful, ?_⟩
    have hwaiting : s.waiting = s.fired_ := by
      unfold waiting
      rw [hphase]
    intro f hf
    rw [waiting_of_dispatching rfl] at hf
    -- the new events carry the generations of now
    rcases List.mem_append.mp hf with hold | hnew
    · exact h.current f (hwaiting ▸ hold)
    · obtain ⟨r, _, rfl⟩ := List.mem_map.mp hnew
      exact fun _ => rfl
  | invoke f rest xes hphase hfired hxes =>
    have hcur := h.current
    rw [waiting_of_dispatching hphase, hfired] at hcur
    constructor
    · intro i hi
      rcases List.mem_append.mp hi with hold | hnew
      · exact h.faithful i hold
      · rw [List.mem_singleton] at hnew
        rw [hnew]
        exact hcur f List.mem_cons_self (by rw [hxes]; rfl)
    · intro g hg
      have hg : g ∈ rest := by simpa only [waiting, hfired, List.tail_cons] using hg
      exact hcur g (List.mem_cons_of_mem f hg)
  | drop f rest hphase hfired hxes =>
    have hcur := h.current
    rw [waiting_of_dispatching hphase, hfired] at hcur
    refine ⟨h.faithful, fun g hg => hcur g (List.mem_cons_of_mem f ?_)⟩
    simpa only [waiting, hphase] using hg
  | callbackReturns f rest hphase hfired =>
    refine ⟨h.faithful, fun g hg => h.current g ?_⟩
    simpa only [waiting, hphase, hfired, List.tail_cons] using hg
  | callbackThrows hphase =>
    -- the event that was being delivered waits again
    refine ⟨h.faithful, ?_⟩
    intro g hg
    have hg : g ∈ s.fired_ := hg
    cases hfired : s.fired_ with
    | nil =>
      rw [hfired] at hg
      cases hg
    | cons f rest =>
      have hhead : ∀ f ∈ s.fired_.head?, s.Current f := hgood
      rw [hfired] at hg hhead
      rcases List.mem_cons.mp hg with rfl | hrest
      · exact hhead g rfl
      · apply h.current g
        simpa only [waiting, hphase, hfired, List.tail_cons] using hrest
  | leave hphase hfired =>
    refine ⟨h.faithful, fun g hg => ?_⟩
    have hg : g ∈ s.fired_ := hg
    rw [hfired] at hg
    cases hg
  | call op loop hcalls hop =>
    -- a generation begins only under a number of which no event is waiting
    refine ⟨h.faithful, fun f hf => ?_⟩
    apply current_call hop (h.current f hf)
    intro data mask cb heq hnone
    subst heq
    exact hgood hnone f hf rfl
  | close fd hcalls => exact ⟨h.faithful, fun f hf => h.current f hf⟩

/-! ## Section 4: Events that go astray -/

/-- No event carries a generation that has not begun. -/
def Begun (s : EventLoop κ) : Prop :=
  ∀ f ∈ s.fired_, f.generation ≤ s.generations f.event.efd

theorem generations_le (s : EventLoop κ) (op : RegistryOp κ) (fd : Fd) :
    s.generations fd ≤ s.generationsAfter op fd := by
  cases op with
  | reg fd' data mask cb =>
    by_cases hfd : fd = fd'
    · subst hfd
      simp only [generationsAfter]
      split
      · exact Nat.le_refl _
      · rw [Function.update_self]
        exact Nat.le_succ _
    · simp only [generationsAfter]
      split
      · exact Nat.le_refl _
      · rw [Function.update_of_ne hfd]
  | _ => exact Nat.le_refl _

theorem begun_step (s : EventLoop κ) (l : EventLoopStep κ) (s' : EventLoop κ) (h : s.Begun)
    (hstep : s.step l = some s') : s'.Begun := by
  cases step_cases hstep with
  | wait reported hphase =>
    intro f hf
    rcases List.mem_append.mp hf with hold | hnew
    · exact h f hold
    · obtain ⟨r, _, rfl⟩ := List.mem_map.mp hnew
      exact Nat.le_refl _
  | invoke f rest xes hphase hfired hxes => exact h
  | drop f rest hphase hfired hxes =>
    intro g hg
    exact h g (hfired ▸ List.mem_cons_of_mem f hg)
  | callbackReturns f rest hphase hfired =>
    intro g hg
    exact h g (hfired ▸ List.mem_cons_of_mem f hg)
  | callbackThrows hphase => exact h
  | leave hphase hfired => exact h
  | call op loop hcalls hop =>
    intro f hf
    exact Nat.le_trans (h f hf) (s.generations_le op f.event.efd)
  | close fd hcalls => exact h

/-- A step of `process` itself: nobody calls the registry. -/
def isOwnStep : EventLoopStep κ → Bool
  | .wait _ | .dispatch | .callbackReturns => true
  | _ => false

theorem notReused_of_isOwnStep {l : EventLoopStep κ} (h : isOwnStep l) (s : EventLoop κ) :
    s.NotReused l := by
  cases l with
  | call op => cases h
  | callbackThrows => cases h
  | _ => trivial

/-- From here `process` alone leads to a call with an event of another
    registration. -/
def Misdelivers (s : EventLoop κ) : Prop :=
  ∃ ls s', (∀ l ∈ ls, isOwnStep l) ∧ run step s ls = some s' ∧ ¬ s'.Faithful

theorem misdelivers_of_step {s s₁ : EventLoop κ} {l : EventLoopStep κ} (hown : isOwnStep l)
    (hstep : s.step l = some s₁) (h : s₁.Misdelivers) : s.Misdelivers := by
  obtain ⟨ls, s', hls, hrun, hwrong⟩ := h
  refine ⟨l :: ls, s', ?_, run_cons_of_step hstep hrun, hwrong⟩
  intro l' hl'
  rcases List.mem_cons.mp hl' with rfl | hmem
  · exact hown
  · exact hls l' hmem

/-- Induction on the events in front of the stale one: each of them is
    dispatched or dropped, and nobody does anything. -/
theorem misdelivers_of_stale (fired : List Fired) : ∀ (s : EventLoop κ) (f : Fired),
    s.phase = .dispatching → s.fired_ = fired → f ∈ fired → ¬ s.Current f → s.Misdelivers := by
  induction fired with
  | nil =>
    intro s f _ _ hf
    cases hf
  | cons g rest ih =>
    intro s f hphase hfired hf hstale
    have hloc : ∀ xes, s.loop.register_ g.event.efd = some xes → s.step .dispatch = some { s with
        phase := .running
        invoked := s.invoked ++
          [⟨xes.callback, g.event, g.generation, s.generations g.event.efd⟩] } := by
      intro xes hxes
      simp only [step, hphase, hfired, hxes]
    rcases List.mem_cons.mp hf with rfl | hrest
    · -- the stale event is next
      unfold Current at hstale
      rw [Classical.not_imp] at hstale
      obtain ⟨hsome, hgen⟩ := hstale
      obtain ⟨xes, hxes⟩ := Option.isSome_iff_exists.mp hsome
      refine ⟨[.dispatch], _, ?_, run_cons_of_step (hloc xes hxes) rfl, ?_⟩
      · intro l hl
        rw [List.mem_singleton] at hl
        rw [hl]
        rfl
      · intro hfaithful
        exact hgen (hfaithful _ (List.mem_append_right _ (List.mem_singleton.mpr rfl)))
    · -- another event is in front of it, and is got out of the way
      cases hxes : s.loop.register_ g.event.efd with
      | none =>
        have hdrop : s.step .dispatch = some { s with fired_ := rest } := by
          simp only [step, hphase, hfired, hxes]
        exact misdelivers_of_step rfl hdrop (ih _ f hphase rfl hrest hstale)
      | some xes =>
        apply misdelivers_of_step rfl (hloc xes hxes)
        have hreturn : step { s with
            phase := .running
            invoked := s.invoked ++
              [⟨xes.callback, g.event, g.generation, s.generations g.event.efd⟩] }
            .callbackReturns = some { s with
              phase := .dispatching
              fired_ := rest
              invoked := s.invoked ++
                [⟨xes.callback, g.event, g.generation, s.generations g.event.efd⟩] } := by
          simp only [step, hfired]
        exact misdelivers_of_step rfl hreturn (ih _ f rfl rfl hrest hstale)

/-- The same from outside the loop over `fired_`: the poller reports nothing
    new. -/
theorem misdelivers_of_outside {s : EventLoop κ} {f : Fired} (hphase : s.phase = .outside)
    (hf : f ∈ s.fired_) (hstale : ¬ s.Current f) : s.Misdelivers := by
  have hwait : s.step (.wait []) = some { s with phase := .dispatching } := by
    simp [step, hphase]
  exact misdelivers_of_step rfl hwait (misdelivers_of_stale s.fired_ _ f rfl rfl hf hstale)

/-- The same from within user code, which returns. -/
theorem misdelivers_of_waiting {s : EventLoop κ} {f : Fired} (hcalls : s.Calls)
    (hf : f ∈ s.waiting) (hstale : ¬ s.Current f) : s.Misdelivers := by
  unfold waiting at hf
  split at hf
  · rename_i hphase
    cases hfired : s.fired_ with
    | nil =>
      rw [hfired] at hf
      cases hf
    | cons g rest =>
      rw [hfired] at hf
      have hreturn : s.step .callbackReturns =
          some { s with fired_ := rest, phase := .dispatching } := by
        simp only [step, hphase, hfired]
      exact misdelivers_of_step rfl hreturn (misdelivers_of_stale rest _ f rfl rfl hf hstale)
  · rename_i hrunning
    have hphase : s.phase = .outside := by
      cases hphase : s.phase with
      | outside => rfl
      | dispatching => exact absurd hphase hcalls
      | running => exact absurd hphase hrunning
    exact misdelivers_of_outside hphase hf hstale

/-- A step that reuses a number leads astray. -/
theorem misdelivers_of_reuse {s s₁ : EventLoop κ} {l : EventLoopStep κ} (h : s.Begun)
    (hstep : s.step l = some s₁) (hreuse : ¬ s.NotReused l) : s₁.Misdelivers := by
  cases step_cases hstep with
  | callbackThrows hphase =>
    have hreuse : ¬ ∀ f ∈ s.fired_.head?, s.Current f := hreuse
    simp only [Classical.not_forall] at hreuse
    obtain ⟨f, hf, hstale⟩ := hreuse
    exact misdelivers_of_outside rfl (List.mem_of_mem_head? hf) hstale
  | call op loop hcalls hop =>
    cases op with
    | reg fd data mask cb =>
      have hreuse : ¬ (s.loop.register_ fd = none → ∀ f ∈ s.waiting, f.event.efd ≠ fd) := hreuse
      simp only [Classical.not_forall, ne_eq, Decidable.not_not] at hreuse
      obtain ⟨hnone, f, hf, hfd⟩ := hreuse
      -- the entry that is created is of a generation that no event has
      have hstale : ¬ Current { s with
          loop := loop, generations := s.generationsAfter (.reg fd data mask cb) } f := by
        intro hcur
        have hle : ∀ g ∈ s.waiting, g.generation ≤ s.generations g.event.efd := by
          intro g hg
          apply h g
          unfold waiting at hg
          split at hg
          · exact List.mem_of_mem_tail hg
          · exact hg
        have hentry : (loop.register_ f.event.efd).isSome := by
          rw [XLoop.reg_register hop, hfd, Function.update_self]
          rfl
        have hgen : f.generation = s.generationsAfter (.reg fd data mask cb) f.event.efd :=
          hcur hentry
        have hnew : s.generationsAfter (.reg fd data mask cb) fd = s.generations fd + 1 := by
          simp only [generationsAfter, hnone, Option.isSome_none, Bool.false_eq_true, if_false,
            Function.update_self]
        have hold := hle f hf
        rw [hfd, hnew] at hgen
        rw [hfd] at hold
        omega
      exact misdelivers_of_waiting hcalls hf hstale
    | _ => exact absurd trivial hreuse
  | _ => exact absurd trivial hreuse

/-- **Dispatch.**  In every run, from every registry, with any batches and any
    callbacks: if no number of which an event is waiting is registered anew,
    every callback is called with events of its own registration only.  Of the
    steps that are possible then, exactly those that reuse no such number can
    never lead to anything else. -/
theorem dispatched_to_own_registration (loop : XLoop κ) (ls : List (EventLoopStep κ))
    (s : EventLoop κ) (hgood : AllSteps step NotReused (initial loop) ls)
    (hrun : run step (initial loop) ls = some s) :
    s.Faithful ∧ ∀ l s₁, s.step l = some s₁ →
      (s.NotReused l ↔
        ∀ ls' s', AllSteps step NotReused s₁ ls' → run step s₁ ls' = some s' → s'.Faithful) := by
  have hbegun : (initial loop).Begun := by
    intro f hf
    cases hf
  have hkeep : ∀ (s : EventLoop κ) l s', s.Inv ∧ s.Begun → s.NotReused l → s.step l = some s' →
      s'.Inv ∧ s'.Begun := fun s l s' h hnew hstep =>
    ⟨inv_step s l s' h.1 hnew hstep, begun_step s l s' h.2 hstep⟩
  apply keeps_and_exact ⟨inv_initial loop, hbegun⟩ hkeep (fun _ h => h.1.faithful) _ hgood hrun
  intro s l s₁ h hstep hreuse
  obtain ⟨ls', s', hls, hrun', hwrong⟩ := misdelivers_of_reuse h.2 hstep hreuse
  refine ⟨ls', s', ?_, hrun', hwrong⟩
  exact allSteps_of_forall ls' s₁ fun l hl t => notReused_of_isOwnStep (hls l hl) t

/-- Three registrations: the callback of the first event removes descriptor 5,
    and its event is dropped. -/
theorem dispatched_to_own_registration_three : ∃ s : EventLoop Nat,
    run step (initial ⟨fun _ => none, fun _ => none⟩)
      [.call (.reg 3 0 XE_READABLE 30), .call (.reg 5 0 XE_READABLE 50),
        .call (.reg 6 0 XE_READABLE 60),
        .wait [(6, EPOLLIN), (3, EPOLLIN), (5, EPOLLHUP)], .dispatch, .call (.remove 5), .close 5,
        .callbackReturns, .dispatch, .callbackReturns, .dispatch, .leave] = some s ∧
    s.invoked.map (·.callback) = [60, 30] ∧ s.Faithful := by
  obtain ⟨s, hs⟩ := Option.isSome_iff_exists.mp (show (run step
    (initial (⟨fun _ => none, fun _ => none⟩ : XLoop Nat))
      [.call (.reg 3 0 XE_READABLE 30), .call (.reg 5 0 XE_READABLE 50),
        .call (.reg 6 0 XE_READABLE 60),
        .wait [(6, EPOLLIN), (3, EPOLLIN), (5, EPOLLHUP)], .dispatch, .call (.remove 5), .close 5,
        .callbackReturns, .dispatch, .callbackReturns, .dispatch, .leave]).isSome by
    decide +kernel)
  have hinvoked : (run step (initial (⟨fun _ => none, fun _ => none⟩ : XLoop Nat))
      [.call (.reg 3 0 XE_READABLE 30), .call (.reg 5 0 XE_READABLE 50),
        .call (.reg 6 0 XE_READABLE 60),
        .wait [(6, EPOLLIN), (3, EPOLLIN), (5, EPOLLHUP)], .dispatch, .call (.remove 5), .close 5,
        .callbackReturns, .dispatch, .callbackReturns, .dispatch, .leave]).map
        (fun s => s.invoked.map (·.callback)) = some [60, 30] := by decide +kernel
  rw [hs] at hinvoked
  exact ⟨s, hs, Option.some.inj hinvoked,
    (dispatched_to_own_registration _ _ s (by decide +kernel) hs).1⟩

/-- The callback of descriptor 6 closes descriptor 5, of which a hangup is
    waiting; the callback of the listening descriptor 3 accepts a connection,
    gets the number 5 and registers it.  The hangup of the old descriptor goes
    to the new connection. -/
theorem hangup_to_successor : ∃ s : EventLoop Nat,
    run step (initial ⟨fun _ => none, fun _ => none⟩)
      [.call (.reg 3 0 XE_READABLE 30), .call (.reg 5 0 XE_READABLE 50),
        .call (.reg 6 0 XE_READABLE 60),
        .wait [(6, EPOLLIN), (3, EPOLLIN), (5, EPOLLHUP)], .dispatch, .call (.remove 5), .close 5,
        .callbackReturns, .dispatch, .call (.reg 5 0 XE_READABLE 51), .callbackReturns,
        .dispatch] = some s ∧
    s.invoked.getLast? = some ⟨51, ⟨5, XE_HUP, 5⟩, 1, 2⟩ ∧ ¬ s.Faithful := by
  obtain ⟨s, hs⟩ := Option.isSome_iff_exists.mp (show (run step
    (initial (⟨fun _ => none, fun _ => none⟩ : XLoop Nat))
      [.call (.reg 3 0 XE_READABLE 30), .call (.reg 5 0 XE_READABLE 50),
        .call (.reg 6 0 XE_READABLE 60),
        .wait [(6, EPOLLIN), (3, EPOLLIN), (5, EPOLLHUP)], .dispatch, .call (.remove 5), .close 5,
        .callbackReturns, .dispatch, .call (.reg 5 0 XE_READABLE 51), .callbackReturns,
        .dispatch]).isSome by decide +kernel)
  have hlast : (run step (initial (⟨fun _ => none, fun _ => none⟩ : XLoop Nat))
      [.call (.reg 3 0 XE_READABLE 30), .call (.reg 5 0 XE_READABLE 50),
        .call (.reg 6 0 XE_READABLE 60),
        .wait [(6, EPOLLIN), (3, EPOLLIN), (5, EPOLLHUP)], .dispatch, .call (.remove 5), .close 5,
        .callbackReturns, .dispatch, .call (.reg 5 0 XE_READABLE 51), .callbackReturns,
        .dispatch]).map (fun s => s.invoked.getLast?) =
      some (some ⟨51, ⟨5, XE_HUP, 5⟩, 1, 2⟩) := by decide +kernel
  rw [hs] at hlast
  have hlast := Option.some.inj hlast
  refine ⟨s, hs, hlast, ?_⟩
  intro hfaithful
  have heq := hfaithful _ (List.mem_of_getLast? hlast)
  exact absurd heq (by decide)

end EventLoop

end XFast
