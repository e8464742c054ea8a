import Mathlib.Data.List.Perm.Subperm
import XFast.Base.TimerQueue

/-! # Timers of a loop

    The queue of `TimerQueue` with all that works on it: `runAfter`,
    `runEvery` and `runRepeat`, which construct a timer and return its id;
    `AddTimer` and `RemoveTime`, which the loop thread runs inline or later;
    and the passes of `triggerTimer`, cut at the callbacks, so that a callback
    may create, add and remove timers while the pass holds its iterator.

    A timer is an object at an address, and an id is nothing but the address.
    An object that is destroyed leaves its address to the allocator, which may
    hand it out again.  Reading an object that is not there is a fault; it
    ends the run.

    `created`, `fired` and `removed` are history: no function reads them,
    except that an id is looked up in `created` to get its address. -/

namespace XFast

open Steps

/-! ## Section 1: Timer objects -/

/-- A timer and where it lies. -/
structure TimerObj where
  address : Nat
  timer : XTimer
  deriving DecidableEq, Repr

namespace TimerObj

def serial (o : TimerObj) : Int := o.timer.timerSerial_

/-- What a new expiration leaves alone. -/
def ident (o : TimerObj) : Int × Nat := (o.serial, o.address)

/-- `xTimer::Cmp` on the pointers in the set. -/
def Cmp (lth rth : TimerObj) : Prop := XTimer.Cmp lth.timer rth.timer

instance : DecidableRel Cmp := fun _ _ => inferInstanceAs (Decidable (XTimer.Cmp _ _))

theorem cmp_asymm (a b : TimerObj) (h : Cmp a b) : ¬ Cmp b a := XTimer.cmp_asymm _ _ h

end TimerObj

/-- The calls of `xLoop` that create timers. -/
inductive TimerKind where
  | runAfter (interval : Int)
  | runEvery (interval : Int)
  | runRepeat (repeat_ interval : Int)
  deriving DecidableEq, Repr

namespace TimerKind

def interval : TimerKind → Int
  | .runAfter interval | .runEvery interval | .runRepeat _ interval => interval

/-- How often the timer is to run, where that is bounded. -/
def count : TimerKind → Option Int
  | .runAfter _ => some 1
  | .runEvery _ => none
  | .runRepeat repeat_ _ => some repeat_

/-- The timer that is constructed when the clock returns `now`. -/
def construct (now serial : Int) : TimerKind → XTimer
  | .runAfter interval => .once (now + interval) serial
  | .runEvery interval => .periodic (-1) interval now serial
  | .runRepeat repeat_ interval => .periodic repeat_ interval now serial

/-- The `assert(repeat > 0)` of `runRepeat`. -/
def Asserted : TimerKind → Prop
  | .runAfter _ | .runEvery _ => True
  | .runRepeat repeat_ _ => 0 < repeat_

instance (kind : TimerKind) : Decidable kind.Asserted :=
  match kind with
  | .runAfter _ | .runEvery _ => isTrue trivial
  | .runRepeat repeat_ _ => inferInstanceAs (Decidable (0 < repeat_))

@[simp] theorem construct_serial (now serial : Int) (kind : TimerKind) :
    (kind.construct now serial).timerSerial_ = serial := by
  cases kind <;> rfl

end TimerKind

/-- A timer that was created: by which call, when, with which serial, and the
    id that was returned. -/
structure Created where
  kind : TimerKind
  t0 : Int
  serial : Int
  timerId : Nat
  deriving DecidableEq, Repr

/-- The start of a callback: of which timer, in which pass, and the `timeNow`
    of that pass. -/
structure Firing where
  serial : Int
  timeNow : Int
  pass : Nat
  deriving DecidableEq, Repr

/-- An object that was destroyed by a `RemoveTime`, and the timer whose id was
    given. -/
structure Removal where
  asked : Int
  erased : Int
  deriving DecidableEq, Repr

/-! ## Section 2: The loop -/

/-- Where the loop thread is: outside of `triggerTimer`, or in the callback of
    the timer that the iterator of the pass points to. -/
inductive TimerPhase where
  | idle
  | calling (timeNow : Int) (it : Int)
  deriving DecidableEq, Repr

/-- The callback of this timer is running. -/
def TimerPhase.runs (phase : TimerPhase) (serial : Int) : Bool :=
  match phase with
  | .idle => false
  | .calling _ it => it = serial

@[simp] theorem TimerPhase.runs_idle (serial : Int) : TimerPhase.idle.runs serial = false := rfl

theorem TimerPhase.runs_calling (timeNow it serial : Int) :
    (TimerPhase.calling timeNow it).runs serial = decide (it = serial) := rfl

/-- `timers_` in set order; the objects that are bound in a functor for
    `AddTimer`; the phase; the numbers of clock reads and of passes so far;
    and the history. -/
structure TimerLoop where
  timers_ : List TimerObj
  bound : List TimerObj
  phase : TimerPhase
  tick : Nat
  passes : Nat
  created : List Created
  fired : List Firing
  removed : List Removal
  halted : Option Halt
  deriving DecidableEq, Repr

/-- What the environment may let happen next. -/
inductive TimerLabel where
  /-- A timer is created, by any thread, at an address that is free. -/
  | create (kind : TimerKind) (serial : Int) (address : Nat)
  /-- The loop thread adds it; `shape` is the tree of the set. -/
  | AddTimer (serial : Int) (shape : BinaryTree TimerObj)
  /-- The loop thread runs `RemoveTime` with the id of this timer. -/
  | RemoveTime (serial : Int) (shape : BinaryTree TimerObj)
  | triggerTimer
  | callbackReturns

namespace TimerLoop

def initial : TimerLoop := ⟨[], [], .idle, 0, 0, [], [], [], none⟩

/-- The timer objects that have not been destroyed. -/
def live (s : TimerLoop) : List TimerObj := s.timers_ ++ s.bound

def create (clock : Nat → Int) (s : TimerLoop) (kind : TimerKind) (serial : Int) (address : Nat) :
    TimerLoop :=
  { s with
    bound := s.bound ++ [⟨address, kind.construct (clock s.tick) serial⟩]
    tick := s.tick + 1
    created := s.created ++ [⟨kind, clock s.tick, serial, address⟩] }

/-- An object that the set does not take is destroyed with its `unique_ptr`. -/
def AddTimer (s : TimerLoop) (o : TimerObj) (shape : BinaryTree TimerObj) : TimerLoop :=
  { s with
    timers_ := SearchTree.keys (SearchTree.insert TimerObj.Cmp o shape)
    bound := s.bound.erase o }

/-- `erase` compares the object at the address with the elements of the set,
    if there are any. -/
def RemoveTime (s : TimerLoop) (timer : Created) (shape : BinaryTree TimerObj) : TimerLoop :=
  if s.timers_ = [] then s
  else
    match s.live.find? (·.address = timer.timerId) with
    | none => { s with halted := some .memoryFault }
    | some key =>
        -- whichever timer is at the address now
        let rest := SearchTree.erase TimerObj.Cmp key shape
        { s with
          timers_ := rest
          removed := s.removed ++
            (s.timers_.filter (· ∉ rest)).map fun o => ⟨timer.serial, o.serial⟩ }

/-- The head of the loop of `triggerTimer`, with the iterator at the first of
    these timers: leave the loop, or start a callback. -/
def advance (s : TimerLoop) (timeNow : Int) : List TimerObj → TimerLoop
  | [] => { s with phase := .idle }
  | o :: _ =>
      if o.timer.expiration_ > timeNow then { s with phase := .idle }
      else
        { s with
          phase := .calling timeNow o.serial
          fired := s.fired ++ [⟨o.serial, timeNow, s.passes⟩] }

def triggerTimer (clock : Nat → Int) (s : TimerLoop) : TimerLoop :=
  advance { s with tick := s.tick + 1, passes := s.passes + 1 } (clock s.tick) s.timers_

/-- The rest of the loop body, after `doCallBack`. -/
def callbackReturns (clock : Nat → Int) (s : TimerLoop) (timeNow it : Int) : TimerLoop :=
  let front := s.timers_.takeWhile (·.serial ≠ it)
  match s.timers_.dropWhile (·.serial ≠ it) with
  -- `hasNextTime` of an object that the callback has destroyed
  | [] => { s with halted := some .memoryFault }
  | o :: rest =>
      if o.timer.hasNextTime then
        match o.timer.nextRepeat clock s.tick with
        | .error e => { s with halted := some e }
        | .ok (timer, tick) =>
            advance { s with timers_ := front ++ ⟨o.address, timer⟩ :: rest, tick := tick } timeNow
              rest
      else advance { s with timers_ := front ++ rest } timeNow rest

def step (clock : Nat → Int) (s : TimerLoop) (l : TimerLabel) : Option TimerLoop :=
  if s.halted ≠ none then none
  else
    match l with
    | .create kind serial address =>
        -- serials come from a counter, addresses from the allocator
        if kind.Asserted ∧ serial ∉ s.created.map (·.serial) ∧
            address ∉ s.live.map (·.address) then
          some (s.create clock kind serial address)
        else none
    | .AddTimer serial shape =>
        match s.bound.find? (·.serial = serial) with
        | none => none
        | some o => if SearchTree.keys shape = s.timers_ then some (s.AddTimer o shape) else none
    | .RemoveTime serial shape =>
        -- any id that was ever returned
        match s.created.find? (·.serial = serial) with
        | none => none
        | some timer =>
            if SearchTree.keys shape = s.timers_ then some (s.RemoveTime timer shape) else none
    | .triggerTimer =>
        match s.phase with
        | .idle => some (s.triggerTimer clock)
        | .calling _ _ => none
    | .callbackReturns =>
        match s.phase with
        | .idle => none
        | .calling timeNow it => some (s.callbackReturns clock timeNow it)

/-! ## Section 3: What each step can do -/

/-- One constructor for each outcome of a step, with its guard. -/
inductive StepTo (clock : Nat → Int) (s : TimerLoop) : TimerLabel → TimerLoop → Prop where
  | create (kind : TimerKind) (serial : Int) (address : Nat) (hasserted : kind.Asserted)
      (hserial : serial ∉ s.created.map (·.serial)) (haddress : address ∉ s.live.map (·.address)) :
      StepTo clock s (.create kind serial address) (s.create clock kind serial address)
  | AddTimer (o : TimerObj) (shape : BinaryTree TimerObj) (hbound : o ∈ s.bound)
      (hshape : SearchTree.keys shape = s.timers_) :
      StepTo clock s (.AddTimer o.serial shape) (s.AddTimer o shape)
  | RemoveTime (timer : Created) (shape : BinaryTree TimerObj) (hcreated : timer ∈ s.created)
      (hshape : SearchTree.keys shape = s.timers_) :
      StepTo clock s (.RemoveTime timer.serial shape) (s.RemoveTime timer shape)
  | triggerTimer (hidle : s.phase = .idle) :
      StepTo clock s .triggerTimer (s.triggerTimer clock)
  /-- The timer has a next time and stays where it is. -/
  | nextRepeat (timeNow : Int) (front rest : List TimerObj) (o : TimerObj) (timer : XTimer)
      (tick : Nat) (hphase : s.phase = .calling timeNow o.serial)
      (htimers : s.timers_ = front ++ o :: rest) (hnext : o.timer.hasNextTime)
      (hrepeat : o.timer.nextRepeat clock s.tick = .ok (timer, tick)) :
      StepTo clock s .callbackReturns
        (advance { s with timers_ := front ++ ⟨o.address, timer⟩ :: rest, tick := tick } timeNow
          rest)
  /-- The timer has run for the last time and is erased. -/
  | done (timeNow : Int) (front rest : List TimerObj) (o : TimerObj)
      (hphase : s.phase = .calling timeNow o.serial) (htimers : s.timers_ = front ++ o :: rest)
      (hnext : o.timer.hasNextTime = false) :
      StepTo clock s .callbackReturns
        (advance { s with timers_ := front ++ rest } timeNow rest)
  /-- The timer that the iterator points to is not there any more. -/
  | gone (timeNow it : Int) (hphase : s.phase = .calling timeNow it)
      (hgone : it ∉ s.timers_.map TimerObj.serial) :
      StepTo clock s .callbackReturns { s with halted := some .memoryFault }

theorem not_of_dropWhile_cons {α : Type} {p : α → Bool} {l rest : List α} {a : α}
    (h : l.dropWhile p = a :: rest) : p a = false := by
  have hne : l.dropWhile p ≠ [] := by
    rw [h]
    exact List.cons_ne_nil a rest
  have hhead := List.head_dropWhile_not p hne
  simpa only [h, List.head_cons] using hhead

/-- After the callback: the iterator points to a timer of the set, or the
    object is gone. -/
theorem callbackReturns_cases {clock : Nat → Int} {s : TimerLoop} {timeNow it : Int}
    (hphase : s.phase = .calling timeNow it) :
    StepTo clock s .callbackReturns (s.callbackReturns clock timeNow it) := by
  unfold callbackReturns
  dsimp only
  split
  · rename_i hnil
    refine .gone timeNow it hphase ?_
    intro hmem
    obtain ⟨o, ho, hserial⟩ := List.mem_map.mp hmem
    have hne := List.dropWhile_eq_nil_iff.mp hnil o ho
    exact absurd hserial (by simpa using hne)
  · rename_i o rest hcons
    have hserial : o.serial = it := by
      have hstop := not_of_dropWhile_cons hcons
      simpa using hstop
    have htimers : s.timers_ = s.timers_.takeWhile (·.serial ≠ it) ++ o :: rest := by
      rw [← hcons, List.takeWhile_append_dropWhile]
    rw [← hserial] at hphase
    by_cases hnext : o.timer.hasNextTime = true
    · obtain ⟨timer, tick, hrepeat, _⟩ := XTimer.nextRepeat_ok clock s.tick hnext
      rw [if_pos hnext, hrepeat]
      exact .nextRepeat timeNow _ rest o timer tick hphase htimers hnext hrepeat
    · rw [if_neg hnext]
      exact .done timeNow _ rest o hphase htimers (Bool.eq_false_iff.mpr hnext)

theorem step_cases {clock : Nat → Int} {s s' : TimerLoop} {l : TimerLabel}
    (h : s.step clock l = some s') : s.halted = none ∧ StepTo clock s l s' := by
  unfold step at h
  split at h
  · cases h
  · rename_i hrunning
    refine ⟨not_ne_iff.mp hrunning, ?_⟩
    cases l with
    | create kind serial address =>
      dsimp only at h
      split at h
      · rename_i hguard
        cases h
        exact .create kind serial address hguard.1 hguard.2.1 hguard.2.2
      · cases h
    | AddTimer serial shape =>
      dsimp only at h
      split at h
      · cases h
      · rename_i o hfind
        have hserial := List.find?_some hfind
        split at h
        · rename_i hshape
          cases h
          rw [← of_decide_eq_true hserial]
          exact .AddTimer o shape (List.mem_of_find?_eq_some hfind) hshape
        · cases h
    | RemoveTime serial shape =>
      dsimp only at h
      split at h
      · cases h
      · rename_i timer hfind
        have hserial := List.find?_some hfind
        split at h
        · rename_i hshape
          cases h
          rw [← of_decide_eq_true hserial]
          exact .RemoveTime timer shape (List.mem_of_find?_eq_some hfind) hshape
        · cases h
    | triggerTimer =>
      dsimp only at h
      split at h
      · rename_i hidle
        cases h
        exact .triggerTimer hidle
      · cases h
    | callbackReturns =>
      dsimp only at h
      split at h
      · cases h
      · rename_i timeNow it hphase
        cases h
        exact callbackReturns_cases hphase

theorem step_callbackReturns {clock : Nat → Int} {s : TimerLoop} {timeNow it : Int}
    (hrunning : s.halted = none) (hphase : s.phase = .calling timeNow it) :
    s.step clock .callbackReturns = some (s.callbackReturns clock timeNow it) := by
  unfold step
  rw [if_neg (not_not_intro hrunning), hphase]

/-! ## Section 4: Objects -/

/-- Each object has a serial of its own, of a timer that was created, and its
    address is the id that was returned for that timer. -/
structure Objects (s : TimerLoop) : Prop where
  serials : (s.live.map TimerObj.serial).Nodup
  addresses : (s.live.map TimerObj.address).Nodup
  created : (s.created.map Created.serial).Nodup
  recorded : ∀ o ∈ s.live, ∃ c ∈ s.created, c.serial = o.serial ∧ c.timerId = o.address

namespace Objects

variable {s : TimerLoop}

/-- Two objects with one serial are the same. -/
theorem eq_of_serial (h : s.Objects) {a b : TimerObj} (ha : a ∈ s.live) (hb : b ∈ s.live)
    (hserial : a.serial = b.serial) : a = b :=
  List.inj_on_of_nodup_map h.serials ha hb hserial

theorem ne_of_bound (h : s.Objects) {a b : TimerObj} (ha : a ∈ s.timers_) (hb : b ∈ s.bound) :
    a.serial ≠ b.serial := by
  have hnodup := h.serials
  rw [live, List.map_append, List.nodup_append] at hnodup
  exact hnodup.2.2 _ (List.mem_map_of_mem ha) _ (List.mem_map_of_mem hb)

/-- Where objects go and nothing else happens to their identities. -/
theorem of_subperm (h : s.Objects) {s' : TimerLoop}
    (hlive : (s'.live.map TimerObj.ident).Subperm (s.live.map TimerObj.ident))
    (hcreated : s'.created = s.created) : s'.Objects := by
  obtain ⟨idents, hperm, hsub⟩ := hlive
  have hnodup : ∀ {β : Type} (f : Int × Nat → β),
      ((s.live.map TimerObj.ident).map f).Nodup → ((s'.live.map TimerObj.ident).map f).Nodup := by
    intro β f hf
    exact (hperm.map f).nodup_iff.mp (hf.sublist (hsub.map f))
  constructor
  · have hserials := hnodup Prod.fst
    simp only [List.map_map] at hserials
    exact hserials h.serials
  · have haddresses := hnodup Prod.snd
    simp only [List.map_map] at haddresses
    exact haddresses h.addresses
  · rw [hcreated]
    exact h.created
  · intro o ho
    have hmem : o.ident ∈ s.live.map TimerObj.ident :=
      hsub.subset (hperm.mem_iff.mpr (List.mem_map_of_mem ho))
    obtain ⟨o', ho', hident⟩ := List.mem_map.mp hmem
    obtain ⟨c, hc, hserial, haddress⟩ := h.recorded o' ho'
    have hsame := Prod.ext_iff.mp hident
    rw [hcreated]
    exact ⟨c, hc, hserial.trans hsame.1, haddress.trans hsame.2⟩

theorem create (h : s.Objects) (clock : Nat → Int) (kind : TimerKind) {serial : Int}
    {address : Nat} (hserial : serial ∉ s.created.map Created.serial)
    (haddress : address ∉ s.live.map TimerObj.address) :
    (s.create clock kind serial address).Objects := by
  have hlive : (s.create clock kind serial address).live =
      s.live ++ [⟨address, kind.construct (clock s.tick) serial⟩] :=
    (List.append_assoc _ _ _).symm
  have hnew : serial ∉ s.live.map TimerObj.serial := by
    intro hmem
    obtain ⟨o, ho, rfl⟩ := List.mem_map.mp hmem
    obtain ⟨c, hc, hsame, _⟩ := h.recorded o ho
    exact hserial (hsame ▸ List.mem_map_of_mem hc)
  have hconstruct : TimerObj.serial ⟨address, kind.construct (clock s.tick) serial⟩ = serial :=
    kind.construct_serial _ _
  constructor
  · rw [hlive, List.map_append, List.map_singleton, hconstruct]
    exact List.nodup_append_comm.mp (List.nodup_cons.mpr ⟨hnew, h.serials⟩)
  · rw [hlive, List.map_append]
    exact List.nodup_append_comm.mp (List.nodup_cons.mpr ⟨haddress, h.addresses⟩)
  · show ((s.created ++ [_]).map Created.serial).Nodup
    rw [List.map_append]
    exact List.nodup_append_comm.mp (List.nodup_cons.mpr ⟨hserial, h.created⟩)
  · intro o ho
    rw [hlive] at ho
    rcases List.mem_append.mp ho with hold | hnew
    · obtain ⟨c, hc, hsame⟩ := h.recorded o hold
      exact ⟨c, List.mem_append_left _ hc, hsame⟩
    · rw [List.mem_singleton] at hnew
      subst hnew
      exact ⟨_, List.mem_append_right _ (List.mem_singleton.mpr rfl), hconstruct.symm, rfl⟩

/-- The set takes every timer: none has its serial. -/
theorem insert_eq (h : s.Objects) {o : TimerObj} {shape : BinaryTree TimerObj}
    (hbound : o ∈ s.bound) (hshape : SearchTree.keys shape = s.timers_) :
    ∃ before after, s.timers_ = before ++ after ∧
      (s.AddTimer o shape).timers_ = before ++ o :: after := by
  rw [← hshape]
  apply SearchTree.keys_insert_of_ne
  intro a ha
  rw [hshape] at ha
  by_contra hsame
  rw [not_or] at hsame
  exact h.ne_of_bound ha hbound (XTimer.serial_eq_of_not_cmp hsame.2 hsame.1)

theorem mem_AddTimer (h : s.Objects) {o : TimerObj} {shape : BinaryTree TimerObj}
    (hbound : o ∈ s.bound) (hshape : SearchTree.keys shape = s.timers_) (a : TimerObj) :
    a ∈ (s.AddTimer o shape).timers_ ↔ a = o ∨ a ∈ s.timers_ := by
  obtain ⟨before, after, hold, hnew⟩ := h.insert_eq hbound hshape
  rw [hold, hnew, List.mem_append, List.mem_append, List.mem_cons]
  tauto

theorem AddTimer (h : s.Objects) {o : TimerObj} {shape : BinaryTree TimerObj}
    (hbound : o ∈ s.bound) (hshape : SearchTree.keys shape = s.timers_) :
    (s.AddTimer o shape).Objects := by
  obtain ⟨before, after, hold, hnew⟩ := h.insert_eq hbound hshape
  refine h.of_subperm ?_ rfl
  apply List.Perm.subperm
  apply List.Perm.map
  show ((s.AddTimer o shape).timers_ ++ s.bound.erase o).Perm (s.timers_ ++ s.bound)
  rw [hnew, hold]
  -- the object moves from one list to the other
  refine (List.perm_middle.append_right _).trans ?_
  refine List.Perm.trans ?_ ((List.perm_cons_erase hbound).symm.append_left _)
  exact List.perm_middle.symm

theorem RemoveTime (h : s.Objects) (timer : Created) {shape : BinaryTree TimerObj}
    (hshape : SearchTree.keys shape = s.timers_) : (s.RemoveTime timer shape).Objects := by
  unfold TimerLoop.RemoveTime
  split
  · exact h
  · split
    · exact ⟨h.serials, h.addresses, h.created, h.recorded⟩
    · rename_i key _
      refine h.of_subperm ?_ rfl
      apply List.Sublist.subperm
      apply List.Sublist.map
      apply List.Sublist.append_right
      rw [← hshape]
      exact SearchTree.erase_sublist TimerObj.cmp_asymm key shape

theorem advance (h : s.Objects) (timeNow : Int) (rest : List TimerObj) :
    (TimerLoop.advance s timeNow rest).Objects := by
  unfold TimerLoop.advance
  split
  · exact ⟨h.serials, h.addresses, h.created, h.recorded⟩
  · split <;> exact ⟨h.serials, h.addresses, h.created, h.recorded⟩

/-- A new expiration changes no identity. -/
theorem nextRepeat (h : s.Objects) {clock : Nat → Int} {front rest : List TimerObj} {o : TimerObj}
    {timer : XTimer} {tick : Nat} {phase : TimerPhase} (htimers : s.timers_ = front ++ o :: rest)
    (hnext : o.timer.hasNextTime = true)
    (hrepeat : o.timer.nextRepeat clock s.tick = .ok (timer, tick)) :
    Objects { s with
      timers_ := front ++ ⟨o.address, timer⟩ :: rest, tick := tick, phase := phase } := by
  refine h.of_subperm ?_ rfl
  apply List.Perm.subperm
  obtain ⟨_, _, hok, hserial⟩ := XTimer.nextRepeat_ok clock s.tick hnext
  rw [hrepeat] at hok
  cases hok
  have hident : TimerObj.ident ⟨o.address, timer⟩ = o.ident := by
    simp only [TimerObj.ident, TimerObj.serial, hserial]
  simp only [live, htimers, List.map_append, List.map_cons, hident]
  exact List.Perm.refl _

theorem done (h : s.Objects) {front rest : List TimerObj} {o : TimerObj} {phase : TimerPhase}
    (htimers : s.timers_ = front ++ o :: rest) :
    Objects { s with timers_ := front ++ rest, phase := phase } := by
  refine h.of_subperm ?_ rfl
  apply List.Sublist.subperm
  apply List.Sublist.map
  simp only [live, htimers]
  exact ((List.Sublist.refl front).append (List.sublist_cons_self o rest)).append_right _

end Objects

/-- Every step keeps the objects apart. -/
theorem objects_step (clock : Nat → Int) (s : TimerLoop) (l : TimerLabel) (s' : TimerLoop)
    (h : s.Objects) (hstep : s.step clock l = some s') : s'.Objects := by
  obtain ⟨_, hto⟩ := step_cases hstep
  cases hto with
  | create kind serial address _ hserial haddress => exact h.create clock kind hserial haddress
  | AddTimer o shape hbound hshape => exact h.AddTimer hbound hshape
  | RemoveTime timer shape _ hshape => exact h.RemoveTime timer hshape
  | triggerTimer _ =>
    have hread : ({ s with tick := s.tick + 1, passes := s.passes + 1 } : TimerLoop).Objects :=
      ⟨h.serials, h.addresses, h.created, h.recorded⟩
    exact hread.advance _ _
  | nextRepeat timeNow front rest o timer tick _ htimers hnext hrepeat =>
    exact (h.nextRepeat htimers hnext hrepeat).advance _ _
  | done timeNow front rest o _ htimers _ => exact (h.done htimers).advance _ _
  | gone timeNow it _ _ => exact ⟨h.serials, h.addresses, h.created, h.recorded⟩

theorem objects_initial : initial.Objects :=
  ⟨List.nodup_nil, List.nodup_nil, List.nodup_nil, fun _ h => absurd h List.not_mem_nil⟩

/-! ## Section 5: A pass that is left alone -/

/-- The timers behind the iterator are not looked at, nor those in front. -/
theorem callbackReturns_split {clock : Nat → Int} {s : TimerLoop} {timeNow : Int}
    {front rest : List TimerObj} {o : TimerObj} (htimers : s.timers_ = front ++ o :: rest)
    (hfront : ∀ a ∈ front, a.serial ≠ o.serial) :
    s.callbackReturns clock timeNow o.serial =
      if o.timer.hasNextTime then
        match o.timer.nextRepeat clock s.tick with
        | .error e => { s with halted := some e }
        | .ok (timer, tick) =>
            advance { s with timers_ := front ++ ⟨o.address, timer⟩ :: rest, tick := tick } timeNow
              rest
      else advance { s with timers_ := front ++ rest } timeNow rest := by
  have hpos : ∀ a ∈ front, decide (a.serial ≠ o.serial) = true := fun a ha =>
    decide_eq_true (hfront a ha)
  have htake : s.timers_.takeWhile (·.serial ≠ o.serial) = front := by
    rw [htimers, List.takeWhile_append_of_pos hpos, List.takeWhile_cons_of_neg (by simp),
      List.append_nil]
  have hdrop : s.timers_.dropWhile (·.serial ≠ o.serial) = o :: rest := by
    rw [htimers, List.dropWhile_append_of_pos hpos, List.dropWhile_cons_of_neg (by simp)]
  unfold callbackReturns
  rw [htake, hdrop]

/-- What a pass leaves, with the timers that the iterator has left behind. -/
structure PassDone (s s' : TimerLoop) (front : List TimerObj) (p : Pass) : Prop where
  phase : s'.phase = .idle
  halted : s'.halted = none
  timers_ : s'.timers_.map TimerObj.timer = front.map TimerObj.timer ++ p.timers_
  tick : s'.tick = p.tick
  fired : s'.fired.map Firing.serial = s.fired.map Firing.serial ++ p.fired.map XTimer.timerSerial_

/-- One callback more. -/
theorem PassDone.cons {s t s' : TimerLoop} {front front' : List TimerObj} {o : TimerObj} {p : Pass}
    {timers : List XTimer} (h : PassDone t s' front' p)
    (hfired : t.fired.map Firing.serial = s.fired.map Firing.serial ++ [o.serial])
    (htimers : front'.map TimerObj.timer ++ p.timers_ = front.map TimerObj.timer ++ timers) :
    PassDone s s' front ⟨o.timer :: p.fired, timers, p.tick⟩ where
  phase := h.phase
  halted := h.halted
  timers_ := h.timers_.trans htimers
  tick := h.tick
  fired := by
    rw [h.fired, hfired, List.append_assoc]
    rfl

/-- The loop of `triggerTimer`, if each callback returns before anything else
    happens.  Induction on the timers that the iterator has not reached. -/
theorem run_advance (clock : Nat → Int) (timeNow : Int) : ∀ (rest front : List TimerObj)
    (s : TimerLoop), s.halted = none → s.timers_ = front ++ rest →
      (s.timers_.map TimerObj.serial).Nodup →
    ∃ p, triggerLoop clock timeNow (rest.map TimerObj.timer) s.tick = .ok p ∧
      ∃ s', run (step clock) (advance s timeNow rest)
        (List.replicate p.fired.length .callbackReturns) = some s' ∧ PassDone s s' front p := by
  intro rest
  induction rest with
  | nil =>
    intro front s hrunning htimers _
    refine ⟨_, rfl, _, rfl, rfl, hrunning, ?_, rfl, (List.append_nil _).symm⟩
    show s.timers_.map TimerObj.timer = _
    rw [htimers, List.map_append]
    rfl
  | cons o rest ih =>
    intro front s hrunning htimers hnodup
    rw [List.map_cons, triggerLoop, advance]
    by_cases hlater : o.timer.expiration_ > timeNow
    · rw [if_pos hlater, if_pos hlater]
      refine ⟨_, rfl, _, rfl, rfl, hrunning, ?_, rfl, (List.append_nil _).symm⟩
      show s.timers_.map TimerObj.timer = _
      rw [htimers, List.map_append]
      rfl
    · rw [if_neg hlater, if_neg hlater]
      have hfront : ∀ a ∈ front, a.serial ≠ o.serial := by
        intro a ha
        rw [htimers, List.map_append, List.nodup_append] at hnodup
        exact hnodup.2.2 _ (List.mem_map_of_mem ha) _ List.mem_cons_self
      let called : TimerLoop := { s with
        phase := .calling timeNow o.serial
        fired := s.fired ++ [⟨o.serial, timeNow, s.passes⟩] }
      have hfired : called.fired.map Firing.serial = s.fired.map Firing.serial ++ [o.serial] :=
        List.map_append
      have hreturns : called.step clock .callbackReturns = _ :=
        step_callbackReturns (s := called) hrunning rfl
      rw [callbackReturns_split (s := called) htimers hfront] at hreturns
      by_cases hnext : o.timer.hasNextTime = true
      · obtain ⟨timer, tick, hrepeat, hserial⟩ := XTimer.nextRepeat_ok clock s.tick hnext
        have hsame : TimerObj.serial ⟨o.address, timer⟩ = o.serial := hserial
        rw [if_pos hnext, show called.tick = s.tick from rfl, hrepeat] at hreturns
        obtain ⟨p, hp, s', hrun, hdone⟩ := ih (front ++ [⟨o.address, timer⟩])
          { called with timers_ := front ++ ⟨o.address, timer⟩ :: rest, tick := tick } hrunning
          (List.append_cons _ _ _) (by
            rw [htimers] at hnodup
            simpa only [List.map_append, List.map_cons, hsame] using hnodup)
        refine ⟨⟨o.timer :: p.fired, timer :: p.timers_, p.tick⟩, ?_, s',
          run_cons_of_step hreturns hrun, hdone.cons hfired ?_⟩
        · rw [if_pos hnext, hrepeat, ok_bind]
          dsimp only
          rw [hp]
          rfl
        · rw [List.map_append, List.append_assoc]
          rfl
      · rw [if_neg hnext] at hreturns
        obtain ⟨p, hp, s', hrun, hdone⟩ := ih front { called with timers_ := front ++ rest } hrunning
          rfl (by
            rw [htimers, List.map_append, List.map_cons] at hnodup
            rw [List.map_append]
            exact hnodup.sublist ((List.Sublist.refl _).append (List.sublist_cons_self _ _)))
        refine ⟨⟨o.timer :: p.fired, p.timers_, p.tick⟩, ?_, s', run_cons_of_step hreturns hrun,
          hdone.cons hfired rfl⟩
        rw [if_neg hnext, show triggerLoop clock timeNow (rest.map TimerObj.timer) s.tick = _ from hp]
        rfl

/-- A pass in which the callbacks leave the timers alone is a pass of the
    queue. -/
theorem run_triggerTimer {clock : Nat → Int} {s : TimerLoop} (h : s.Objects)
    (hrunning : s.halted = none) (hidle : s.phase = .idle) {q : XTimerQueue}
    (htimers : s.timers_.map TimerObj.timer = q.timers_) (htick : s.tick = q.tick) :
    ∃ p, q.triggerTimer clock = .ok p ∧ ∃ s', run (step clock) s
      (.triggerTimer :: List.replicate p.fired.length .callbackReturns) = some s' ∧
        PassDone s s' [] p := by
  have hserials := h.serials
  rw [live, List.map_append] at hserials
  obtain ⟨p, hp, s', hrun, hdone⟩ := run_advance clock (clock s.tick) s.timers_ []
    { s with tick := s.tick + 1, passes := s.passes + 1 } hrunning rfl
    (List.nodup_append.mp hserials).1
  have hstep : s.step clock .triggerTimer = some (s.triggerTimer clock) := by
    unfold step
    rw [if_neg (not_not_intro hrunning), hidle]
  refine ⟨p, ?_, s', run_cons_of_step hstep hrun, hdone.phase, hdone.halted, hdone.timers_,
    hdone.tick, hdone.fired⟩
  rw [XTimerQueue.triggerTimer, ← htimers, ← htick]
  exact hp

end TimerLoop

end XFast
