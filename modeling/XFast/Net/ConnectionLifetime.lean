import XFast.Framework.Steps
import XFast.Net.Connection

/-! # How long a connection lives

    A connection is held by `shared_ptr`s: one in the callback that the loop
    has registered for it, one in the table of the server (or in the client),
    one in each functor or timer that was bound to it, those that the user has
    kept, and one in each running callback that was called with
    `shared_from_this()`.  The functions of the connection itself hold none:
    they run on a plain `this`.

    `closeConn` removes the registration and empties the table, wherever it is
    called.  Called from a callback, it leaves the callback's own pointer as
    the last one, and the function below the callback goes on when that
    pointer is gone.  A function that only has to return uses no member any
    more: it is not among the tasks, though its frame is still there.

    Callbacks may throw where the connection catches: in `sendMsg`, in
    `parseProtocol` and in `closeConn`.  What `connFinishCb_` throws reaches
    `xListener::handleAccept`, which closes the number of a connection that is
    connected; this is left to the modules on accepts and on numbers. -/

namespace XFast

open Steps XConnStatus

/-! ## Section 1: The functions of the connection -/

/-- What the loop thread still has to do with the connection, the next first. -/
inductive Task where
  /-- `readMsg()` in `HandleEvent`, for an event that may be writable too. -/
  | readMsg (writable : Bool)
  /-- `while(readBuff_.readableBytes())` in `parseProtocol`. -/
  | parseProtocol
  /-- In `decodeCb_`. -/
  | decode
  /-- `sendMsg()`, in `HandleEvent` or elsewhere. -/
  | sendMsg (inHandleEvent : Bool)
  /-- What follows `sentBytesCb_` in `sendMsg`. -/
  | restOfSendMsg
  /-- `closeConn()`. -/
  | closeConn
  /-- In `msgCommitCb_` or `sentBytesCb_`, which have a function of the
      connection below them, or in `connFinishCb_`, which has none; or, while
      the connection is being closed, in `connCloseCb_`. -/
  | callback (closing : Bool)
  deriving DecidableEq, Repr

/-- The call has a pointer of its own, a temporary. -/
def Task.isCallback : Task → Bool
  | .callback _ => true
  | .readMsg _ | .parseProtocol | .decode | .sendMsg _ | .restOfSendMsg | .closeConn => false

/-- How a call that does not depend on the life of the connection ends: a
    system call, a test of a buffer, a decoder. -/
inductive CallEnd where
  /-- Nothing to do: `EAGAIN`, an empty buffer, `XF_MSG_DECODE_NOT_ENOUGH`. -/
  | nothing
  /-- Bytes are read or sent, a buffer is not empty, a message is complete. -/
  | data
  /-- An error, or an exception of the decoder. -/
  | fails
  deriving DecidableEq, Repr

/-- The connection and those who hold a pointer to it.  `table` is its entry in
    `connections_`, `functors` counts the functors and timers bound to it,
    `held` the pointers that the user has kept, on any thread. -/
structure Lifetime where
  connStatus_ : XConnStatus
  registered : Bool
  table : Bool
  functors : Nat
  held : Nat
  tasks : List Task
  fault : Bool
  deriving DecidableEq, Repr

inductive LifetimeStep where
  /-- The loop calls the registered callback for an event. -/
  | handleEvent (closing readable writable : Bool)
  /-- The loop runs a functor that is bound to the connection. -/
  | runMakeConnected
  | runSendMsgToBuffer
  | runCloseConn
  /-- The loop finds the connection in the table and sends a response. -/
  | doSendResponse
  /-- A functor goes, with its pointer. -/
  | clear
  /-- The first of the tasks goes on. -/
  | goOn (o : CallEnd)
  /-- The callback that is running returns. -/
  | returns
  /-- It throws, and the function of the connection that has called it catches
      the exception. -/
  | throws
  /-- User code on the loop thread calls the connection. -/
  | sendMsg
  | closeConnection
  | closeConnectionAfter
  /-- User code on the loop thread copies its pointer. -/
  | hold
  /-- Another thread that has a pointer calls `sendMsg` or `closeConnection`. -/
  | post
  /-- A pointer that the user has kept goes. -/
  | drop
  deriving DecidableEq, Repr

namespace Lifetime

/-- After `connections_[fd] = connPtr`, with `makeConnected` bound. -/
def initial : Lifetime := ⟨XF_CONN_STATUS_CONNECTING, false, true, 1, 0, [], false⟩

/-- The pointers that no running callback has. -/
def kept (s : Lifetime) : Nat := s.registered.toNat + s.table.toNat + s.functors + s.held

/-- `use_count()`; the connection is destroyed when it is 0. -/
def owners (s : Lifetime) : Nat := s.kept + s.tasks.countP Task.isCallback

/-- `closeConn` has not been called. -/
def Open (s : Lifetime) : Prop :=
  s.connStatus_ = XF_CONN_STATUS_CONNECTING ∨ s.connStatus_ = XF_CONN_STATUS_CONNECTED

instance (s : Lifetime) : Decidable s.Open := inferInstanceAs (Decidable (_ ∨ _))

/-- User code runs on the loop thread and has a pointer.  A decoder is not
    given one. -/
def HasPointer (s : Lifetime) : Prop :=
  match s.tasks with
  | [] | .decode :: _ => 0 < s.held
  | .callback _ :: _ => True
  | _ => False

instance (s : Lifetime) : Decidable s.HasPointer := by
  unfold HasPointer
  split <;> infer_instance

/-- `HandleEvent(xe)`. -/
def handleEvent (closing readable writable : Bool) : List Task :=
  if closing then [.closeConn]
  else if readable then [.readMsg writable]
  else if writable then [.sendMsg true]
  else []

/-- `HandleEvent` after `readMsg`. -/
def afterRead (writable : Bool) (rest : List Task) : List Task :=
  if writable then .sendMsg true :: rest else rest

/-- A result below 0 closes the connection in `HandleEvent` only. -/
def afterFailedSend (inHandleEvent : Bool) (rest : List Task) : List Task :=
  if inHandleEvent then .closeConn :: rest else rest

/-- `closeConn()`: the registration and the entry in the table go, while
    `connCloseCb_` holds a pointer. -/
def closeConn (s : Lifetime) (rest : List Task) : Lifetime :=
  if s.Open then
    { s with
      connStatus_ := XF_CONN_STATUS_DISCONNECTING
      registered := false
      table := false
      tasks := .callback true :: rest }
  else { s with tasks := rest }

/-- The function `t` goes on; `rest` is below it. -/
def goOn (s : Lifetime) (t : Task) (rest : List Task) (o : CallEnd) : Lifetime :=
  match t with
  | .readMsg writable =>
      match o with
      | .nothing => { s with tasks := afterRead writable rest }
      | .data => { s with tasks := .parseProtocol :: afterRead writable rest }
      | .fails => { s with tasks := .closeConn :: rest }
  | .parseProtocol =>
      match o with
      | .data => { s with tasks := .decode :: rest }
      | .nothing | .fails => { s with tasks := rest }
  | .decode =>
      match o with
      | .data => { s with tasks := .callback false :: .parseProtocol :: rest }
      -- the loop is left, after `readBuff_.reset()` or without
      | .nothing | .fails => { s with tasks := rest }
  | .sendMsg inHandleEvent =>
      if s.connStatus_ ≠ XF_CONN_STATUS_CONNECTED then
        { s with tasks := afterFailedSend inHandleEvent rest }
      else
        match o with
        | .nothing => { s with tasks := rest }
        | .data => { s with tasks := .callback false :: .restOfSendMsg :: rest }
        | .fails => { s with tasks := afterFailedSend inHandleEvent rest }
  | .restOfSendMsg => { s with tasks := rest }
  | .closeConn => s.closeConn rest
  | .callback _ => s

/-- The callback has been left; `rest` is below it. -/
def afterCallback (s : Lifetime) (closing : Bool) (rest : List Task) : Lifetime :=
  { s with
    -- `setClosed()`
    connStatus_ := if closing then XF_CONN_STATUS_DISCONNECTED else s.connStatus_
    tasks := rest }

/-- A functor is bound, if the connection is connected. -/
def bind (s : Lifetime) : Lifetime :=
  if s.connStatus_ = XF_CONN_STATUS_CONNECTED then { s with functors := s.functors + 1 } else s

/-- A member of the connection is used, but after a decoder that returned
    `XF_MSG_DECODE_NOT_ENOUGH`. -/
def Touches (t : Task) (o : CallEnd) : Prop := ¬ (t = .decode ∧ o = .nothing)

instance (t : Task) (o : CallEnd) : Decidable (Touches t o) := inferInstanceAs (Decidable (¬ _))

/-- No step is taken after a member of a destroyed connection was used. -/
def step (s : Lifetime) (l : LifetimeStep) : Option Lifetime :=
  if s.fault then none
  else
    match l with
    | .handleEvent closing readable writable =>
        if s.tasks = [] ∧ s.registered then
          some { s with tasks := handleEvent closing readable writable }
        else none
    | .runMakeConnected =>
        if s.tasks = [] ∧ 0 < s.functors ∧ s.connStatus_ = XF_CONN_STATUS_CONNECTING then
          some { s with
            connStatus_ := XF_CONN_STATUS_CONNECTED
            registered := true
            tasks := [.callback false] }
        else none
    | .runSendMsgToBuffer =>
        if s.tasks = [] ∧ 0 < s.functors then some { s with tasks := [.sendMsg false] } else none
    | .runCloseConn =>
        if s.tasks = [] ∧ 0 < s.functors then some { s with tasks := [.closeConn] } else none
    | .doSendResponse =>
        if s.tasks = [] ∧ s.table then
          some (if s.connStatus_ = XF_CONN_STATUS_CONNECTED then
            { s with tasks := [.sendMsg false] } else s)
        else none
    | .clear =>
        if s.tasks = [] ∧ 0 < s.functors then some { s with functors := s.functors - 1 } else none
    | .goOn o =>
        match s.tasks with
        | [] | .callback _ :: _ => none
        | t :: rest =>
            if s.owners = 0 ∧ Touches t o then some { s with fault := true }
            else some (s.goOn t rest o)
    | .returns =>
        match s.tasks with
        | .callback closing :: rest => some (s.afterCallback closing rest)
        | _ => none
    | .throws =>
        match s.tasks with
        | .callback closing :: rest =>
            -- above nothing there is `connFinishCb_`, which does not throw here
            if closing = true ∨ rest ≠ [] then some (s.afterCallback closing rest) else none
        | _ => none
    | .sendMsg =>
        if s.HasPointer then
          some (if s.connStatus_ = XF_CONN_STATUS_CONNECTED then
            { s with tasks := .sendMsg false :: s.tasks } else s)
        else none
    | .closeConnection =>
        if s.HasPointer then
          some (if s.connStatus_ = XF_CONN_STATUS_CONNECTED then
            { s with tasks := .closeConn :: s.tasks } else s)
        else none
    | .closeConnectionAfter => if s.HasPointer then some s.bind else none
    | .hold => if s.HasPointer then some { s with held := s.held + 1 } else none
    | .post => if 0 < s.held then some s.bind else none
    | .drop => if 0 < s.held then some { s with held := s.held - 1 } else none

/-! ## Section 2: What each step can do -/

variable {s s' : Lifetime} {l : LifetimeStep}

/-- The steps by what they do to the stack and to the pointers. -/
inductive StepTo (s : Lifetime) : LifetimeStep → Lifetime → Prop where
  | handleEvent (closing readable writable : Bool) (hidle : s.tasks = [])
      (hregistered : s.registered = true) :
      StepTo s (.handleEvent closing readable writable)
        { s with tasks := handleEvent closing readable writable }
  | runSendMsgToBuffer (hidle : s.tasks = []) (hfunctor : 0 < s.functors) :
      StepTo s .runSendMsgToBuffer { s with tasks := [.sendMsg false] }
  | runCloseConn (hidle : s.tasks = []) (hfunctor : 0 < s.functors) :
      StepTo s .runCloseConn { s with tasks := [.closeConn] }
  | doSendResponse (hidle : s.tasks = []) (hstatus : s.connStatus_ = XF_CONN_STATUS_CONNECTED) :
      StepTo s .doSendResponse { s with tasks := [.sendMsg false] }
  | makeConnected (hidle : s.tasks = []) (hfunctor : 0 < s.functors)
      (hstatus : s.connStatus_ = XF_CONN_STATUS_CONNECTING) :
      StepTo s .runMakeConnected
        { s with
          connStatus_ := XF_CONN_STATUS_CONNECTED
          registered := true
          tasks := [.callback false] }
  | clear (hidle : s.tasks = []) (hfunctor : 0 < s.functors) :
      StepTo s .clear { s with functors := s.functors - 1 }
  | goOn (o : CallEnd) (t : Task) (rest : List Task) (htasks : s.tasks = t :: rest)
      (ht : t.isCallback = false) (halive : ¬(s.owners = 0 ∧ Touches t o)) :
      StepTo s (.goOn o) (s.goOn t rest o)
  | faults (o : CallEnd) (t : Task) (rest : List Task) (htasks : s.tasks = t :: rest)
      (hgone : s.owners = 0) : StepTo s (.goOn o) { s with fault := true }
  | leaves (l : LifetimeStep) (closing : Bool) (rest : List Task) (hl : l = .returns ∨ l = .throws)
      (htasks : s.tasks = .callback closing :: rest) : StepTo s l (s.afterCallback closing rest)
  | sendMsg (hpointer : s.HasPointer) (hstatus : s.connStatus_ = XF_CONN_STATUS_CONNECTED) :
      StepTo s .sendMsg { s with tasks := .sendMsg false :: s.tasks }
  | closeConnection (hpointer : s.HasPointer)
      (hstatus : s.connStatus_ = XF_CONN_STATUS_CONNECTED) :
      StepTo s .closeConnection { s with tasks := .closeConn :: s.tasks }
  | drop (hheld : 0 < s.held) : StepTo s .drop { s with held := s.held - 1 }
  /-- There may be more pointers than before. -/
  | more (l : LifetimeStep) (functors held : Nat) (hfunctors : s.functors ≤ functors)
      (hheld : s.held ≤ held) (hleaves : ¬(l = .returns ∨ l = .throws)) (hdrop : l ≠ .drop) :
      StepTo s l { s with functors := functors, held := held }

/-- A step that leaves everything as it was. -/
theorem StepTo.same (hleaves : ¬(l = .returns ∨ l = .throws)) (hdrop : l ≠ .drop) :
    StepTo s l s :=
  .more l s.functors s.held (Nat.le_refl _) (Nat.le_refl _) hleaves hdrop

theorem StepTo.bind (hleaves : ¬(l = .returns ∨ l = .throws)) (hdrop : l ≠ .drop) :
    StepTo s l s.bind := by
  unfold Lifetime.bind
  split
  · exact .more l (s.functors + 1) s.held (Nat.le_succ _) (Nat.le_refl _) hleaves hdrop
  · exact .same hleaves hdrop

theorem step_cases (h : s.step l = some s') : s.fault = false ∧ StepTo s l s' := by
  unfold step at h
  split at h
  · cases h
  · rename_i hfault
    refine ⟨Bool.eq_false_iff.mpr hfault, ?_⟩
    cases l with
    | handleEvent closing readable writable =>
      dsimp only at h
      split at h
      · rename_i hguard
        cases h
        exact .handleEvent closing readable writable hguard.1 hguard.2
      · cases h
    | runMakeConnected =>
      dsimp only at h
      split at h
      · rename_i hguard
        cases h
        exact .makeConnected hguard.1 hguard.2.1 hguard.2.2
      · cases h
    | runSendMsgToBuffer =>
      dsimp only at h
      split at h
      · rename_i hguard
        cases h
        exact .runSendMsgToBuffer hguard.1 hguard.2
      · cases h
    | runCloseConn =>
      dsimp only at h
      split at h
      · rename_i hguard
        cases h
        exact .runCloseConn hguard.1 hguard.2
      · cases h
    | doSendResponse =>
      dsimp only at h
      split at h
      · rename_i hguard
        split at h
        · rename_i hstatus
          cases h
          exact .doSendResponse hguard.1 hstatus
        · cases h
          exact .same (by decide) nofun
      · cases h
    | clear =>
      dsimp only at h
      split at h
      · rename_i hguard
        cases h
        exact .clear hguard.1 hguard.2
      · cases h
    | goOn o =>
      dsimp only at h
      split at h
      · cases h
      · cases h
      · rename_i t rest hcallback htasks
        have ht : t.isCallback = false := by
          cases t with
          | callback closing => exact absurd rfl (hcallback closing)
          | _ => rfl
        split at h
        · rename_i hgone
          cases h
          exact .faults o t rest htasks hgone.1
        · rename_i halive
          cases h
          exact .goOn o t rest htasks ht halive
    | returns =>
      dsimp only at h
      split at h
      · rename_i closing rest htasks
        cases h
        exact .leaves _ closing rest (Or.inl rfl) htasks
      · cases h
    | throws =>
      dsimp only at h
      split at h
      · rename_i closing rest htasks
        split at h
        · cases h
          exact .leaves _ closing rest (Or.inr rfl) htasks
        · cases h
      · cases h
    | sendMsg =>
      dsimp only at h
      split at h
      · rename_i hpointer
        split at h
        · rename_i hstatus
          cases h
          exact .sendMsg hpointer hstatus
        · cases h
          exact .same (by decide) nofun
      · cases h
    | closeConnection =>
      dsimp only at h
      split at h
      · rename_i hpointer
        split at h
        · rename_i hstatus
          cases h
          exact .closeConnection hpointer hstatus
        · cases h
          exact .same (by decide) nofun
      · cases h
    | closeConnectionAfter =>
      dsimp only at h
      split at h
      · cases h
        exact .bind (by decide) nofun
      · cases h
    | hold =>
      dsimp only at h
      split at h
      · cases h
        exact .more _ s.functors (s.held + 1) (Nat.le_refl _) (Nat.le_succ _) (by decide)
          nofun
      · cases h
    | post =>
      dsimp only at h
      split at h
      · cases h
        exact .bind (by decide) nofun
      · cases h
    | drop =>
      dsimp only at h
      split at h
      · rename_i hheld
        cases h
        exact .drop hheld
      · cases h

/-! ## Section 3: A member is used as long as there is a connection -/

/-- No callback ends, and no pointer of the user goes, that is the last one of a
    closed connection while something is still to be done with it. -/
def Outlives (s : Lifetime) : LifetimeStep → Prop
  | .returns | .throws => ¬s.Open → 1 < s.owners ∨ s.tasks.tail = []
  | .drop => ¬s.Open → 1 < s.owners ∨ s.tasks = []
  | _ => True

instance (s : Lifetime) : ∀ l, Decidable (s.Outlives l)
  | .returns | .throws => inferInstanceAs (Decidable (¬s.Open → 1 < s.owners ∨ s.tasks.tail = []))
  | .drop => inferInstanceAs (Decidable (¬s.Open → 1 < s.owners ∨ s.tasks = []))
  | .handleEvent _ _ _ | .runMakeConnected | .runSendMsgToBuffer | .runCloseConn
  | .doSendResponse | .clear | .goOn _ | .sendMsg | .closeConnection | .closeConnectionAfter
  | .hold | .post => isTrue trivial

/-- An open connection is in the table, a closed one is neither there nor
    registered; and where something is to be done with the connection, there
    is one. -/
structure Inv (s : Lifetime) : Prop where
  table : s.Open → s.table = true
  closed : ¬s.Open → s.table = false ∧ s.registered = false
  closing : .callback true ∈ s.tasks → ¬s.Open
  alive : s.tasks ≠ [] → 0 < s.owners
  fault : s.fault = false

theorem inv_initial : initial.Inv where
  table _ := rfl
  closed h := absurd (Or.inl rfl) h
  closing h := absurd h List.not_mem_nil
  alive h := absurd rfl h
  fault := rfl

theorem kept_pos_of_table (h : s.table = true) : 0 < s.kept := by
  unfold kept
  rw [h, Bool.toNat_true]
  omega

theorem kept_pos_of_functors (h : 0 < s.functors) : 0 < s.kept := by
  unfold kept
  omega

theorem Open.kept_pos (hopen : s.Open) (h : s.Inv) : 0 < s.kept :=
  kept_pos_of_table (h.table hopen)

theorem kept_le_owners (s : Lifetime) : s.kept ≤ s.owners := Nat.le_add_right ..

/-- The pointers, where the tasks have been changed. -/
theorem owners_tasks (ts : List Task) :
    ({ s with tasks := ts } : Lifetime).owners = s.kept + ts.countP Task.isCallback := rfl

/-- What goes on leaves the connection open, with no fewer pointers; or closes
    it, and then its close callback has a pointer. -/
inductive GoesOn (s : Lifetime) (t : Task) (rest : List Task) : Lifetime → Prop where
  | stays (pre : List Task) (hpre : .callback true ∉ pre) :
      GoesOn s t rest { s with tasks := pre ++ rest }
  | closes (ht : t = .closeConn) (hopen : s.Open) : GoesOn s t rest
      { s with
        connStatus_ := XF_CONN_STATUS_DISCONNECTING
        registered := false
        table := false
        tasks := .callback true :: rest }

theorem afterRead_eq (writable : Bool) (rest : List Task) :
    ∃ pre, afterRead writable rest = pre ++ rest ∧ .callback true ∉ pre := by
  cases writable
  · exact ⟨[], rfl, by decide⟩
  · exact ⟨[.sendMsg true], rfl, by decide⟩

theorem afterFailedSend_eq (inHandleEvent : Bool) (rest : List Task) :
    ∃ pre, afterFailedSend inHandleEvent rest = pre ++ rest ∧ .callback true ∉ pre := by
  cases inHandleEvent
  · exact ⟨[], rfl, by decide⟩
  · exact ⟨[.closeConn], rfl, by decide⟩

theorem goOn_spec (t : Task) (rest : List Task) (o : CallEnd) (ht : t.isCallback = false) :
    GoesOn s t rest (s.goOn t rest o) := by
  cases t with
  | readMsg writable =>
    obtain ⟨pre, hpre, hnot⟩ := afterRead_eq writable rest
    cases o with
    | nothing =>
      simp only [goOn, hpre]
      exact .stays pre hnot
    | data =>
      simp only [goOn, hpre]
      exact .stays (.parseProtocol :: pre) (by simpa using hnot)
    | fails => exact .stays [.closeConn] (by decide)
  | parseProtocol =>
    cases o with
    | data => exact .stays [.decode] (by decide)
    | nothing | fails => exact .stays [] (by decide)
  | decode =>
    cases o with
    | data => exact .stays [.callback false, .parseProtocol] (by decide)
    | nothing | fails => exact .stays [] (by decide)
  | sendMsg inHandleEvent =>
    obtain ⟨pre, hpre, hnot⟩ := afterFailedSend_eq inHandleEvent rest
    unfold goOn
    dsimp only
    rw [hpre]
    split
    · exact .stays pre hnot
    · cases o with
      | nothing => exact .stays [] (by decide)
      | data => exact .stays [.callback false, .restOfSendMsg] (by decide)
      | fails => exact .stays pre hnot
  | restOfSendMsg => exact .stays [] (by decide)
  | closeConn =>
    unfold goOn closeConn
    dsimp only
    split
    · rename_i hopen
      exact .closes rfl hopen
    · exact .stays [] (by decide)
  | callback closing => cases ht

/-- A function goes on: what it has called has at least the pointers that there
    were, or one of its own. -/
theorem Inv.goesOn (h : s.Inv) {t : Task} {rest : List Task} (htasks : s.tasks = t :: rest)
    (ht : t.isCallback = false) (hgo : GoesOn s t rest s') : s'.Inv := by
  have hpos : 0 < s.kept + rest.countP Task.isCallback := by
    have halive := h.alive (by rw [htasks]; exact List.cons_ne_nil _ _)
    rw [owners, htasks, List.countP_cons, ht] at halive
    simpa using halive
  cases hgo with
  | stays pre hpre =>
    refine ⟨h.table, h.closed, fun hmem => ?_, fun _ => ?_, h.fault⟩
    · rcases List.mem_append.mp hmem with hnew | hold
      · exact absurd hnew hpre
      · exact h.closing (by rw [htasks]; exact List.mem_cons_of_mem _ hold)
    · rw [owners_tasks, List.countP_append]
      omega
  | closes _ hopen =>
    have hclosed : ¬Open { s with
        connStatus_ := XF_CONN_STATUS_DISCONNECTING
        registered := false
        table := false
        tasks := .callback true :: rest } := by
      rintro (heq | heq) <;> cases heq
    refine ⟨fun hopen' => absurd hopen' hclosed, fun _ => ⟨rfl, rfl⟩, fun _ => hclosed,
      fun _ => ?_, h.fault⟩
    show 0 < kept _ + (Task.callback true :: rest).countP Task.isCallback
    rw [List.countP_cons]
    exact Nat.add_pos_right _ (Nat.add_pos_right _ (by decide))

/-- After a callback the function that has called it has a connection. -/
theorem Inv.leaves (h : s.Inv) {closing : Bool} {rest : List Task}
    (htasks : s.tasks = .callback closing :: rest) (hgood : s.Outlives .returns) :
    (s.afterCallback closing rest).Inv := by
  have howners : s.owners = s.kept + rest.countP Task.isCallback + 1 := by
    rw [owners, htasks, List.countP_cons]
    rfl
  have hstatus : (s.afterCallback closing rest).Open ↔ s.Open := by
    cases closing with
    | false => exact Iff.rfl
    | true =>
      have hclosed := h.closing (by rw [htasks]; exact List.mem_cons_self)
      refine iff_of_false ?_ hclosed
      rintro (heq | heq) <;> cases heq
  refine ⟨fun hopen => h.table (hstatus.mp hopen), fun hc => h.closed fun ho => hc (hstatus.mpr ho),
    fun hmem hopen => ?_, fun hbusy => ?_, h.fault⟩
  · exact h.closing (by rw [htasks]; exact List.mem_cons_of_mem _ hmem) (hstatus.mp hopen)
  · show 0 < s.kept + rest.countP Task.isCallback
    by_cases hopen : s.Open
    · exact Nat.add_pos_left (hopen.kept_pos h) _
    · rcases hgood hopen with hmore | hnone
      · omega
      · rw [htasks] at hnone
        exact absurd hnone hbusy

/-- The loop enters a function of the connection, for somebody who has a
    pointer. -/
theorem Inv.enters (h : s.Inv) (hkept : 0 < s.kept) {ts : List Task} (hts : .callback true ∉ ts) :
    Inv { s with tasks := ts } :=
  ⟨h.table, h.closed, fun hmem => absurd hmem hts, fun _ => Nat.add_pos_left hkept _, h.fault⟩

theorem Inv.open_of_registered (h : s.Inv) (hregistered : s.registered = true) : s.Open := by
  by_contra hclosed
  rw [(h.closed hclosed).2] at hregistered
  cases hregistered

/-- User code that has a pointer calls a function of the connection. -/
theorem Inv.calls (h : s.Inv) {t : Task} (hstatus : s.connStatus_ = XF_CONN_STATUS_CONNECTED)
    (ht : t ≠ .callback true) : Inv { s with tasks := t :: s.tasks } := by
  have hopen : s.Open := Or.inr hstatus
  refine ⟨h.table, h.closed, fun hmem => ?_, fun _ => ?_, h.fault⟩
  · rcases List.mem_cons.mp hmem with heq | hold
    · exact absurd heq.symm ht
    · exact h.closing hold
  · exact Nat.add_pos_left (hopen.kept_pos h) _

/-- A pointer of the user goes. -/
theorem Inv.drop (h : s.Inv) (hheld : 0 < s.held) (hgood : s.Outlives .drop) :
    Inv { s with held := s.held - 1 } := by
  refine ⟨h.table, h.closed, h.closing, fun hbusy => ?_, h.fault⟩
  by_cases hopen : s.Open
  · have hkept : 0 < kept { s with held := s.held - 1 } := kept_pos_of_table (h.table hopen)
    exact Nat.add_pos_left hkept _
  · rcases hgood hopen with hmore | hnone
    · unfold owners kept at hmore
      show 0 < s.registered.toNat + s.table.toNat + s.functors + (s.held - 1) +
        s.tasks.countP Task.isCallback
      omega
    · exact absurd hnone hbusy

theorem inv_step (s : Lifetime) (l : LifetimeStep) (s' : Lifetime) (h : s.Inv)
    (hgood : s.Outlives l) (hstep : s.step l = some s') : s'.Inv := by
  cases (step_cases hstep).2 with
  | handleEvent closing readable writable hidle hregistered =>
    apply h.enters ((h.open_of_registered hregistered).kept_pos h)
    cases closing <;> cases readable <;> cases writable <;> decide
  | runSendMsgToBuffer hidle hfunctor => exact h.enters (kept_pos_of_functors hfunctor) (by decide)
  | runCloseConn hidle hfunctor => exact h.enters (kept_pos_of_functors hfunctor) (by decide)
  | doSendResponse hidle hstatus => exact h.enters (Open.kept_pos (Or.inr hstatus) h) (by decide)
  | makeConnected hidle hfunctor hstatus =>
    refine ⟨fun _ => h.table (Or.inl hstatus), fun hclosed => absurd (Or.inr rfl) hclosed,
      fun hmem => ?_, fun _ => ?_, h.fault⟩
    · cases List.mem_singleton.mp hmem
    · exact Nat.add_pos_right _ (Nat.one_pos)
  | clear hidle hfunctor =>
    exact ⟨h.table, h.closed, h.closing, fun hbusy => absurd hidle hbusy, h.fault⟩
  | goOn o t rest htasks ht halive => exact h.goesOn htasks ht (goOn_spec t rest o ht)
  | faults o t rest htasks hgone =>
    have hpos := h.alive (by rw [htasks]; exact List.cons_ne_nil _ _)
    omega
  | leaves _ closing rest hl htasks => rcases hl with rfl | rfl <;> exact h.leaves htasks hgood
  | sendMsg hpointer hstatus => exact h.calls hstatus nofun
  | closeConnection hpointer hstatus => exact h.calls hstatus nofun
  | drop hheld => exact h.drop hheld hgood
  | more _ functors held hfunctors hheld _ _ =>
    refine ⟨h.table, h.closed, h.closing, fun hbusy => ?_, h.fault⟩
    have hpos := h.alive hbusy
    unfold owners kept at hpos
    show 0 < s.registered.toNat + s.table.toNat + functors + held +
      s.tasks.countP Task.isCallback
    omega

/-! ## Section 4: The condition is exact -/

/-- A stack without a pointer, on which something is left, leads to a fault. -/
theorem reaches_fault (hfault : s.fault = false) (hgone : s.owners = 0) (hbusy : s.tasks ≠ []) :
    Reaches step Outlives (fun s' => ¬s'.fault = false) s := by
  obtain ⟨t, rest, htasks⟩ := List.exists_cons_of_ne_nil hbusy
  have ht : t.isCallback = false := by
    have hcount : s.tasks.countP Task.isCallback = 0 := by
      unfold owners at hgone
      omega
    rw [htasks] at hcount
    exact Bool.eq_false_iff.mpr (List.countP_eq_zero.mp hcount t List.mem_cons_self)
  have hstep : s.step (.goOn .fails) = some { s with fault := true } := by
    have htouch : s.owners = 0 ∧ Touches t .fails := ⟨hgone, fun hboth => nomatch hboth.2⟩
    unfold step
    rw [if_neg (by rw [hfault]; exact Bool.false_ne_true)]
    dsimp only
    rw [htasks]
    cases t with
    | callback closing => cases ht
    | _ => exact if_pos htouch
  exact Reaches.of_step hstep trivial (Reaches.here fun h => nomatch h)

theorem reaches_fault_of_not_outlives (s : Lifetime) (l : LifetimeStep) (s₁ : Lifetime) (h : s.Inv)
    (hstep : s.step l = some s₁) (hbad : ¬s.Outlives l) :
    Reaches step Outlives (fun s' => ¬s'.fault = false) s₁ := by
  cases (step_cases hstep).2 with
  | leaves _ closing rest hl htasks =>
    have hlast : ¬(1 < s.owners ∨ s.tasks.tail = []) := by
      rcases hl with rfl | rfl <;> exact (Classical.not_imp.mp hbad).2
    rw [not_or, htasks, List.tail_cons] at hlast
    refine reaches_fault h.fault ?_ hlast.2
    have howners : s.owners = s.kept + rest.countP Task.isCallback + 1 := by
      rw [owners, htasks, List.countP_cons]
      rfl
    show s.kept + rest.countP Task.isCallback = 0
    omega
  | drop hheld =>
    obtain ⟨_, hlast⟩ := Classical.not_imp.mp hbad
    rw [not_or] at hlast
    refine reaches_fault h.fault ?_ hlast.2
    have hone := hlast.1
    unfold owners kept at hone
    show s.registered.toNat + s.table.toNat + s.functors + (s.held - 1) +
      s.tasks.countP Task.isCallback = 0
    omega
  | more _ functors held _ _ hleaves hdrop =>
    cases l <;> first | exact absurd trivial hbad | contradiction
  | _ => exact absurd trivial hbad

/-- **Lifetime.**  For every order of events, functors, user calls and other
    threads, with a finished callback that does not throw: as long as no
    callback ends, and no pointer of the user goes, that is the last one of a
    closed connection with which something is still to be done, no member of a
    destroyed connection is used; and a connection is destroyed only when it is
    closed, out of the table and no longer registered.  A step that breaks the
    condition can lead to the use of a destroyed connection. -/
theorem members_outlived {ls : List LifetimeStep} (hgood : AllSteps step Outlives initial ls)
    (hrun : run step initial ls = some s) :
    (s.fault = false ∧ (s.owners = 0 →
      s.tasks = [] ∧ ¬s.Open ∧ s.table = false ∧ s.registered = false)) ∧
    ∀ l s₁, s.step l = some s₁ → (s.Outlives l ↔ ∀ ls' s', AllSteps step Outlives s₁ ls' →
      run step s₁ ls' = some s' → s'.fault = false) := by
  have hinv : s.Inv := run_of_allSteps inv_step ls initial s inv_initial hgood hrun
  have hboth := keeps_and_exact (C := fun s => s.fault = false) inv_initial inv_step
    (fun _ h => h.fault) reaches_fault_of_not_outlives hgood hrun
  refine ⟨⟨hboth.1, fun hgone => ?_⟩, hboth.2⟩
  have hclosed : ¬s.Open := by
    intro hopen
    have := hopen.kept_pos hinv
    have := s.kept_le_owners
    omega
  refine ⟨?_, hclosed, hinv.closed hclosed⟩
  by_contra hbusy
  have := hinv.alive hbusy
  omega

/-- A response is sent, and `sentBytesCb_` closes the connection; its close
    callback has returned. -/
def closedInSentBytesCb : List LifetimeStep :=
  [.runMakeConnected, .returns, .clear, .doSendResponse, .goOn .data, .closeConnection,
    .goOn .nothing, .returns]

/-- When `sentBytesCb_` returns, `sendMsg` goes on without a connection. -/
theorem members_outlived_sent : ∃ s s₁, run step initial closedInSentBytesCb = some s ∧
    s.step .returns = some s₁ ∧ s.fault = false ∧
    ∃ ls' s', run step s₁ ls' = some s' ∧ s'.fault = true := by
  have hrun : run step initial closedInSentBytesCb = some ⟨XF_CONN_STATUS_DISCONNECTED,
      false, false, 0, 0, [.callback false, .restOfSendMsg], false⟩ := by decide
  obtain ⟨⟨hfault, _⟩, hexact⟩ := members_outlived (by decide) hrun
  refine ⟨_, _, hrun, rfl, hfault, ?_⟩
  have hnot := (hexact .returns _ rfl).not.mp (by decide)
  simp only [not_forall] at hnot
  obtain ⟨ls', s', _, hrun', hs'⟩ := hnot
  exact ⟨ls', s', hrun', eq_true_of_ne_false hs'⟩

/-! ## Section 5: Callbacks that do not close -/

/-- `closeConnection` is called on the loop thread only where nothing is to be
    done with the connection. -/
def ClosesOutside (s : Lifetime) : LifetimeStep → Prop
  | .closeConnection => s.tasks = []
  | _ => True

instance (s : Lifetime) : ∀ l, Decidable (s.ClosesOutside l)
  | .closeConnection => inferInstanceAs (Decidable (s.tasks = []))
  | .handleEvent _ _ _ | .runMakeConnected | .runSendMsgToBuffer | .runCloseConn
  | .doSendResponse | .clear | .goOn _ | .returns | .throws | .sendMsg | .closeConnectionAfter
  | .hold | .post | .drop => isTrue trivial

/-- Functions that may run above others. -/
def upper : Task → Bool
  | .parseProtocol | .decode | .sendMsg false | .restOfSendMsg | .callback _ => true
  | .readMsg _ | .sendMsg true | .closeConn => false

/-- Above the `sendMsg` that `HandleEvent` has still to call, or above nothing. -/
inductive Nested : List Task → Prop where
  | nil : Nested []
  | send : Nested [.sendMsg true]
  | cons (t : Task) (rest : List Task) (ht : upper t = true) (hrest : Nested rest) :
      Nested (t :: rest)

/-- `readMsg` and `closeConn` run with nothing above and nothing below. -/
inductive Orderly : List Task → Prop where
  | nested (ts : List Task) (hts : Nested ts) : Orderly ts
  | readMsg (writable : Bool) : Orderly [.readMsg writable]
  | closeConn : Orderly [.closeConn]

/-- With a closed connection nothing is to be done but its close callback, or
    what a late functor has called. -/
structure Calm (s : Lifetime) : Prop where
  inv : s.Inv
  orderly : Orderly s.tasks
  closed : ¬s.Open → s.tasks = [] ∨ s.tasks = [.callback true] ∨
    0 < s.functors ∧ (s.tasks = [.closeConn] ∨ s.tasks = [.sendMsg false])

theorem calm_initial : initial.Calm :=
  ⟨inv_initial, .nested _ .nil, fun h => absurd (Or.inl rfl) h⟩

/-- In a calm state no callback that ends, and no pointer that goes, takes the
    connection away from a function of it. -/
theorem Calm.outlives (h : s.Calm) (hstep : s.step l = some s') : s.Outlives l := by
  cases (step_cases hstep).2 with
  | leaves _ closing rest hl htasks =>
    have hlast : ¬s.Open → 1 < s.owners ∨ s.tasks.tail = [] := by
      intro hclosed
      right
      rw [htasks]
      rcases h.closed hclosed with hnone | hone | ⟨_, hlate | hlate⟩ <;> rw [htasks] at *
      · cases hnone
      · cases hone
        rfl
      · cases hlate
      · cases hlate
    rcases hl with rfl | rfl <;> exact hlast
  | drop hheld =>
    intro hclosed
    rcases h.closed hclosed with hnone | hone | ⟨hfunctor, _⟩
    · exact Or.inr hnone
    · left
      rw [owners, hone]
      have hkept : 0 < s.kept := Nat.add_pos_right _ hheld
      exact Nat.succ_lt_succ hkept
    · left
      unfold owners kept
      omega
  | more _ functors held _ _ hleaves hdrop =>
    cases l <;> trivial
  | _ => trivial

/-- A user who has a pointer runs at the bottom of a nested stack. -/
theorem Orderly.nested_of_hasPointer (h : Orderly s.tasks) (hpointer : s.HasPointer) :
    Nested s.tasks := by
  unfold HasPointer at hpointer
  cases hts : s.tasks with
  | nil => exact .nil
  | cons t rest =>
    rw [hts] at h hpointer
    cases h with
    | nested _ hnested => exact hnested
    | readMsg writable => exact absurd hpointer id
    | closeConn => exact absurd hpointer id

/-- What a function of a nested stack leaves is orderly again. -/
theorem Nested.goOn {t : Task} {rest : List Task} (h : Nested (t :: rest)) (o : CallEnd) :
    Orderly (s.goOn t rest o).tasks ∨ t.isCallback = true := by
  cases h with
  | send =>
    -- `sendMsg` in `HandleEvent`
    left
    unfold Lifetime.goOn
    dsimp only
    split
    · exact .closeConn
    · cases o with
      | nothing => exact .nested _ .nil
      | data => exact .nested _ (.cons _ _ rfl (.cons _ _ rfl .nil))
      | fails => exact .closeConn
  | cons _ _ ht hrest =>
    cases t with
    | parseProtocol =>
      left
      cases o with
      | data => exact .nested _ (.cons _ _ rfl hrest)
      | nothing | fails => exact .nested _ hrest
    | decode =>
      left
      cases o with
      | data => exact .nested _ (.cons _ _ rfl (.cons _ _ rfl hrest))
      | nothing | fails => exact .nested _ hrest
    | sendMsg inHandleEvent =>
      left
      cases inHandleEvent with
      | true => cases ht
      | false =>
        unfold Lifetime.goOn
        dsimp only
        split
        · exact .nested _ hrest
        · cases o with
          | data => exact .nested _ (.cons _ _ rfl (.cons _ _ rfl hrest))
          | nothing | fails => exact .nested _ hrest
    | restOfSendMsg => exact Or.inl (.nested _ hrest)
    | callback closing => exact Or.inr rfl
    | readMsg writable | closeConn => cases ht

theorem Orderly.goOn {t : Task} {rest : List Task} (h : Orderly (t :: rest))
    (ht : t.isCallback = false) (o : CallEnd) : Orderly (s.goOn t rest o).tasks := by
  cases h with
  | nested _ hnested =>
    rcases hnested.goOn (s := s) o with horderly | hcallback
    · exact horderly
    · rw [ht] at hcallback
      cases hcallback
  | readMsg writable =>
    cases o with
    | nothing => cases writable <;> exact .nested _ (by constructor)
    | data =>
      cases writable
      · exact .nested _ (.cons _ _ rfl .nil)
      · exact .nested _ (.cons _ _ rfl .send)
    | fails => exact .closeConn
  | closeConn =>
    unfold Lifetime.goOn Lifetime.closeConn
    dsimp only
    split
    · exact .nested _ (.cons _ _ rfl .nil)
    · exact .nested _ .nil

/-- A closed connection's functions end; one that closes it leaves its close
    callback alone. -/
theorem Calm.closed_goOn (h : s.Calm) {t : Task} {rest : List Task} (htasks : s.tasks = t :: rest)
    (ht : t.isCallback = false) (o : CallEnd) (hclosed : ¬(s.goOn t rest o).Open) :
    (s.goOn t rest o).tasks = [] ∨ (s.goOn t rest o).tasks = [.callback true] := by
  by_cases hopen : s.Open
  · -- the connection has just been closed, by `closeConn` with nothing below
    have hgo := goOn_spec (s := s) t rest o ht
    generalize s.goOn t rest o = s₁ at hgo hclosed
    cases hgo with
    | stays pre hpre => exact absurd hopen hclosed
    | closes hclose _ =>
      right
      have horderly := h.orderly
      rw [htasks, hclose] at horderly
      cases horderly with
      | nested _ hnested =>
        cases hnested with
        | cons _ _ hupper _ => cases hupper
      | closeConn => rfl
  · have hstatus : s.connStatus_ ≠ XF_CONN_STATUS_CONNECTED := fun heq => hopen (Or.inr heq)
    rcases h.closed hopen with hnone | hone | ⟨_, hlate | hlate⟩ <;> rw [htasks] at *
    · cases hnone
    · cases hone
      cases ht
    · cases hlate
      left
      simp only [Lifetime.goOn, Lifetime.closeConn, if_neg hopen]
    · cases hlate
      left
      simp only [Lifetime.goOn, ne_eq, hstatus, not_false_eq_true, if_true]
      rfl

theorem handleEvent_orderly (closing readable writable : Bool) :
    Orderly (handleEvent closing readable writable) := by
  cases closing
  · cases readable
    · cases writable
      · exact .nested _ .nil
      · exact .nested _ .send
    · exact .readMsg writable
  · exact .closeConn

theorem calm_step (s : Lifetime) (l : LifetimeStep) (s' : Lifetime) (h : s.Calm)
    (hgood : s.ClosesOutside l) (hstep : s.step l = some s') : s'.Calm := by
  have hinv := inv_step s l s' h.inv (h.outlives hstep) hstep
  cases (step_cases hstep).2 with
  | handleEvent closing readable writable hidle hregistered =>
    exact ⟨hinv, handleEvent_orderly ..,
      fun hclosed => absurd (h.inv.open_of_registered hregistered) hclosed⟩
  | runSendMsgToBuffer hidle hfunctor =>
    exact ⟨hinv, .nested _ (.cons _ _ rfl .nil), fun _ => Or.inr (Or.inr ⟨hfunctor, Or.inr rfl⟩)⟩
  | runCloseConn hidle hfunctor =>
    exact ⟨hinv, .closeConn, fun _ => Or.inr (Or.inr ⟨hfunctor, Or.inl rfl⟩)⟩
  | doSendResponse hidle hstatus =>
    exact ⟨hinv, .nested _ (.cons _ _ rfl .nil), fun hclosed => absurd (Or.inr hstatus) hclosed⟩
  | makeConnected hidle hfunctor hstatus =>
    exact ⟨hinv, .nested _ (.cons _ _ rfl .nil), fun hclosed => absurd (Or.inr rfl) hclosed⟩
  | clear hidle hfunctor => exact ⟨hinv, h.orderly, fun _ => Or.inl hidle⟩
  | goOn o t rest htasks ht halive =>
    have horderly := h.orderly
    rw [htasks] at horderly
    refine ⟨hinv, horderly.goOn ht o, fun hclosed => ?_⟩
    rcases h.closed_goOn htasks ht o hclosed with hnone | hone
    · exact Or.inl hnone
    · exact Or.inr (Or.inl hone)
  | faults o t rest htasks hgone => exact absurd hinv.fault nofun
  | leaves _ closing rest hl htasks =>
    have horderly := h.orderly
    rw [htasks] at horderly
    refine ⟨hinv, ?_, fun hclosed => ?_⟩
    · cases horderly with
      | nested _ hnested =>
        cases hnested with
        | cons _ _ _ hrest => exact .nested _ hrest
    · left
      by_cases hopen : s.Open
      · -- the callback was not that of a close, so the connection is still open
        cases closing with
        | false => exact absurd hopen hclosed
        | true =>
          exact absurd hopen (h.inv.closing (by rw [htasks]; exact List.mem_cons_self))
      · rcases h.closed hopen with hnone | hone | ⟨_, hlate | hlate⟩ <;> rw [htasks] at *
        · cases hnone
        · cases hone
          rfl
        · cases hlate
        · cases hlate
  | sendMsg hpointer hstatus =>
    exact ⟨hinv, .nested _ (.cons _ _ rfl (h.orderly.nested_of_hasPointer hpointer)),
      fun hclosed => absurd (Or.inr hstatus) hclosed⟩
  | closeConnection hpointer hstatus =>
    have hidle : s.tasks = [] := hgood
    refine ⟨hinv, ?_, fun hclosed => absurd (Or.inr hstatus) hclosed⟩
    rw [hidle]
    exact .closeConn
  | drop hheld => exact ⟨hinv, h.orderly, h.closed⟩
  | more _ functors held hfunctors hheld _ _ =>
    refine ⟨hinv, h.orderly, fun hclosed => ?_⟩
    rcases h.closed hclosed with hnone | hone | ⟨hfunctor, hlate⟩
    · exact Or.inl hnone
    · exact Or.inr (Or.inl hone)
    · exact Or.inr (Or.inr ⟨Nat.lt_of_lt_of_le hfunctor hfunctors, hlate⟩)

/-- **Callbacks that do not close.**  In every run in which the loop thread
    calls `closeConnection` only where nothing is to be done with the
    connection, and the finished callback does not throw: no member of a
    destroyed connection is used, and there is a connection as long as
    something is to be done with it.  Ends of stream, errors, closes by other
    threads and by timers, and sends in callbacks do no harm, nor do the other
    callbacks when they throw. -/
theorem alive_unless_closed_in_callback {ls : List LifetimeStep}
    (hgood : AllSteps step ClosesOutside initial ls) (hrun : run step initial ls = some s) :
    s.fault = false ∧ (s.tasks ≠ [] → 0 < s.owners) := by
  have hcalm : s.Calm := run_of_allSteps calm_step ls initial s calm_initial hgood hrun
  exact ⟨hcalm.inv.fault, hcalm.inv.alive⟩

/-- A message is committed, the commit callback answers it, and the user keeps
    a pointer; then the peer closes, and a late functor comes to nothing. -/
def answeredAndClosed : List LifetimeStep :=
  [.runMakeConnected, .returns, .clear, .handleEvent false true true, .goOn .data, .goOn .data,
    .goOn .data, .sendMsg, .goOn .data, .hold, .returns, .goOn .nothing, .returns, .goOn .nothing,
    .goOn .nothing, .post, .handleEvent false true false, .goOn .fails, .goOn .nothing, .drop,
    .returns, .runSendMsgToBuffer, .goOn .data, .clear]

theorem alive_unless_closed_in_callback_late : ∃ s,
    run step initial answeredAndClosed = some s ∧ s.owners = 0 ∧ s.fault = false := by
  have howners : (run step initial answeredAndClosed).map owners = some 0 := by decide
  obtain ⟨s, hrun, hs⟩ := Option.map_eq_some_iff.mp howners
  exact ⟨s, hrun, hs, (alive_unless_closed_in_callback (by decide) hrun).1⟩

end Lifetime

end XFast
