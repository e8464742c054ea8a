import XFast.Framework.Descriptors
import XFast.Net.ConnectionLifetime

/-! # Connections under descriptor numbers

    `connections_` of the server and `register_` of the loop are keyed by
    descriptor numbers.  `closeConn` removes the registration and the entry of
    its own number, and a new connection is entered under the number that it
    has.  The kernel gives a number again when the socket that had it is
    closed, that is, when the connection with this `sock_` is destroyed.

    `Lifetime` is one connection with its own registration and its own entry.
    Here there are any number of them over the two maps.  The order of the
    calls of different connections is left open.

    There is one more way for a number to be closed: `xListener::handleAccept`
    closes it when the finished callback throws.  The connection is connected
    then, and in both maps.  A run ends there; what follows from it is in the
    module on accepts. -/

namespace XFast

open Steps Descriptors XConnStatus

/-! ## Section 1: The maps -/

/-- A connection object; `destroyed` once its destructor has run. -/
structure ConnObject where
  sock_ : Fd
  connStatus_ : XConnStatus
  functors : Nat
  held : Nat
  tasks : List Task
  fault : Bool
  destroyed : Bool
  deriving DecidableEq, Repr

/-- The sockets of the connections, the connection objects (those from `next`
    on have not been created), and the two maps.  `thrown` says that an
    exception of a finished callback has been caught in `handleAccept`. -/
structure DescriptorKeys where
  kernel : Table Fd
  objects : ConnId → ConnObject
  next : ConnId
  connections_ : Fd → Option ConnId
  register_ : Fd → Option ConnId
  thrown : Bool

inductive KeysStep where
  /-- `acceptNewConnection`, with the number that the kernel gives. -/
  | accept (n : Fd)
  | connection (c : ConnId) (l : LifetimeStep)
  /-- `connFinishCb_` throws, and `handleAccept` closes the number. -/
  | finishThrows (c : ConnId)
  /-- `~xConnection`, when the last pointer has gone. -/
  | destroy (c : ConnId)
  deriving DecidableEq, Repr

namespace DescriptorKeys

def initial : DescriptorKeys where
  kernel := ⟨[], 0, [], []⟩
  objects _ := ⟨0, XF_CONN_STATUS_UNKOWN, 0, 0, [], false, false⟩
  next := 0
  connections_ _ := none
  register_ _ := none
  thrown := false

/-- The connection, with what the maps have under its number. -/
def view (s : DescriptorKeys) (c : ConnId) : Lifetime where
  connStatus_ := (s.objects c).connStatus_
  registered := decide (s.register_ (s.objects c).sock_ = some c)
  table := decide (s.connections_ (s.objects c).sock_ = some c)
  functors := (s.objects c).functors
  held := (s.objects c).held
  tasks := (s.objects c).tasks
  fault := (s.objects c).fault

/-- The object has been created and not been destroyed. -/
def Lives (s : DescriptorKeys) (c : ConnId) : Prop := c < s.next ∧ (s.objects c).destroyed = false

instance (s : DescriptorKeys) (c : ConnId) : Decidable (s.Lives c) :=
  inferInstanceAs (Decidable (_ ∧ _))

/-- No object is waiting for its destructor. -/
def Settled (s : DescriptorKeys) : Prop :=
  ∀ c < s.next, (s.objects c).destroyed = false → 0 < (s.view c).owners

instance (s : DescriptorKeys) : Decidable s.Settled :=
  inferInstanceAs (Decidable (∀ c < s.next, _))

def accept (s : DescriptorKeys) (n : Fd) : DescriptorKeys where
  kernel := s.kernel.acquire n
  objects := Function.update s.objects s.next
    ⟨n, XF_CONN_STATUS_CONNECTING, 1, 0, [], false, false⟩
  next := s.next + 1
  connections_ := Function.update s.connections_ n (some s.next)
  register_ := s.register_
  thrown := s.thrown

/-- `closeConn` gets past its test. -/
def Closes (v v' : Lifetime) : Prop := v.Open ∧ ¬v'.Open

instance (v v' : Lifetime) : Decidable (Closes v v') := inferInstanceAs (Decidable (_ ∧ _))

/-- `makeConnected` runs. -/
def Connects (v v' : Lifetime) : Prop :=
  v.connStatus_ = XF_CONN_STATUS_CONNECTING ∧ v'.connStatus_ = XF_CONN_STATUS_CONNECTED

instance (v v' : Lifetime) : Decidable (Connects v v') := inferInstanceAs (Decidable (_ ∧ _))

/-- The connection `c` has come to `v`.  `loop_->remove(..)`,
    `connections_.erase(..)` and `loop_->reg(..)` go by the number. -/
def put (s : DescriptorKeys) (c : ConnId) (v : Lifetime) : DescriptorKeys where
  kernel := s.kernel
  objects := Function.update s.objects c
    { s.objects c with
      connStatus_ := v.connStatus_
      functors := v.functors
      held := v.held
      tasks := v.tasks
      fault := v.fault }
  next := s.next
  connections_ :=
    if Closes (s.view c) v then Function.update s.connections_ (s.objects c).sock_ none
    else s.connections_
  register_ :=
    if Closes (s.view c) v then Function.update s.register_ (s.objects c).sock_ none
    else if Connects (s.view c) v then Function.update s.register_ (s.objects c).sock_ (some c)
    else s.register_
  thrown := s.thrown

/-- The `catch` of `handleAccept`: nobody but the kernel is told. -/
def finishThrows (s : DescriptorKeys) (c : ConnId) : DescriptorKeys :=
  { s with
    kernel := s.kernel.close (s.objects c).sock_
    objects := Function.update s.objects c { s.objects c with tasks := [] }
    thrown := true }

/-- `~xSocket` closes the number. -/
def destroy (s : DescriptorKeys) (c : ConnId) : DescriptorKeys :=
  { s with
    kernel := s.kernel.close (s.objects c).sock_
    objects := Function.update s.objects c { s.objects c with destroyed := true } }

/-- No step is taken after `handleAccept` has caught an exception. -/
def step (s : DescriptorKeys) (l : KeysStep) : Option DescriptorKeys :=
  if s.thrown then none
  else
    match l with
    | .accept n => if s.Settled ∧ ¬s.kernel.IsOpen n then some (s.accept n) else none
    | .connection c l =>
        if s.Settled ∧ c < s.next then ((s.view c).step l).map (s.put c) else none
    | .finishThrows c =>
        -- `connFinishCb_` is the callback that nothing is below
        if s.Settled ∧ c < s.next ∧ (s.view c).tasks = [.callback false] then
          some (s.finishThrows c)
        else none
    | .destroy c => if s.Lives c ∧ (s.view c).owners = 0 then some (s.destroy c) else none

/-- The condition under which no member of a destroyed connection is used; and
    no finished callback throws. -/
def Outlives (s : DescriptorKeys) : KeysStep → Prop
  | .connection c l => (s.view c).Outlives l
  | .finishThrows _ => False
  | .accept _ | .destroy _ => True

instance (s : DescriptorKeys) : ∀ l, Decidable (s.Outlives l)
  | .connection c l => inferInstanceAs (Decidable ((s.view c).Outlives l))
  | .finishThrows _ => isFalse id
  | .accept _ | .destroy _ => isTrue trivial

end DescriptorKeys

/-! ## Section 2: What a step does to registration and entry -/

namespace Lifetime

variable {s s' : Lifetime} {l : LifetimeStep}

theorem flags_of_same (hstatus : s'.connStatus_ = s.connStatus_) (htable : s'.table = s.table)
    (hregistered : s'.registered = s.registered) :
    (s'.table = if DescriptorKeys.Closes s s' then false else s.table) ∧
    s'.registered = if DescriptorKeys.Closes s s' then false
      else if DescriptorKeys.Connects s s' then true else s.registered := by
  have hstays : ¬DescriptorKeys.Closes s s' := by
    rintro ⟨hopen, hclosed⟩
    unfold Open at hclosed
    rw [hstatus] at hclosed
    exact hclosed hopen
  have hquiet : ¬DescriptorKeys.Connects s s' := by
    rintro ⟨hfirst, hsecond⟩
    rw [hstatus, hfirst] at hsecond
    cases hsecond
  rw [if_neg hstays, if_neg hstays, if_neg hquiet]
  exact ⟨htable, hregistered⟩

/-- `closeConn` takes both away, `makeConnected` registers, and nothing else
    touches them. -/
theorem step_flags (h : s.Inv) (hstep : s.step l = some s') :
    (s'.table = if DescriptorKeys.Closes s s' then false else s.table) ∧
    s'.registered = if DescriptorKeys.Closes s s' then false
      else if DescriptorKeys.Connects s s' then true else s.registered := by
  cases (step_cases hstep).2 with
  | makeConnected hidle hfunctor hstatus =>
    have hstays : ¬DescriptorKeys.Closes s { s with
        connStatus_ := XF_CONN_STATUS_CONNECTED
        registered := true
        tasks := [.callback false] } := fun hcloses => hcloses.2 (Or.inr rfl)
    rw [if_neg hstays, if_neg hstays, if_pos ⟨hstatus, rfl⟩]
    exact ⟨rfl, rfl⟩
  | goOn o t rest htasks ht halive =>
    have hgo := goOn_spec (s := s) t rest o ht
    generalize s.goOn t rest o = s₁ at hgo ⊢
    cases hgo with
    | stays pre hpre => exact flags_of_same rfl rfl rfl
    | closes hcall hopen =>
      have hcloses : DescriptorKeys.Closes s { s with
          connStatus_ := XF_CONN_STATUS_DISCONNECTING
          registered := false
          table := false
          tasks := .callback true :: rest } := by
        refine ⟨hopen, ?_⟩
        rintro (heq | heq) <;> cases heq
      rw [if_pos hcloses, if_pos hcloses]
      exact ⟨rfl, rfl⟩
  | leaves _ closing rest hl htasks =>
    cases closing with
    | false => exact flags_of_same rfl rfl rfl
    | true =>
      -- `setClosed` comes after `closeConn`
      have hclosed : ¬s.Open := h.closing (by rw [htasks]; exact List.mem_cons_self)
      have hstays : ∀ v, ¬DescriptorKeys.Closes s v := fun v hcloses => hclosed hcloses.1
      have hquiet : ∀ v, ¬DescriptorKeys.Connects s v :=
        fun v hconnects => hclosed (Or.inl hconnects.1)
      rw [if_neg (hstays _), if_neg (hstays _), if_neg (hquiet _)]
      exact ⟨rfl, rfl⟩
  | _ => exact flags_of_same rfl rfl rfl

/-- A destroyed connection with which nothing is to be done takes no step. -/
theorem step_of_gone (hgone : s.owners = 0) (hidle : s.tasks = []) : s.step l = none := by
  unfold owners kept at hgone
  have hregistered : s.registered = false := by
    cases heq : s.registered with
    | false => rfl
    | true =>
      rw [heq, Bool.toNat_true] at hgone
      omega
  have htable : s.table = false := by
    cases heq : s.table with
    | false => rfl
    | true =>
      rw [heq, Bool.toNat_true] at hgone
      omega
  have hfunctors : ¬0 < s.functors := by omega
  have hheld : ¬0 < s.held := by omega
  have hpointer : ¬s.HasPointer := by
    unfold HasPointer
    rw [hidle]
    exact hheld
  unfold step
  by_cases hfault : s.fault = true
  · rw [if_pos hfault]
  · rw [if_neg hfault]
    cases l with
    | sendMsg | closeConnection | closeConnectionAfter | hold => exact if_neg hpointer
    | post | drop => exact if_neg hheld
    | _ => simp [hidle, hregistered, htable, hfunctors]

end Lifetime

namespace DescriptorKeys

/-! ## Section 3: No number is shared -/

/-- The open numbers are those of the living connections, each of its own; the
    maps have only living connections, each under its number; and every
    connection has lived like one that is alone. -/
structure Inv (s : DescriptorKeys) : Prop where
  sound : s.kernel.Sound
  stray : s.kernel.stray = []
  created : s.kernel.created = s.next
  opened : ∀ n, s.kernel.IsOpen n ↔ ∃ c, s.Lives c ∧ (s.objects c).sock_ = n
  alone : ∀ c d, s.Lives c → s.Lives d → (s.objects c).sock_ = (s.objects d).sock_ → c = d
  connections : ∀ n c, s.connections_ n = some c → s.Lives c ∧ (s.objects c).sock_ = n
  register : ∀ n c, s.register_ n = some c → s.Lives c ∧ (s.objects c).sock_ = n
  lifetimes : ∀ c < s.next,
    Reaches Lifetime.step Lifetime.Outlives (· = s.view c) Lifetime.initial
  gone : ∀ c < s.next, (s.objects c).destroyed = true → (s.view c).owners = 0

theorem inv_initial : initial.Inv where
  sound := ⟨List.nodup_nil, List.Perm.refl _⟩
  stray := rfl
  created := rfl
  opened _ := iff_of_false (fun h => nomatch h) fun ⟨_, hlives, _⟩ => Nat.not_lt_zero _ hlives.1
  alone _ _ hc := absurd hc.1 (Nat.not_lt_zero _)
  connections _ _ h := nomatch h
  register _ _ h := nomatch h
  lifetimes _ h := absurd h (Nat.not_lt_zero _)
  gone _ h := absurd h (Nat.not_lt_zero _)

variable {s s' : DescriptorKeys} {l : KeysStep} {c d : ConnId} {n : Fd} {v : Lifetime}

theorem Inv.lifetime (h : s.Inv) (hc : c < s.next) : (s.view c).Inv := by
  obtain ⟨ls, v, hgood, hrun, rfl⟩ := h.lifetimes c hc
  exact run_of_allSteps Lifetime.inv_step ls _ _ Lifetime.inv_initial hgood hrun

/-- What is left of an older connection is not found under a free number. -/
theorem Inv.free (h : s.Inv) (hfree : ¬s.kernel.IsOpen n) :
    s.connections_ n = none ∧ s.register_ n = none := by
  constructor
  · refine Option.eq_none_iff_forall_not_mem.mpr fun c hc => hfree ?_
    exact (h.opened n).mpr ⟨c, h.connections n c hc⟩
  · refine Option.eq_none_iff_forall_not_mem.mpr fun c hc => hfree ?_
    exact (h.opened n).mpr ⟨c, h.register n c hc⟩

theorem Inv.lives_of_step (h : s.Inv) (hc : c < s.next) {k : LifetimeStep}
    (hstep : (s.view c).step k = some v) : s.Lives c := by
  refine ⟨hc, Bool.eq_false_iff.mpr fun hdestroyed => ?_⟩
  have hgone := h.gone c hc hdestroyed
  have hidle : (s.view c).tasks = [] := by
    by_contra hbusy
    have hpos := (h.lifetime hc).alive hbusy
    omega
  rw [Lifetime.step_of_gone hgone hidle] at hstep
  cases hstep

/-- Under the number of a living connection there is no other one. -/
theorem Inv.connections_of_lives (h : s.Inv) (hc : s.Lives c)
    (hd : s.connections_ (s.objects c).sock_ = some d) : d = c := by
  obtain ⟨hlives, hsock⟩ := h.connections _ d hd
  exact h.alone d c hlives hc hsock

theorem Inv.register_of_lives (h : s.Inv) (hc : s.Lives c)
    (hd : s.register_ (s.objects c).sock_ = some d) : d = c := by
  obtain ⟨hlives, hsock⟩ := h.register _ d hd
  exact h.alone d c hlives hc hsock

/-! ### A connection goes on -/

theorem objects_put_self : (s.put c v).objects c = { s.objects c with
    connStatus_ := v.connStatus_
    functors := v.functors
    held := v.held
    tasks := v.tasks
    fault := v.fault } := Function.update_self ..

theorem objects_put_of_ne (hd : d ≠ c) : (s.put c v).objects d = s.objects d :=
  Function.update_of_ne hd ..

theorem sock_put : ((s.put c v).objects d).sock_ = (s.objects d).sock_ := by
  by_cases hd : d = c
  · subst hd
    rw [objects_put_self]
  · rw [objects_put_of_ne hd]

theorem lives_put : (s.put c v).Lives d ↔ s.Lives d := by
  have hdestroyed : ((s.put c v).objects d).destroyed = (s.objects d).destroyed := by
    by_cases hd : d = c
    · subst hd
      rw [objects_put_self]
    · rw [objects_put_of_ne hd]
  unfold Lives
  rw [hdestroyed]
  exact Iff.rfl

/-- The connection that has taken the step is as it says. -/
theorem view_put_self (h : s.Inv) (hc : s.Lives c) {k : LifetimeStep}
    (hstep : (s.view c).step k = some v) : (s.put c v).view c = v := by
  obtain ⟨htable, hregistered⟩ := Lifetime.step_flags (h.lifetime hc.1) hstep
  have hconnections : decide ((s.put c v).connections_ (s.objects c).sock_ = some c) = v.table := by
    rw [htable]
    show decide ((if Closes (s.view c) v then _ else _ : Fd → Option ConnId) _ = some c) = _
    split
    · rw [Function.update_self]
      rfl
    · rfl
  have hregister : decide ((s.put c v).register_ (s.objects c).sock_ = some c) = v.registered := by
    rw [hregistered]
    show decide ((if Closes (s.view c) v then _ else _ : Fd → Option ConnId) _ = some c) = _
    split
    · rw [Function.update_self]
      rfl
    · split
      · rw [Function.update_self]
        exact decide_eq_true rfl
      · rfl
  unfold view
  rw [objects_put_self]
  dsimp only
  rw [hconnections, hregister]

/-- The others do not notice. -/
theorem view_put_of_ne (h : s.Inv) (hc : s.Lives c) (hd : d ≠ c) :
    (s.put c v).view d = s.view d := by
  have hother : ∀ m : Fd → Option ConnId, (∀ e, m (s.objects c).sock_ = some e → e = c) →
      ∀ x : Option ConnId, x ≠ some d →
      (Function.update m (s.objects c).sock_ x (s.objects d).sock_ = some d ↔
        m (s.objects d).sock_ = some d) := by
    intro m hm x hx
    by_cases hsock : (s.objects d).sock_ = (s.objects c).sock_
    · rw [hsock, Function.update_self]
      exact iff_of_false hx fun hmd => hd (hm d hmd)
    · rw [Function.update_of_ne hsock]
  have hself : (some c : Option ConnId) ≠ some d := fun heq => hd (Option.some.inj heq).symm
  have hconnections : (s.put c v).connections_ (s.objects d).sock_ = some d ↔
      s.connections_ (s.objects d).sock_ = some d := by
    show (if Closes (s.view c) v then _ else _ : Fd → Option ConnId) _ = some d ↔ _
    split
    · exact hother _ (fun e => h.connections_of_lives hc) none nofun
    · exact Iff.rfl
  have hregister : (s.put c v).register_ (s.objects d).sock_ = some d ↔
      s.register_ (s.objects d).sock_ = some d := by
    show (if Closes (s.view c) v then _ else _ : Fd → Option ConnId) _ = some d ↔ _
    split
    · exact hother _ (fun e => h.register_of_lives hc) none nofun
    · split
      · exact hother _ (fun e => h.register_of_lives hc) (some c) hself
      · exact Iff.rfl
  unfold view
  rw [objects_put_of_ne hd]
  simp only [hconnections, hregister]

theorem Inv.put (h : s.Inv) (hc : s.Lives c) {k : LifetimeStep} (hgood : (s.view c).Outlives k)
    (hstep : (s.view c).step k = some v) : (s.put c v).Inv where
  sound := h.sound
  stray := h.stray
  created := h.created
  opened n := by
    simp only [lives_put, sock_put]
    exact h.opened n
  alone d e := by
    rw [lives_put, lives_put, sock_put, sock_put]
    exact h.alone d e
  connections n d hd := by
    rw [lives_put, sock_put]
    refine h.connections n d ?_
    change (if Closes (s.view c) v then _ else _ : Fd → Option ConnId) n = some d at hd
    split at hd
    case isFalse => exact hd
    case isTrue =>
      by_cases hn : n = (s.objects c).sock_
      · rw [hn, Function.update_self] at hd
        cases hd
      · rw [Function.update_of_ne hn] at hd
        exact hd
  register n d hd := by
    rw [lives_put, sock_put]
    change (if Closes (s.view c) v then _ else _ : Fd → Option ConnId) n = some d at hd
    by_cases hn : n = (s.objects c).sock_
    · subst hn
      split at hd
      case isTrue =>
        rw [Function.update_self] at hd
        cases hd
      case isFalse =>
        split at hd
        case isFalse => exact h.register _ d hd
        case isTrue =>
          -- `reg` has entered the connection itself
          rw [Function.update_self] at hd
          cases hd
          exact ⟨hc, rfl⟩
    · refine h.register n d ?_
      split at hd
      case isTrue =>
        rw [Function.update_of_ne hn] at hd
        exact hd
      case isFalse =>
        split at hd
        case isFalse => exact hd
        case isTrue =>
          rw [Function.update_of_ne hn] at hd
          exact hd
  lifetimes d hd := by
    by_cases heq : d = c
    · subst heq
      rw [view_put_self h hc hstep]
      exact (h.lifetimes d hd).trans fun _ hview =>
        hview ▸ .of_step hstep hgood (.here rfl)
    · rw [view_put_of_ne h hc heq]
      exact h.lifetimes d hd
  gone d hd hdestroyed := by
    by_cases heq : d = c
    · subst heq
      have hlives : (s.put d v).Lives d := lives_put.mpr hc
      rw [hlives.2] at hdestroyed
      cases hdestroyed
    · rw [objects_put_of_ne heq] at hdestroyed
      rw [view_put_of_ne h hc heq]
      exact h.gone d hd hdestroyed

/-! ### A new connection -/

theorem objects_accept_of_ne (hc : c ≠ s.next) : (s.accept n).objects c = s.objects c :=
  Function.update_of_ne hc ..

theorem objects_accept_self : (s.accept n).objects s.next =
    ⟨n, XF_CONN_STATUS_CONNECTING, 1, 0, [], false, false⟩ := Function.update_self ..

theorem sock_accept_self : ((s.accept n).objects s.next).sock_ = n := by
  rw [objects_accept_self]

theorem lives_accept_self : (s.accept n).Lives s.next := by
  refine ⟨Nat.lt_succ_self _, ?_⟩
  rw [objects_accept_self]

theorem lives_accept : (s.accept n).Lives c ↔ s.Lives c ∨ c = s.next := by
  by_cases hc : c = s.next
  · subst hc
    exact iff_of_true lives_accept_self (Or.inr rfl)
  · have hlt : c < (s.accept n).next ↔ c < s.next :=
      Nat.lt_succ_iff_lt_or_eq.trans (or_iff_left hc)
    unfold Lives
    rw [objects_accept_of_ne hc, or_iff_left hc, hlt]

/-- A new connection begins like one that is alone. -/
theorem view_accept_self (h : s.Inv) (hfree : ¬s.kernel.IsOpen n) :
    (s.accept n).view s.next = Lifetime.initial := by
  have hregister : (s.accept n).register_ n = none := (h.free hfree).2
  have hconnections : (s.accept n).connections_ n = some s.next := Function.update_self ..
  unfold view
  rw [objects_accept_self]
  dsimp only
  rw [hregister, hconnections, decide_eq_true rfl]
  rfl

theorem view_accept_of_lt (h : s.Inv) (hfree : ¬s.kernel.IsOpen n) (hc : c < s.next) :
    (s.accept n).view c = s.view c := by
  have hconnections : (s.accept n).connections_ (s.objects c).sock_ = some c ↔
      s.connections_ (s.objects c).sock_ = some c := by
    by_cases hsock : (s.objects c).sock_ = n
    · have hnew : (s.accept n).connections_ n = some s.next := Function.update_self ..
      rw [hsock, hnew, (h.free hfree).1]
      exact iff_of_false (fun heq => hc.ne (Option.some.inj heq).symm) nofun
    · have hold : (s.accept n).connections_ (s.objects c).sock_ =
          s.connections_ (s.objects c).sock_ := Function.update_of_ne hsock ..
      rw [hold]
  unfold view
  rw [objects_accept_of_ne hc.ne]
  simp only [hconnections]
  rfl

theorem Inv.accept (h : s.Inv) (hfree : ¬s.kernel.IsOpen n) : (s.accept n).Inv where
  sound := h.sound.acquire hfree
  stray := h.stray
  created := congrArg (· + 1) h.created
  opened m := by
    show (s.kernel.acquire n).IsOpen m ↔ _
    rw [Table.isOpen_acquire, h.opened m]
    constructor
    · rintro (⟨c, hlives, hsock⟩ | rfl)
      · refine ⟨c, lives_accept.mpr (Or.inl hlives), ?_⟩
        rw [objects_accept_of_ne hlives.1.ne]
        exact hsock
      · exact ⟨s.next, lives_accept_self, sock_accept_self⟩
    · rintro ⟨c, hlives, hsock⟩
      rcases lives_accept.mp hlives with hold | rfl
      · rw [objects_accept_of_ne hold.1.ne] at hsock
        exact Or.inl ⟨c, hold, hsock⟩
      · exact Or.inr (hsock.symm.trans sock_accept_self)
  alone c d hc hd hsock := by
    -- the number was free, so none of the old ones has it
    have hnew : ∀ e, s.Lives e → (s.objects e).sock_ ≠ n :=
      fun e he heq => hfree ((h.opened n).mpr ⟨e, he, heq⟩)
    rcases lives_accept.mp hc with hold | rfl
    · rw [objects_accept_of_ne hold.1.ne] at hsock
      rcases lives_accept.mp hd with hold' | rfl
      · rw [objects_accept_of_ne hold'.1.ne] at hsock
        exact h.alone c d hold hold' hsock
      · exact absurd (hsock.trans sock_accept_self) (hnew c hold)
    · rcases lives_accept.mp hd with hold' | rfl
      · rw [objects_accept_of_ne hold'.1.ne, sock_accept_self] at hsock
        exact absurd hsock.symm (hnew d hold')
      · rfl
  connections m c hm := by
    by_cases heq : m = n
    · subst heq
      have hnew : (s.accept m).connections_ m = some s.next := Function.update_self ..
      cases hnew.symm.trans hm
      exact ⟨lives_accept_self, sock_accept_self⟩
    · have hold : (s.accept n).connections_ m = s.connections_ m := Function.update_of_ne heq ..
      obtain ⟨hlives, hsock⟩ := h.connections m c (hold.symm.trans hm)
      rw [objects_accept_of_ne hlives.1.ne]
      exact ⟨lives_accept.mpr (Or.inl hlives), hsock⟩
  register m c hm := by
    obtain ⟨hlives, hsock⟩ := h.register m c hm
    rw [objects_accept_of_ne hlives.1.ne]
    exact ⟨lives_accept.mpr (Or.inl hlives), hsock⟩
  lifetimes c hc := by
    rcases Nat.lt_succ_iff_lt_or_eq.mp hc with hold | rfl
    · rw [view_accept_of_lt h hfree hold]
      exact h.lifetimes c hold
    · rw [view_accept_self h hfree]
      exact .here rfl
  gone c hc hdestroyed := by
    rcases Nat.lt_succ_iff_lt_or_eq.mp hc with hold | rfl
    · rw [objects_accept_of_ne hold.ne] at hdestroyed
      rw [view_accept_of_lt h hfree hold]
      exact h.gone c hold hdestroyed
    · have hlives : (s.accept n).Lives s.next := lives_accept_self
      rw [hlives.2] at hdestroyed
      cases hdestroyed

/-! ### A destructor -/

theorem objects_destroy_self :
    (s.destroy c).objects c = { s.objects c with destroyed := true } := Function.update_self ..

theorem objects_destroy_of_ne (hd : d ≠ c) : (s.destroy c).objects d = s.objects d :=
  Function.update_of_ne hd ..

theorem view_destroy : (s.destroy c).view d = s.view d := by
  unfold view
  by_cases hd : d = c
  · subst hd
    rw [objects_destroy_self]
    rfl
  · rw [objects_destroy_of_ne hd]
    rfl

theorem sock_destroy : ((s.destroy c).objects d).sock_ = (s.objects d).sock_ := by
  by_cases hd : d = c
  · subst hd
    rw [objects_destroy_self]
  · rw [objects_destroy_of_ne hd]

theorem lives_destroy : (s.destroy c).Lives d ↔ s.Lives d ∧ d ≠ c := by
  by_cases hd : d = c
  · subst hd
    refine iff_of_false (fun hlives => ?_) fun hboth => hboth.2 rfl
    have hdestroyed := hlives.2
    rw [objects_destroy_self] at hdestroyed
    cases hdestroyed
  · unfold Lives
    rw [objects_destroy_of_ne hd, and_iff_left hd]
    exact Iff.rfl

theorem Inv.destroy (h : s.Inv) (hc : s.Lives c) (hgone : (s.view c).owners = 0) :
    (s.destroy c).Inv where
  sound := h.sound.close_any _
  stray := by
    have hopen : s.kernel.IsOpen (s.objects c).sock_ := (h.opened _).mpr ⟨c, hc, rfl⟩
    show (s.kernel.close (s.objects c).sock_).stray = []
    rw [Table.stray_close, if_pos hopen]
    exact h.stray
  created := Table.created_close.trans h.created
  opened n := by
    show (s.kernel.close (s.objects c).sock_).IsOpen n ↔ _
    rw [Table.isOpen_close, h.opened n]
    constructor
    · rintro ⟨⟨d, hd, rfl⟩, hne⟩
      refine ⟨d, lives_destroy.mpr ⟨hd, ?_⟩, sock_destroy⟩
      rintro rfl
      exact hne rfl
    · rintro ⟨d, hd, rfl⟩
      obtain ⟨hlives, hne⟩ := lives_destroy.mp hd
      rw [sock_destroy]
      exact ⟨⟨d, hlives, rfl⟩, fun hsock => hne (h.alone d c hlives hc hsock)⟩
  alone d e hd he := by
    rw [sock_destroy, sock_destroy]
    exact h.alone d e (lives_destroy.mp hd).1 (lives_destroy.mp he).1
  connections n d hd := by
    obtain ⟨hlives, hsock⟩ := h.connections n d hd
    rw [sock_destroy]
    refine ⟨lives_destroy.mpr ⟨hlives, ?_⟩, hsock⟩
    rintro rfl
    have htable : (s.view d).table = true := decide_eq_true (hsock ▸ hd)
    have := Lifetime.kept_pos_of_table htable
    have := (s.view d).kept_le_owners
    omega
  register n d hd := by
    obtain ⟨hlives, hsock⟩ := h.register n d hd
    rw [sock_destroy]
    refine ⟨lives_destroy.mpr ⟨hlives, ?_⟩, hsock⟩
    rintro rfl
    have hregistered : (s.view d).registered = true := decide_eq_true (hsock ▸ hd)
    unfold Lifetime.owners Lifetime.kept at hgone
    rw [hregistered, Bool.toNat_true] at hgone
    omega
  lifetimes d hd := by
    rw [view_destroy]
    exact h.lifetimes d hd
  gone d hd hdestroyed := by
    rw [view_destroy]
    by_cases heq : d = c
    · rw [heq]
      exact hgone
    · rw [objects_destroy_of_ne heq] at hdestroyed
      exact h.gone d hd hdestroyed

theorem inv_step (s : DescriptorKeys) (l : KeysStep) (s' : DescriptorKeys) (h : s.Inv)
    (hgood : s.Outlives l) (hstep : s.step l = some s') : s'.Inv := by
  obtain ⟨-, hstep⟩ := Option.ite_none_left_eq_some.mp hstep
  cases l with
  | accept n =>
    obtain ⟨hguard, heq⟩ := Option.ite_none_right_eq_some.mp hstep
    cases heq
    exact h.accept hguard.2
  | connection c l =>
    obtain ⟨hguard, heq⟩ := Option.ite_none_right_eq_some.mp hstep
    obtain ⟨v, hv, rfl⟩ := Option.map_eq_some_iff.mp heq
    exact h.put (h.lives_of_step hguard.2 hv) hgood hv
  | finishThrows c => exact hgood.elim
  | destroy c =>
    obtain ⟨hguard, heq⟩ := Option.ite_none_right_eq_some.mp hstep
    cases heq
    exact h.destroy hguard.1 hguard.2

/-- What the exclusion of `finishThrows` is for: the number of a connection
    that is in the table is free afterwards. -/
theorem Inv.free_after_finishThrows (h : s.Inv) (hc : s.Lives c) (hopen : (s.view c).Open)
    (hstep : s.step (.finishThrows c) = some s') :
    s'.Lives c ∧ ¬s'.kernel.IsOpen (s'.objects c).sock_ ∧
      s'.connections_ (s'.objects c).sock_ = some c := by
  obtain ⟨-, hstep⟩ := Option.ite_none_left_eq_some.mp hstep
  obtain ⟨-, heq⟩ := Option.ite_none_right_eq_some.mp hstep
  cases heq
  have hobject : (s.finishThrows c).objects c = { s.objects c with tasks := [] } :=
    Function.update_self ..
  have htable : s.connections_ (s.objects c).sock_ = some c :=
    of_decide_eq_true ((h.lifetime hc.1).table hopen)
  refine ⟨⟨hc.1, ?_⟩, ?_, ?_⟩
  · rw [hobject]
    exact hc.2
  · rw [hobject]
    show ¬(s.kernel.close (s.objects c).sock_).IsOpen (s.objects c).sock_
    rw [Table.isOpen_close]
    exact fun hboth => hboth.2 rfl
  · rw [hobject]
    exact htable

/-- When all connections are gone, all sockets have been closed, each once. -/
theorem Inv.all_closed (h : s.Inv) (hall : ∀ c < s.next, (s.objects c).destroyed = true) :
    s.kernel.entries = [] ∧ s.kernel.closed.Perm (List.range s.next) := by
  have hentries : s.kernel.entries = [] := by
    refine List.eq_nil_iff_forall_not_mem.mpr fun e he => ?_
    obtain ⟨c, hlives, -⟩ := (h.opened e.1).mp (List.mem_map.mpr ⟨e, he, rfl⟩)
    have hgone := hlives.2
    rw [hall c hlives.1] at hgone
    cases hgone
  have hperm := h.sound.objects
  rw [hentries, h.created] at hperm
  exact ⟨hentries, hperm⟩

/-- **Numbers.**  In every run in which each connection outlives what is still
    to be done with it and no finished callback throws: every connection lives
    as if it were alone; the maps have, under each number, at most the living
    connection that has it, and nothing under a number that the kernel may
    give; no two living connections have one number; and every socket is closed
    by its connection, once. -/
theorem numbers_apart {ls : List KeysStep} (hgood : AllSteps step Outlives initial ls)
    (hrun : run step initial ls = some s) :
    (∀ c < s.next, ∃ ls', AllSteps Lifetime.step Lifetime.Outlives Lifetime.initial ls' ∧
      run Lifetime.step Lifetime.initial ls' = some (s.view c)) ∧
    (∀ n c, s.connections_ n = some c ∨ s.register_ n = some c →
      s.Lives c ∧ (s.objects c).sock_ = n) ∧
    (∀ n, ¬s.kernel.IsOpen n → s.connections_ n = none ∧ s.register_ n = none) ∧
    (∀ c d, s.Lives c → s.Lives d → (s.objects c).sock_ = (s.objects d).sock_ → c = d) ∧
    (∀ n, s.kernel.IsOpen n ↔ ∃ c, s.Lives c ∧ (s.objects c).sock_ = n) ∧
    s.kernel.stray = [] ∧
    ((∀ c < s.next, (s.objects c).destroyed = true) →
      s.kernel.entries = [] ∧ s.kernel.closed.Perm (List.range s.next)) := by
  have hinv : s.Inv := run_of_allSteps inv_step ls initial s inv_initial hgood hrun
  refine ⟨fun c hc => ?_, fun n c hentry => ?_, fun n hfree => hinv.free hfree, hinv.alone,
    hinv.opened, hinv.stray, hinv.all_closed⟩
  · obtain ⟨ls', v, hgood', hrun', rfl⟩ := hinv.lifetimes c hc
    exact ⟨ls', hgood', hrun'⟩
  · rcases hentry with hconnection | hregistration
    · exact hinv.connections n c hconnection
    · exact hinv.register n c hregistration

/-- Two connections; the peer closes the first, and its number is given to a
    third one. -/
def numberGivenAgain : List KeysStep :=
  [.accept 7, .connection 0 .runMakeConnected, .connection 0 .returns, .connection 0 .clear,
    .accept 8, .connection 0 (.handleEvent true false false), .connection 0 (.goOn .nothing),
    .connection 0 .returns, .destroy 0, .accept 7, .connection 2 .runMakeConnected]

theorem numbers_apart_again : ∃ s, run step initial numberGivenAgain = some s ∧
    s.connections_ 7 = some 2 ∧ s.register_ 7 = some 2 ∧ ¬s.Lives 0 ∧
    ∃ ls', run Lifetime.step Lifetime.initial ls' = some (s.view 2) := by
  obtain ⟨s, hrun⟩ : ∃ s, run step initial numberGivenAgain = some s := ⟨_, rfl⟩
  have hgood : AllSteps step Outlives initial numberGivenAgain := by decide
  obtain ⟨hlifetimes, -⟩ := numbers_apart hgood hrun
  have hfinal : s.connections_ 7 = some 2 ∧ s.register_ 7 = some 2 ∧ ¬s.Lives 0 ∧ 2 < s.next := by
    cases hrun
    decide
  obtain ⟨hconnections, hregister, hgone, hnext⟩ := hfinal
  obtain ⟨ls', -, hrun'⟩ := hlifetimes 2 hnext
  exact ⟨s, hrun, hconnections, hregister, hgone, ls', hrun'⟩

end DescriptorKeys

end XFast
