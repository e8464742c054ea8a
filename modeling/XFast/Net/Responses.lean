import XFast.Net.Server

/-! # Responses reach the requester only

    The only link from a response to the connection of its request is the
    descriptor number, and the number does not tell a connection from a later
    one that got the same number.  Where no number is handed out that some
    request or response on its way still carries, responses reach the
    requester only; and where such a number is handed out, the workers and
    the loop can bring a response to the wrong connection. -/

namespace XFast

open Steps XConnStatus

namespace XServer

/-! ## Section 1: What is to be shown -/

/-- Every response that was appended to a connection was appended to the one
    on which its request had arrived. -/
def ToRequester (s : XServer) : Prop :=
  ∀ r c, (r, some c) ∈ s.sent → c = r.origin

/-- The number that a worker will read from the message. -/
def numberOf (r : Request) : Option Int :=
  match r.buffer.readInt32 with
  | .ok (uid, _) => some uid
  | .error _ => none

/-- The numbers that requests and responses on their way carry, with the
    connection that each of them is meant for. -/
def carried (s : XServer) : List (Int × ConnId) :=
  s.msgQueue_.filterMap (fun r => (numberOf r).map fun uid => (uid, r.origin)) ++
    s.dispatching.map (fun d => (d.uid, d.origin)) ++
    s.mailbox.toRun.map (fun fun_ => (fun_.2.uid, fun_.2.origin))

/-- The number handed out is carried by nothing that is still on its way. -/
def NumberFree (s : XServer) : ServerStep → Prop
  | .acceptNewConnection fd => ∀ p ∈ s.carried, p.1 ≠ fd
  | _ => True

instance (s : XServer) : ∀ l, Decidable (s.NumberFree l)
  | .acceptNewConnection fd => inferInstanceAs (Decidable (∀ p ∈ s.carried, p.1 ≠ fd))
  | .messageComing _ _ _ | .closeConn _ | .destroy _ | .run | .dispatchReturns _
  | .sendResponse _ _ | .process _ => isTrue trivial

/-! ## Section 2: The numbers on their way -/

/-- If the table has a connection under the number, it is the one meant. -/
def Own (s : XServer) (p : Int × ConnId) : Prop :=
  ∀ c, s.connections_ p.1 = some c → c = p.2

/-- The message of a connection carries the connection's own number. -/
theorem numberOf_addMsg {b buffer : XBuffer} {c : ConnId} {x : ConnState} {s : XServer}
    (h : s.Inv) (hconn : s.conns c = some x) (hvalid : b.Valid)
    (hprepend : b.prependInt32 x.sock_ = .ok buffer) :
    numberOf ⟨buffer, c⟩ = some x.sock_ := by
  obtain ⟨hlo, hhi⟩ := h.range c x hconn
  have hroom : 4 ≤ b.discardableBytes := XBuffer.prependInt32_room hprepend
  have hlo : -(2 ^ 31) ≤ x.sock_ := Int.le_trans (by decide) hlo
  obtain ⟨b₁, b₂, hpre, hread, _, _⟩ := XBuffer.readInt32_prependInt32 hvalid hroom hlo hhi
  rw [hprepend] at hpre
  cases hpre
  simp only [numberOf, hread]

/-- The loop puts no number on its way. -/
theorem carried_mailbox {s : XServer} {l : MailboxStep Response} {mailbox : Mailbox Response}
    (hstep : s.mailbox.step l = some mailbox) (hl : ∀ r, l ≠ .scheduleToLoopThread r)
    {p : Int × ConnId} (hp : p ∈ carried { s with mailbox := mailbox }) : p ∈ s.carried := by
  simp only [carried, List.mem_append] at hp ⊢
  rcases hp with hother | hmail
  · exact Or.inl hother
  · obtain ⟨fun_, hmem, rfl⟩ := List.mem_map.mp hmail
    rcases Mailbox.toRun_step hstep hmem with hold | hnew
    · exact Or.inr (List.mem_map_of_mem hold)
    · exact absurd hnew (hl _)

/-- A step puts a number on its way only if it is the socket of the
    connection meant. -/
theorem carried_step {s s' : XServer} {l : ServerStep} (h : s.Inv) (hstep : s.step l = some s')
    {p : Int × ConnId} (hp : p ∈ s'.carried) :
    p ∈ s.carried ∨ ∃ x, s.conns p.2 = some x ∧ x.sock_ = p.1 := by
  cases step_cases hstep with
  | addMsg c payload activeHandlers x b buffer hconn hvalid hprepend =>
    have hnumber := numberOf_addMsg h hconn hvalid hprepend
    simp only [carried, List.filterMap_append, List.filterMap_cons, List.filterMap_nil, hnumber,
      Option.map_some, List.mem_append, List.mem_singleton] at hp ⊢
    rcases hp with ((hqueue | rfl) | hdisp) | hmail
    · exact Or.inl (Or.inl (Or.inl hqueue))
    · exact Or.inr ⟨x, hconn, rfl⟩
    · exact Or.inl (Or.inl (Or.inr hdisp))
    · exact Or.inl (Or.inr hmail)
  | run r rest uid buffer hqueue hread =>
    have hnumber : numberOf r = some uid := by simp only [numberOf, hread]
    left
    simp only [carried, hqueue, List.filterMap_cons, hnumber, Option.map_some, List.map_append,
      List.map_cons, List.map_nil, List.mem_append, List.mem_cons] at hp ⊢
    tauto
  | dispatchReturns i =>
    left
    simp only [carried, List.mem_append] at hp ⊢
    rcases hp with (hqueue | hdisp) | hmail
    · exact Or.inl (Or.inl hqueue)
    · exact Or.inl (Or.inr (((List.eraseIdx_sublist _ _).map _).subset hdisp))
    · exact Or.inr hmail
  | sendResponse i resp d buffer mailbox hd hpost =>
    left
    simp only [carried, List.mem_append] at hp ⊢
    rcases hp with hother | hmail
    · exact Or.inl hother
    · obtain ⟨fun_, hmem, rfl⟩ := List.mem_map.mp hmail
      rcases Mailbox.toRun_step hpost hmem with hold | hnew
      · exact Or.inr (List.mem_map_of_mem hold)
      · obtain ⟨k, r⟩ := fun_
        cases hnew
        exact Or.inl (Or.inr (List.mem_map_of_mem hd))
  | runNext fun_ mailbox hnext hrun =>
    left
    exact carried_mailbox hrun (fun r => by simp) hp
  | process l mailbox hl hrun =>
    left
    exact carried_mailbox hrun hl hp
  -- the other steps leave the queue, the dispatches and the mailbox alone
  | _ => exact Or.inl hp

/-! ## Section 3: Runs -/

/-- What is on its way reaches no other connection, and neither did what has
    been sent. -/
structure Addressed (s : XServer) : Prop where
  inv : s.Inv
  own : ∀ p ∈ s.carried, s.Own p
  sent : s.ToRequester

theorem addressed_initial : initial.Addressed where
  inv := inv_initial
  own _ h := by cases h
  sent _ _ h := by cases h

/-- A connection's own number leads to no other connection. -/
theorem Inv.own_sock {s : XServer} (h : s.Inv) {p : Int × ConnId} {x : ConnState}
    (hconn : s.conns p.2 = some x) (hsock : x.sock_ = p.1) : s.Own p := by
  intro c htable
  obtain ⟨y, hy, hys, _⟩ := h.table p.1 c htable
  exact h.owner c p.2 y x hy hconn (by rw [hys, hsock])

/-- A step that does not hand out the number leads it nowhere new. -/
theorem Own.step {s s' : XServer} {l : ServerStep} (hstep : s.step l = some s')
    {p : Int × ConnId} (h : s.Own p) (hfree : ∀ fd, l = .acceptNewConnection fd → p.1 ≠ fd) :
    s'.Own p := by
  cases step_cases hstep with
  | acceptNewConnection fd _ _ _ =>
    intro c htable
    rw [accept_connections_of_ne s (hfree fd rfl)] at htable
    exact h c htable
  | closeConn c x hconn =>
    intro d htable
    have htable : Function.update s.connections_ x.sock_ none p.1 = some d := htable
    by_cases hp : p.1 = x.sock_
    · rw [hp, Function.update_self] at htable
      cases htable
    · rw [Function.update_of_ne hp] at htable
      exact h d htable
  -- the other steps leave the table alone
  | _ => exact h

/-- The connection that takes a response is in the table under its number. -/
theorem receiver_eq_some {s : XServer} {uid : Int} {c : ConnId} (h : s.receiver uid = some c) :
    s.connections_ uid = some c := by
  unfold receiver at h
  split at h
  · cases h
  · rename_i d htable
    split at h
    · cases h
      exact htable
    · cases h

theorem toRequester_step {s s' : XServer} {l : ServerStep} (h : s.Addressed)
    (hstep : s.step l = some s') : s'.ToRequester := by
  have hsent := h.sent
  cases step_cases hstep with
  | runNext fun_ mailbox hnext _ =>
    intro r c hmem
    rcases List.mem_append.mp hmem with hold | hnew
    · exact hsent r c hold
    · obtain ⟨rfl, hreceiver⟩ := Prod.mk.inj (List.mem_singleton.mp hnew)
      -- the response was in the mailbox, so its number is its own
      have hcarried : (fun_.2.uid, fun_.2.origin) ∈ s.carried := by
        apply List.mem_append_right
        exact List.mem_map_of_mem (f := fun g : Nat × Response => (g.2.uid, g.2.origin))
          (Mailbox.next?_mem_toRun hnext)
      exact h.own _ hcarried c (receiver_eq_some hreceiver.symm)
  -- the other steps send nothing
  | _ => exact hsent

theorem addressed_step (s : XServer) (l : ServerStep) (s' : XServer) (h : s.Addressed)
    (hgood : s.NumberFree l) (hstep : s.step l = some s') : s'.Addressed := by
  refine ⟨inv_step s l s' h.inv hstep, ?_, toRequester_step h hstep⟩
  intro p hp
  have hown : s.Own p := by
    rcases carried_step h.inv hstep hp with hold | ⟨x, hconn, hsock⟩
    · exact h.own p hold
    · exact h.inv.own_sock hconn hsock
  apply hown.step hstep
  intro fd hl hfd
  subst hl
  -- an accept puts no number on its way, so this one was there
  rcases step_cases hstep
  exact hgood p hp hfd

/-! ## Section 4: The condition is exact

    A number handed out while something on its way carries it: the steps of
    the workers and of the loop can bring the response to the new connection. -/

/-- The number leads to a connection that is not the one meant. -/
def Astray (s : XServer) (p : Int × ConnId) : Prop :=
  ∃ c, s.receiver p.1 = some c ∧ c ≠ p.2

/-- Without any accept, a response can reach a connection not meant. -/
def Misdelivers (s : XServer) : Prop :=
  ∃ ls s', (∀ l ∈ ls, ∀ fd, l ≠ .acceptNewConnection fd) ∧ run step s ls = some s' ∧
    ¬ s'.ToRequester

theorem Misdelivers.of_step {s s₁ : XServer} {l : ServerStep} (h : s₁.Misdelivers)
    (hstep : s.step l = some s₁) (hl : ∀ fd, l ≠ .acceptNewConnection fd) : s.Misdelivers := by
  obtain ⟨ls, s', hls, hrun, hwrong⟩ := h
  refine ⟨l :: ls, s', ?_, run_cons_of_step hstep hrun, hwrong⟩
  intro l' hmem
  rcases List.mem_cons.mp hmem with rfl | hrest
  · exact hl
  · exact hls l' hrest

theorem Misdelivers.of_wrong {s : XServer} (h : ¬ s.ToRequester) : s.Misdelivers := by
  refine ⟨[], s, ?_, rfl, h⟩
  intro l hl
  cases hl

theorem step_process_runNext {s : XServer} {pos : Nat} {fun_ : Nat × Response}
    (hphase : s.mailbox.phase = .traversing pos)
    (hfun : s.mailbox.extraEvents_[pos]? = some fun_) :
    s.step (.process .runNext) =
      some ({ s with mailbox := { s.mailbox with
        phase := .traversing (pos + 1), ran := s.mailbox.ran ++ [fun_] } }.doSendResponse
          fun_.2) := by
  obtain ⟨hnext, hstep⟩ := Mailbox.step_runNext hphase hfun
  simp only [step, process, hnext, hstep]

/-- The traversal reaches every functor that it has before it. -/
theorem misdelivers_of_traversing (k : Nat) : ∀ (s : XServer) (pos : Nat) (fun_ : Nat × Response),
    s.mailbox.phase = .traversing pos → s.mailbox.extraEvents_[pos + k]? = some fun_ →
    s.Astray (fun_.2.uid, fun_.2.origin) → s.Misdelivers := by
  induction k with
  | zero =>
    intro s pos fun_ hphase hfun hastray
    obtain ⟨c, hreceiver, hne⟩ := hastray
    apply Misdelivers.of_step _ (step_process_runNext hphase hfun) (fun fd h => by cases h)
    apply Misdelivers.of_wrong
    intro hright
    apply hne
    apply hright fun_.2 c
    apply List.mem_append_right
    rw [List.mem_singleton, ← hreceiver]
    rfl
  | succ k ih =>
    intro s pos fun_ hphase hfun hastray
    have hlt : pos < s.mailbox.extraEvents_.length := by
      have := (List.getElem?_eq_some_iff.mp hfun).1
      omega
    have hrest : s.mailbox.extraEvents_[pos + 1 + k]? = some fun_ := by
      rw [← hfun]
      congr 1
      omega
    apply Misdelivers.of_step _
      (step_process_runNext hphase (List.getElem?_eq_getElem hlt)) (fun fd h => by cases h)
    exact ih _ (pos + 1) fun_ rfl hrest hastray

theorem misdelivers_of_toRun {s : XServer} {fun_ : Nat × Response}
    (hmem : fun_ ∈ s.mailbox.toRun) (hastray : s.Astray (fun_.2.uid, fun_.2.origin)) :
    s.Misdelivers := by
  unfold Mailbox.toRun at hmem
  split at hmem
  · rename_i hphase
    obtain ⟨k, hk⟩ := List.mem_iff_getElem?.mp hmem
    have hmis := misdelivers_of_traversing k
      { s with mailbox := { s.mailbox with phase := .traversing 0 } } 0 fun_ rfl
      (by rw [Nat.zero_add]; exact hk) hastray
    apply hmis.of_step (l := .process .beginDrain)
    · simp only [step, process, Mailbox.step, hphase, Option.map_some]
    · exact fun fd h => by cases h
  · rename_i pos hphase
    obtain ⟨k, hk⟩ := List.mem_iff_getElem?.mp hmem
    rw [List.getElem?_drop] at hk
    exact misdelivers_of_traversing k s pos fun_ hphase hk hastray
  · cases hmem

/-- A dispatch that is asked for a response outside the gap of the mailbox. -/
theorem misdelivers_of_answer {s : XServer} {d : Dispatch} (hd : d ∈ s.dispatching)
    (hmail : s.mailbox.Inv) (hgap : ∀ pos, s.mailbox.phase ≠ .ended pos)
    (hastray : s.Astray (d.uid, d.origin)) : s.Misdelivers := by
  obtain ⟨i, hi⟩ := List.mem_iff_getElem?.mp hd
  let posted : Nat × Response := (s.mailbox.posted.length, ⟨d.uid, [], d.origin⟩)
  let mailbox : Mailbox Response := { s.mailbox with
    extraEvents_ := s.mailbox.extraEvents_ ++ [posted]
    posted := s.mailbox.posted ++ [posted] }
  have hmem : posted ∈ mailbox.toRun := by
    unfold Mailbox.toRun
    have hpos := hmail.pos_le
    split
    · exact List.mem_append_right _ (List.mem_singleton.mpr rfl)
    · rename_i pos hphase
      have hphase : s.mailbox.phase = .traversing pos := hphase
      rw [hphase] at hpos
      have hdrop : mailbox.extraEvents_.drop pos =
          s.mailbox.extraEvents_.drop pos ++ [posted] :=
        List.drop_append_of_le_length hpos
      rw [hdrop]
      exact List.mem_append_right _ (List.mem_singleton.mpr rfl)
    · rename_i pos hphase
      exact absurd hphase (hgap pos)
  have hmis : Misdelivers { s with mailbox := mailbox } := misdelivers_of_toRun hmem hastray
  apply hmis.of_step (l := .sendResponse i (XBuffer.fresh 0))
  · have hread : (XBuffer.fresh 0).readAll = .ok ([], XBuffer.fresh 0) := by decide
    simp only [step, hi, hread]
    rfl
  · exact fun fd h => by cases h

theorem misdelivers_of_dispatching {s : XServer} {d : Dispatch} (hd : d ∈ s.dispatching)
    (hmail : s.mailbox.Inv) (hastray : s.Astray (d.uid, d.origin)) : s.Misdelivers := by
  by_cases hgap : ∀ pos, s.mailbox.phase ≠ .ended pos
  · exact misdelivers_of_answer hd hmail hgap hastray
  · -- wait until the list has been cleared
    rw [not_forall] at hgap
    obtain ⟨pos, hphase⟩ := hgap
    rw [not_not] at hphase
    have hclear : s.mailbox.step .clear =
        some { s.mailbox with extraEvents_ := [], phase := .outside } := by
      simp only [Mailbox.step, hphase]
    have hmis : Misdelivers { s with
        mailbox := { s.mailbox with extraEvents_ := [], phase := .outside } } :=
      misdelivers_of_answer hd (Mailbox.inv_step _ _ _ hmail hclear) (fun _ h => by cases h) hastray
    apply hmis.of_step (l := .process .clear)
    · simp only [step, process, hclear, Option.map_some]
    · exact fun fd h => by cases h

/-- The workers come to every message in the queue. -/
theorem misdelivers_of_queue (k : Nat) : ∀ (s : XServer) (r : Request) (uid : Int),
    s.msgQueue_[k]? = some r → numberOf r = some uid →
    (∀ r' ∈ s.msgQueue_, (numberOf r').isSome) → s.mailbox.Inv → s.Astray (uid, r.origin) →
    s.Misdelivers := by
  have htake : ∀ (s : XServer) (r : Request) (rest : List Request), s.msgQueue_ = r :: rest →
      (numberOf r).isSome → ∃ uid buffer, numberOf r = some uid ∧ s.step .run =
        some { s with
          msgQueue_ := rest
          dispatching := s.dispatching ++ [⟨uid, buffer, r.origin⟩] } := by
    intro s r rest hqueue hsome
    unfold numberOf at hsome ⊢
    split at hsome
    · rename_i uid buffer hread
      refine ⟨uid, buffer, rfl, ?_⟩
      simp only [step, hqueue, hread]
    · cases hsome
  induction k with
  | zero =>
    intro s r uid hk hnumber hall hmail hastray
    cases hqueue : s.msgQueue_ with
    | nil =>
      rw [hqueue] at hk
      cases hk
    | cons r' rest =>
      rw [hqueue] at hk hall
      cases hk
      obtain ⟨uid', buffer, hnumber', hstep⟩ := htake s r rest hqueue (hall r List.mem_cons_self)
      rw [hnumber] at hnumber'
      cases hnumber'
      have hmis := misdelivers_of_dispatching
        (s := { s with
          msgQueue_ := rest
          dispatching := s.dispatching ++ [⟨uid, buffer, r.origin⟩] })
        (List.mem_append_right _ (List.mem_singleton.mpr rfl)) hmail hastray
      exact hmis.of_step hstep fun fd h => by cases h
  | succ k ih =>
    intro s r uid hk hnumber hall hmail hastray
    cases hqueue : s.msgQueue_ with
    | nil =>
      rw [hqueue] at hk
      cases hk
    | cons r' rest =>
      rw [hqueue] at hk hall
      obtain ⟨uid', buffer, _, hstep⟩ := htake s r' rest hqueue (hall r' List.mem_cons_self)
      have hmis := ih { s with
          msgQueue_ := rest
          dispatching := s.dispatching ++ [⟨uid', buffer, r'.origin⟩] } r uid hk hnumber
        (fun r'' hr'' => hall r'' (List.mem_cons_of_mem _ hr'')) hmail hastray
      exact hmis.of_step hstep fun fd h => by cases h

/-- What holds of everything on its way: the connection meant is one that was
    accepted, every message in the queue has a number, and the mailbox is one
    that its steps can reach. -/
structure Live (s : XServer) : Prop where
  known : ∀ p ∈ s.carried, p.2 < s.accepted
  numbered : ∀ r ∈ s.msgQueue_, (numberOf r).isSome
  mailbox : s.mailbox.Inv

theorem live_initial : initial.Live where
  known _ h := by cases h
  numbered _ h := by cases h
  mailbox := Mailbox.inv_initial

theorem accepted_le {s s' : XServer} {l : ServerStep} (hstep : s.step l = some s') :
    s.accepted ≤ s'.accepted := by
  cases step_cases hstep with
  | acceptNewConnection _ _ _ _ => exact Nat.le_succ _
  | _ => exact Nat.le_refl _

theorem numbered_step {s s' : XServer} {l : ServerStep} (hinv : s.Inv)
    (h : ∀ r ∈ s.msgQueue_, (numberOf r).isSome) (hstep : s.step l = some s') :
    ∀ r ∈ s'.msgQueue_, (numberOf r).isSome := by
  cases step_cases hstep with
  | addMsg c payload activeHandlers x b buffer hconn hvalid hprepend =>
    intro r hr
    rcases List.mem_append.mp hr with hold | hnew
    · exact h r hold
    · rw [List.mem_singleton.mp hnew, numberOf_addMsg hinv hconn hvalid hprepend]
      rfl
  | run r rest uid buffer hqueue _ =>
    intro r' hr'
    apply h
    rw [hqueue]
    exact List.mem_cons_of_mem _ hr'
  | _ => exact h

theorem mailbox_step {s s' : XServer} {l : ServerStep} (h : s.mailbox.Inv)
    (hstep : s.step l = some s') : s'.mailbox.Inv := by
  cases step_cases hstep with
  | sendResponse i resp d buffer mailbox _ hpost => exact Mailbox.inv_step _ _ _ h hpost
  | runNext fun_ mailbox _ hrun => exact Mailbox.inv_step _ _ _ h hrun
  | process l mailbox _ hrun => exact Mailbox.inv_step _ _ _ h hrun
  | _ => exact h

theorem live_step (s : XServer) (l : ServerStep) (s' : XServer) (h : s.Inv ∧ s.Live)
    (hstep : s.step l = some s') : s'.Inv ∧ s'.Live := by
  obtain ⟨hinv, hlive⟩ := h
  refine ⟨inv_step s l s' hinv hstep, ?_, numbered_step hinv hlive.numbered hstep,
    mailbox_step hlive.mailbox hstep⟩
  intro p hp
  have hmeant : p.2 < s.accepted := by
    rcases carried_step hinv hstep hp with hold | ⟨x, hconn, _⟩
    · exact hlive.known p hold
    · by_contra hge
      rw [hinv.fresh p.2 (Nat.le_of_not_lt hge)] at hconn
      cases hconn
  exact Nat.lt_of_lt_of_le hmeant (accepted_le hstep)

theorem misdelivers_of_carried {s : XServer} (h : s.Live) {p : Int × ConnId}
    (hp : p ∈ s.carried) (hastray : s.Astray p) : s.Misdelivers := by
  unfold carried at hp
  rw [List.mem_append, List.mem_append] at hp
  rcases hp with (hqueue | hdisp) | hmail
  · obtain ⟨r, hr, hnumber⟩ := List.mem_filterMap.mp hqueue
    obtain ⟨uid, huid, rfl⟩ := Option.map_eq_some_iff.mp hnumber
    obtain ⟨k, hk⟩ := List.mem_iff_getElem?.mp hr
    exact misdelivers_of_queue k s r uid hk huid h.numbered h.mailbox hastray
  · obtain ⟨d, hd, rfl⟩ := List.mem_map.mp hdisp
    exact misdelivers_of_dispatching hd h.mailbox hastray
  · obtain ⟨fun_, hfun, rfl⟩ := List.mem_map.mp hmail
    exact misdelivers_of_toRun hfun hastray

/-- A number that is handed out while something carries it leads astray. -/
theorem misdelivers_of_accept {s s₁ : XServer} (h : s.Live) {fd : Fd}
    (hstep : s.step (.acceptNewConnection fd) = some s₁) {p : Int × ConnId}
    (hp : p ∈ s.carried) (hfd : p.1 = fd) : s₁.Misdelivers := by
  rcases step_cases hstep with ⟨_, hlo, hhi, hfree⟩
  have hlive : (s.acceptNewConnection fd).Live :=
    ⟨fun q hq => Nat.lt_succ_of_lt (h.known q hq), h.numbered, h.mailbox⟩
  apply misdelivers_of_carried hlive (p := p) hp
  refine ⟨s.accepted, ?_, Nat.ne_of_gt (h.known p hp)⟩
  simp only [receiver, hfd, accept_connections_self, accept_conns_self, Option.map_some, if_true]

theorem misleads_of_not_numberFree {s s₁ : XServer} {l : ServerStep} (h : s.Live)
    (hstep : s.step l = some s₁) (hbad : ¬ s.NumberFree l) :
    Reaches step NumberFree (¬ ·.ToRequester) s₁ := by
  cases l with
  | acceptNewConnection fd =>
    have hbad : ¬ ∀ p ∈ s.carried, p.1 ≠ fd := hbad
    simp only [Classical.not_forall, ne_eq, not_not] at hbad
    obtain ⟨p, hp, hfd⟩ := hbad
    obtain ⟨ls', s', hls, hrun', hwrong⟩ := misdelivers_of_accept h hstep hp hfd
    refine ⟨ls', s', ?_, hrun', hwrong⟩
    apply allSteps_of_forall
    intro l hl t
    -- without an accept there is no condition
    cases l with
    | acceptNewConnection fd' => exact absurd rfl (hls _ hl fd')
    | _ => trivial
  | _ => exact absurd trivial hbad

/-- **Responses.**  In every run in which no accepted connection gets a number
    that a message or a response on its way carries, each response that is
    appended to a connection is appended to the one on which its request had
    arrived.  Of the accepts that are possible then, exactly those whose
    number is free can never lead to anything else. -/
theorem sent_to_requester (ls : List ServerStep) (s : XServer)
    (hgood : AllSteps step NumberFree initial ls) (hrun : run step initial ls = some s) :
    s.ToRequester ∧ ∀ fd s₁, s.step (.acceptNewConnection fd) = some s₁ →
      (s.NumberFree (.acceptNewConnection fd) ↔
        ∀ ls' s', AllSteps step NumberFree s₁ ls' → run step s₁ ls' = some s' →
          s'.ToRequester) := by
  have hkeep : ∀ (s : XServer) l s', s.Addressed ∧ s.Inv ∧ s.Live → s.NumberFree l →
      s.step l = some s' → s'.Addressed ∧ s'.Inv ∧ s'.Live := fun s l s' h hfree hstep =>
    ⟨addressed_step s l s' h.1 hfree hstep, live_step s l s' h.2 hstep⟩
  have hexact := keeps_and_exact ⟨addressed_initial, inv_initial, live_initial⟩ hkeep
    (fun _ h => h.1.sent) (fun s l s₁ h hstep hbad => misleads_of_not_numberFree h.2.2 hstep hbad)
    hgood hrun
  exact ⟨hexact.1, fun fd s₁ hstep => hexact.2 _ s₁ hstep⟩

/-- Two connections with numbers of their own: the response to the first one's
    message goes to the first one. -/
theorem sent_to_requester_two : ∃ s,
    run step initial [.acceptNewConnection 5, .messageComing 0 [7] 1, .acceptNewConnection 6,
      .run, .sendResponse 0 (XBuffer.fresh 0), .process .beginDrain, .process .runNext] = some s ∧
    s.sent = [(⟨5, [], 0⟩, some 0)] ∧ s.ToRequester := by
  obtain ⟨s, hs⟩ := Option.isSome_iff_exists.mp (show (run step initial
    [.acceptNewConnection 5, .messageComing 0 [7] 1, .acceptNewConnection 6, .run,
      .sendResponse 0 (XBuffer.fresh 0), .process .beginDrain, .process .runNext]).isSome by
    decide +kernel)
  have hsent : (run step initial
      [.acceptNewConnection 5, .messageComing 0 [7] 1, .acceptNewConnection 6, .run,
        .sendResponse 0 (XBuffer.fresh 0), .process .beginDrain, .process .runNext]).map sent =
      some [(⟨5, [], 0⟩, some 0)] := by decide +kernel
  rw [hs] at hsent
  exact ⟨s, hs, Option.some.inj hsent, (sent_to_requester _ s (by decide +kernel) hs).1⟩

/-- The first connection closes before its message is answered, and the next
    one gets its number: the next one gets the response, too. -/
theorem sent_to_successor : ∃ s,
    run step initial [.acceptNewConnection 5, .messageComing 0 [7] 1, .closeConn 0, .destroy 0,
      .acceptNewConnection 5, .run, .sendResponse 0 (XBuffer.fresh 0), .process .beginDrain,
      .process .runNext] = some s ∧
    s.sent = [(⟨5, [], 0⟩, some 1)] ∧ ¬ s.ToRequester := by
  obtain ⟨s, hs⟩ := Option.isSome_iff_exists.mp (show (run step initial
    [.acceptNewConnection 5, .messageComing 0 [7] 1, .closeConn 0, .destroy 0,
      .acceptNewConnection 5, .run, .sendResponse 0 (XBuffer.fresh 0), .process .beginDrain,
      .process .runNext]).isSome by decide +kernel)
  have hsent : (run step initial
      [.acceptNewConnection 5, .messageComing 0 [7] 1, .closeConn 0, .destroy 0,
        .acceptNewConnection 5, .run, .sendResponse 0 (XBuffer.fresh 0), .process .beginDrain,
        .process .runNext]).map sent = some [(⟨5, [], 0⟩, some 1)] := by decide +kernel
  rw [hs] at hsent
  have hsent := Option.some.inj hsent
  refine ⟨s, hs, hsent, ?_⟩
  intro hright
  have h := hright ⟨5, [], 0⟩ 1 (by rw [hsent]; exact List.mem_singleton.mpr rfl)
  cases h

end XServer

end XFast
