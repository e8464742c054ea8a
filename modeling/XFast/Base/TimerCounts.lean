import XFast.Base.TimerLoop

/-! # How often and when timers fire

    The remaining count of a timer and its expiration are a summary of the
    history of its callbacks: a counted timer has run as often as its count
    has gone down, and its expiration is at least its creation time plus its
    interval times the number of callbacks still to come before it included.
    The catch-up rule of `nextRepeat` only moves an expiration to a later time,
    as the clock does not go back between the two reads.

    The runs here have no cancellations; `TimerIds` is about those. -/

namespace XFast

open Steps

/-! ## Section 1: The next expiration -/

/-- `nextRepeat` counts down, unless the timer is endless, and moves the
    expiration by at least the interval. -/
theorem XTimer.nextRepeat_spec {clock : Nat → Int} (hmono : ∀ m n, m ≤ n → clock m ≤ clock n)
    {tick tick' : Nat} {t t' : XTimer} (hinterval : 0 ≤ t.interval_)
    (h : t.nextRepeat clock tick = .ok (t', tick')) :
    t'.timerSerial_ = t.timerSerial_ ∧ t'.interval_ = t.interval_ ∧
      t'.repeat_ = (if t.repeat_ > 0 then t.repeat_ - 1 else t.repeat_) ∧
      t.expiration_ + t.interval_ ≤ t'.expiration_ := by
  unfold XTimer.nextRepeat at h
  obtain ⟨_, _, h⟩ := bind_eq_ok h
  have hclock := hmono tick (tick + 1) (Nat.le_succ tick)
  dsimp only at h
  split at h
  · -- late by more than an interval: the second read of the clock decides
    cases h
    refine ⟨rfl, rfl, rfl, ?_⟩
    dsimp only
    omega
  · cases h
    exact ⟨rfl, rfl, rfl, Int.le_refl _⟩

namespace TimerKind

theorem construct_repeat (now serial : Int) (kind : TimerKind) :
    (kind.construct now serial).repeat_ = kind.count.getD (-1) := by
  cases kind <;> rfl

theorem construct_expiration (now serial : Int) (kind : TimerKind) :
    (kind.construct now serial).expiration_ = now + kind.interval := by
  cases kind <;> rfl

/-- A timer of `runAfter` has no use for its interval. -/
theorem construct_interval (now serial : Int) (kind : TimerKind) :
    (kind.construct now serial).interval_ = kind.interval ∨
      kind.count = some 1 ∧ (kind.construct now serial).interval_ = 0 := by
  cases kind with
  | runAfter interval => exact Or.inr ⟨rfl, rfl⟩
  | runEvery interval => exact Or.inl rfl
  | runRepeat repeat_ interval => exact Or.inl rfl

theorem count_pos {kind : TimerKind} (h : kind.Asserted) {n : Int} (hn : kind.count = some n) :
    0 < n := by
  cases kind with
  | runAfter interval =>
    cases hn
    decide
  | runEvery interval => cases hn
  | runRepeat repeat_ interval =>
    cases hn
    exact h

end TimerKind

/-! ## Section 2: What is to be shown -/

namespace TimerLoop

/-- The callbacks of a timer so far. -/
def firings (s : TimerLoop) (serial : Int) : List Firing :=
  s.fired.filter fun f => f.serial = serial

/-- The callbacks of a timer that have returned. -/
def returned (s : TimerLoop) (serial : Int) : Int :=
  (s.firings serial).length - if s.phase.runs serial then 1 else 0

/-- A timer fires as often as it was created for, and not early. -/
structure FiresAsTold (s : TimerLoop) (c : Created) : Prop where
  /-- Before it is added it has not fired. -/
  bound : c.serial ∈ s.bound.map TimerObj.serial → s.firings c.serial = []
  /-- Once added it is in the set, unless the callback that was its last one
      has returned. -/
  queued : c.serial ∉ s.bound.map TimerObj.serial →
    (c.serial ∈ s.timers_.map TimerObj.serial ↔
      ∀ n, c.kind.count = some n → s.returned c.serial < n)
  /-- While it is in the set, the remaining count says how often it has fired. -/
  counted : ∀ o ∈ s.timers_, o.serial = c.serial →
    match c.kind.count with
    | some n => s.returned c.serial = n - o.timer.repeat_
    | none => o.timer.repeat_ = -1
  /-- It does not fire more often than told. -/
  atMost : ∀ n, c.kind.count = some n → (s.firings c.serial).length ≤ n
  /-- The callback with index `k`, from zero, is in a pass that is late enough. -/
  notEarly : ∀ (k : Nat) (f : Firing), (s.firings c.serial)[k]? = some f →
    c.t0 + (k + 1) * c.kind.interval ≤ f.timeNow

end TimerLoop

/-- A timer is created with an interval that is not negative, and none is
    cancelled. -/
def TimerLabel.Plain : TimerLabel → Prop
  | .create kind _ _ => 0 ≤ kind.interval
  | .AddTimer _ _ | .triggerTimer | .callbackReturns => True
  | .RemoveTime _ _ => False

instance (l : TimerLabel) : Decidable l.Plain :=
  match l with
  | .create kind _ _ => inferInstanceAs (Decidable (0 ≤ kind.interval))
  | .AddTimer _ _ | .triggerTimer | .callbackReturns => isTrue trivial
  | .RemoveTime _ _ => isFalse id

/-! ## Section 3: The invariant -/

/-- How a timer in the set stands that was created by `c` and whose callback
    has returned `done` times. -/
structure Stands (c : Created) (done : Int) (t : XTimer) : Prop where
  counted : ∀ n, c.kind.count = some n → 1 ≤ t.repeat_ ∧ done = n - t.repeat_
  endless : c.kind.count = none → t.repeat_ = -1
  interval : t.interval_ = c.kind.interval ∨ c.kind.count = some 1 ∧ t.interval_ = 0
  expires : c.t0 + (done + 1) * c.kind.interval ≤ t.expiration_

/-- A timer with a next time: one more callback has returned. -/
theorem Stands.next {c : Created} {done : Int} {t t' : XTimer} {clock : Nat → Int}
    {tick tick' : Nat} (hmono : ∀ m n, m ≤ n → clock m ≤ clock n) (hc : 0 ≤ c.kind.interval)
    (h : Stands c done t) (hdone : 0 ≤ done) (hnext : t.hasNextTime = true)
    (hrepeat : t.nextRepeat clock tick = .ok (t', tick')) : Stands c (done + 1) t' := by
  simp only [XTimer.hasNextTime, Bool.or_eq_true, decide_eq_true_eq] at hnext
  have hinterval : t.interval_ = c.kind.interval := by
    rcases h.interval with heq | ⟨hone, _⟩
    · exact heq
    · -- a timer that runs once has no next time
      have hcounted := h.counted 1 hone
      omega
  obtain ⟨_, hsame, hcount, hexpires⟩ :=
    XTimer.nextRepeat_spec hmono (by rw [hinterval]; exact hc) hrepeat
  refine ⟨?_, ?_, Or.inl (hsame.trans hinterval), ?_⟩
  · intro n hn
    have hcounted := h.counted n hn
    rw [hcount, if_pos (by omega)]
    omega
  · intro hn
    have hendless := h.endless hn
    rw [hcount, if_neg (by omega)]
    exact hendless
  · have hold := h.expires
    have hsum : (done + 1 + 1) * c.kind.interval =
        (done + 1) * c.kind.interval + c.kind.interval := by
      rw [Int.add_mul (done + 1), Int.one_mul]
    rw [hsum]
    omega

namespace TimerLoop

/-- What is known of a timer that was created. -/
structure Known (s : TimerLoop) (c : Created) : Prop where
  interval : 0 ≤ c.kind.interval
  asserted : c.kind.Asserted
  bound : ∀ o ∈ s.bound, o.serial = c.serial →
    s.firings c.serial = [] ∧ o.timer = c.kind.construct c.t0 c.serial
  queued : ∀ o ∈ s.timers_, o.serial = c.serial → Stands c (s.returned c.serial) o.timer
  finished : c.serial ∉ s.live.map TimerObj.serial →
    c.kind.count = some (s.firings c.serial).length
  notEarly : ∀ (k : Nat) (f : Firing), (s.firings c.serial)[k]? = some f →
    c.t0 + (k + 1) * c.kind.interval ≤ f.timeNow

/-- No callback of the timer has run in the present pass. -/
def Quiet (s : TimerLoop) (o : TimerObj) : Prop :=
  ∀ f ∈ s.fired, f.serial = o.serial → f.pass ≠ s.passes

/-- The invariant of a run without cancellations. -/
structure Counting (s : TimerLoop) : Prop extends Objects s where
  running : s.halted = none
  known : ∀ c ∈ s.created, s.Known c
  recordedFirings : ∀ f ∈ s.fired, f.serial ∈ s.created.map Created.serial
  passed : ∀ f ∈ s.fired, f.pass ≤ s.passes
  oncePerPass : (s.fired.map fun f => (f.serial, f.pass)).Nodup
  /-- The iterator points to a timer of the set that has fired in this pass,
      and those behind it have not. -/
  iterator : ∀ timeNow it, s.phase = .calling timeNow it →
    it ∈ s.timers_.map TimerObj.serial ∧ ⟨it, timeNow, s.passes⟩ ∈ s.fired ∧
      s.timers_.Pairwise fun a b => a.serial = it → s.Quiet b

/-- A timer for which nothing has changed. -/
structure SameFor (serial : Int) (s s' : TimerLoop) : Prop where
  firings : s'.firings serial = s.firings serial
  runs : s'.phase.runs serial = s.phase.runs serial
  bound : ∀ o, o.serial = serial → (o ∈ s'.bound ↔ o ∈ s.bound)
  timers_ : ∀ o, o.serial = serial → (o ∈ s'.timers_ ↔ o ∈ s.timers_)

theorem SameFor.returned {serial : Int} {s s' : TimerLoop} (h : SameFor serial s s') :
    s'.returned serial = s.returned serial := by
  rw [TimerLoop.returned, TimerLoop.returned, h.firings, h.runs]

theorem Known.congr {s s' : TimerLoop} {c : Created} (h : s.Known c)
    (hsame : SameFor c.serial s s') : s'.Known c where
  interval := h.interval
  asserted := h.asserted
  bound := by
    intro o ho hserial
    rw [hsame.firings]
    exact h.bound o ((hsame.bound o hserial).mp ho) hserial
  queued := by
    intro o ho hserial
    rw [hsame.returned]
    exact h.queued o ((hsame.timers_ o hserial).mp ho) hserial
  finished := by
    intro hgone
    rw [hsame.firings]
    apply h.finished
    intro hmem
    obtain ⟨o, ho, hserial⟩ := List.mem_map.mp hmem
    apply hgone
    rw [← hserial]
    apply List.mem_map_of_mem
    rcases List.mem_append.mp ho with htimers | hbound
    · exact List.mem_append_left _ ((hsame.timers_ o hserial).mpr htimers)
    · exact List.mem_append_right _ ((hsame.bound o hserial).mpr hbound)
  notEarly := by
    intro k f hf
    rw [hsame.firings] at hf
    exact h.notEarly k f hf

/-! ## Section 4: Timers are created and added -/

theorem Counting.not_mem_fired {s : TimerLoop} (h : s.Counting) {serial : Int}
    (hserial : serial ∉ s.created.map Created.serial) : s.firings serial = [] := by
  rw [firings, List.filter_eq_nil_iff]
  intro f hf hsame
  apply hserial
  rw [← of_decide_eq_true hsame]
  exact h.recordedFirings f hf

theorem Objects.mem_created {s : TimerLoop} (h : s.Objects) {o : TimerObj} (ho : o ∈ s.live) :
    o.serial ∈ s.created.map Created.serial := by
  obtain ⟨c, hc, hserial, _⟩ := h.recorded o ho
  rw [← hserial]
  exact List.mem_map_of_mem hc

/-- The timer whose callback is running is in the set. -/
theorem Counting.mem_of_runs {s : TimerLoop} (h : s.Counting) {serial : Int}
    (hruns : s.phase.runs serial = true) : serial ∈ s.timers_.map TimerObj.serial := by
  cases hphase : s.phase with
  | idle =>
    rw [hphase, TimerPhase.runs_idle] at hruns
    cases hruns
  | calling timeNow it =>
    rw [hphase, TimerPhase.runs_calling, decide_eq_true_eq] at hruns
    rw [← hruns]
    exact (h.iterator timeNow it hphase).1

theorem Counting.create {s : TimerLoop} (h : s.Counting) (clock : Nat → Int) {kind : TimerKind}
    {serial : Int} {address : Nat} (hinterval : 0 ≤ kind.interval) (hasserted : kind.Asserted)
    (hserial : serial ∉ s.created.map Created.serial)
    (haddress : address ∉ s.live.map TimerObj.address) :
    (s.create clock kind serial address).Counting := by
  have hconstruct : TimerObj.serial ⟨address, kind.construct (clock s.tick) serial⟩ = serial :=
    kind.construct_serial _ _
  have hnone : s.firings serial = [] := h.not_mem_fired hserial
  have hnew : ∀ o ∈ s.live, o.serial ≠ serial := fun o ho heq =>
    hserial (heq ▸ h.mem_created ho)
  refine ⟨h.toObjects.create clock kind hserial haddress, h.running, ?_, ?_, h.passed,
    h.oncePerPass, h.iterator⟩
  · intro c hc
    rcases List.mem_append.mp hc with hold | hlast
    · apply (h.known c hold).congr
      refine ⟨rfl, rfl, ?_, fun _ _ => Iff.rfl⟩
      intro o ho
      have hne : o ≠ ⟨address, kind.construct (clock s.tick) serial⟩ := by
        intro heq
        rw [heq, hconstruct] at ho
        exact hserial (ho ▸ List.mem_map_of_mem hold)
      simp only [TimerLoop.create, List.mem_append, List.mem_singleton, hne, or_false]
    · rw [List.mem_singleton] at hlast
      subst hlast
      refine ⟨hinterval, hasserted, ?_, ?_, ?_, ?_⟩
      · intro o ho hsame
        rcases List.mem_append.mp ho with hold | hlast
        · exact absurd hsame (hnew o (List.mem_append_right _ hold))
        · rw [List.mem_singleton] at hlast
          rw [hlast]
          exact ⟨hnone, rfl⟩
      · intro o ho hsame
        exact absurd hsame (hnew o (List.mem_append_left _ ho))
      · intro hgone
        refine absurd (List.mem_map.mpr ⟨_, ?_, hconstruct⟩) hgone
        exact List.mem_append_right _ (List.mem_append_right _ (List.mem_singleton.mpr rfl))
      · intro k f hf
        have hempty : (s.create clock kind serial address).firings serial = [] := hnone
        rw [hempty] at hf
        cases hf
  · intro f hf
    show f.serial ∈ (s.created ++ [_]).map Created.serial
    rw [List.map_append]
    exact List.mem_append_left _ (h.recordedFirings f hf)

/-- A timer that is added has not fired, and is as it was constructed. -/
theorem Known.stands_constructed {s : TimerLoop} {c : Created} (h : s.Known c) {o : TimerObj}
    (hbound : o ∈ s.bound) (hserial : o.serial = c.serial) : Stands c 0 o.timer := by
  obtain ⟨_, htimer⟩ := h.bound o hbound hserial
  rw [htimer]
  refine ⟨?_, ?_, TimerKind.construct_interval _ _ _, ?_⟩
  · intro n hn
    have hpos := TimerKind.count_pos h.asserted hn
    rw [TimerKind.construct_repeat, hn, Option.getD_some]
    omega
  · intro hn
    rw [TimerKind.construct_repeat, hn, Option.getD_none]
  · rw [TimerKind.construct_expiration]
    omega

theorem Counting.not_runs_of_bound {s : TimerLoop} (h : s.Counting) {o : TimerObj}
    (hbound : o ∈ s.bound) : s.phase.runs o.serial = false := by
  apply Bool.eq_false_iff.mpr
  intro hruns
  obtain ⟨a, ha, hserial⟩ := List.mem_map.mp (h.mem_of_runs hruns)
  exact h.ne_of_bound ha hbound hserial

theorem Counting.quiet_of_bound {s : TimerLoop} (h : s.Counting) {o : TimerObj}
    (hbound : o ∈ s.bound) : s.Quiet o := by
  intro f hf hserial
  obtain ⟨c, hc, hsame, _⟩ := h.recorded o (List.mem_append_right _ hbound)
  have hnone := ((h.known c hc).bound o hbound hsame.symm).1
  rw [firings, List.filter_eq_nil_iff] at hnone
  exact absurd (decide_eq_true (hserial.trans hsame.symm)) (hnone f hf)

/-- The timer itself: bound before, in the set now. -/
theorem Counting.known_added {s : TimerLoop} (h : s.Counting) {o : TimerObj}
    {shape : BinaryTree TimerObj} (hbound : o ∈ s.bound)
    (hshape : SearchTree.keys shape = s.timers_) {c : Created} (hknown : s.Known c)
    (hserial : o.serial = c.serial) : (s.AddTimer o shape).Known c := by
  have hmem := h.mem_AddTimer hbound hshape
  have hreturned : (s.AddTimer o shape).returned c.serial = 0 := by
    show ((s.firings c.serial).length : Int) - (if s.phase.runs c.serial then 1 else 0) = 0
    rw [(hknown.bound o hbound hserial).1, ← hserial, h.not_runs_of_bound hbound]
    rfl
  refine ⟨hknown.interval, hknown.asserted, ?_, ?_, ?_, hknown.notEarly⟩
  · intro a ha hsame
    have hnodup : s.bound.Nodup := (List.nodup_append.mp h.serials.of_map).2.1
    have heq : a = o := h.eq_of_serial (List.mem_append_right _ (List.mem_of_mem_erase ha))
      (List.mem_append_right _ hbound) (hsame.trans hserial.symm)
    rw [heq] at ha
    exact absurd ha hnodup.not_mem_erase
  · intro a ha hsame
    have heq : a = o := by
      rcases (hmem a).mp ha with heq | hold
      · exact heq
      · exact absurd (hsame.trans hserial.symm) (h.ne_of_bound hold hbound)
    rw [hreturned, heq]
    exact hknown.stands_constructed hbound hserial
  · intro hgone
    refine absurd ?_ hgone
    rw [← hserial]
    exact List.mem_map_of_mem (List.mem_append_left _ ((hmem o).mpr (Or.inl rfl)))

theorem Counting.AddTimer {s : TimerLoop} (h : s.Counting) {o : TimerObj}
    {shape : BinaryTree TimerObj} (hbound : o ∈ s.bound)
    (hshape : SearchTree.keys shape = s.timers_) : (s.AddTimer o shape).Counting := by
  refine ⟨h.toObjects.AddTimer hbound hshape, h.running, ?_, h.recordedFirings, h.passed,
    h.oncePerPass, ?_⟩
  · intro c hc
    by_cases hserial : o.serial = c.serial
    · exact h.known_added hbound hshape (h.known c hc) hserial
    · apply (h.known c hc).congr
      refine ⟨rfl, rfl, ?_, ?_⟩
      · intro a hsame
        have hne : a ≠ o := fun heq => hserial (heq ▸ hsame)
        exact List.mem_erase_of_ne hne
      · intro a hsame
        have hne : a ≠ o := fun heq => hserial (heq ▸ hsame)
        rw [h.mem_AddTimer hbound hshape]
        exact or_iff_right hne
  · intro timeNow it hphase
    obtain ⟨hmem, hfired, hpairwise⟩ := h.iterator timeNow it hphase
    have hne : o.serial ≠ it := by
      have hruns := h.not_runs_of_bound hbound
      rw [show s.phase = .calling timeNow it from hphase, TimerPhase.runs_calling,
        decide_eq_false_iff_not] at hruns
      exact fun heq => hruns heq.symm
    have hquiet := h.quiet_of_bound hbound
    -- wherever the set puts it
    obtain ⟨before, after, hold, hnew⟩ := h.insert_eq hbound hshape
    rw [hold] at hmem hpairwise
    rw [hnew]
    refine ⟨?_, hfired, ?_⟩
    · simp only [List.map_append, List.map_cons, List.mem_append, List.mem_cons] at hmem ⊢
      tauto
    · simp only [List.pairwise_append, List.pairwise_cons, List.forall_mem_cons] at hpairwise ⊢
      obtain ⟨hbefore, hafter, hboth⟩ := hpairwise
      exact ⟨hbefore, ⟨fun _ _ heq => absurd heq hne, hafter⟩,
        fun a ha => ⟨fun _ => hquiet, hboth a ha⟩⟩

/-! ## Section 5: Callbacks -/

theorem firings_snoc (s : TimerLoop) (phase : TimerPhase) (f : Firing) (serial : Int) :
    firings { s with phase := phase, fired := s.fired ++ [f] } serial =
      if f.serial = serial then s.firings serial ++ [f] else s.firings serial := by
  simp only [firings, List.filter_append, List.filter_cons, List.filter_nil]
  by_cases hserial : f.serial = serial
  · simp [hserial]
  · simp [hserial]

/-- The other timers of the set have other serials. -/
theorem Objects.serial_ne_of_split {s : TimerLoop} (h : s.Objects) {front rest : List TimerObj}
    {o : TimerObj} (htimers : s.timers_ = front ++ o :: rest) :
    ∀ a ∈ front ++ rest, a.serial ≠ o.serial := by
  have hnodup := h.serials
  rw [live, List.map_append] at hnodup
  have hserials := (List.nodup_append.mp hnodup).1
  rw [htimers, List.map_append, List.map_cons, List.nodup_middle, List.nodup_cons,
    ← List.map_append] at hserials
  intro a ha heq
  exact hserials.1 (heq ▸ List.mem_map_of_mem ha)

/-- The callback of a timer that is due starts. -/
theorem Known.fires {s : TimerLoop} {c : Created} (hknown : s.Known c) (h : s.Counting)
    (hidle : s.phase = .idle) {o : TimerObj} (ho : o ∈ s.timers_) (hserial : o.serial = c.serial)
    {timeNow : Int} (hdue : o.timer.expiration_ ≤ timeNow) :
    Known { s with
      phase := .calling timeNow o.serial
      fired := s.fired ++ [⟨o.serial, timeNow, s.passes⟩] } c := by
  have hfirings : firings { s with
      phase := .calling timeNow o.serial
      fired := s.fired ++ [⟨o.serial, timeNow, s.passes⟩] } c.serial =
        s.firings c.serial ++ [⟨o.serial, timeNow, s.passes⟩] := by
    rw [firings_snoc, if_pos hserial]
  have hold : s.returned c.serial = (s.firings c.serial).length := by
    rw [returned, hidle, TimerPhase.runs_idle]
    simp
  have hreturned : returned { s with
      phase := .calling timeNow o.serial
      fired := s.fired ++ [⟨o.serial, timeNow, s.passes⟩] } c.serial = s.returned c.serial := by
    rw [hold, returned, hfirings, TimerPhase.runs_calling, decide_eq_true hserial,
      List.length_append, List.length_singleton]
    simp
  refine ⟨hknown.interval, hknown.asserted, ?_, ?_, ?_, ?_⟩
  · intro a ha hsame
    exact absurd (hserial.trans hsame.symm) (h.ne_of_bound ho ha)
  · intro a ha hsame
    rw [hreturned]
    exact hknown.queued a ha hsame
  · intro hgone
    refine absurd ?_ hgone
    rw [← hserial]
    exact List.mem_map_of_mem (List.mem_append_left _ ho)
  · intro k f hf
    rw [hfirings] at hf
    by_cases hk : k < (s.firings c.serial).length
    · rw [List.getElem?_append_left hk] at hf
      exact hknown.notEarly k f hf
    · -- the new one, at the time that the expiration allows
      rw [List.getElem?_append_right (Nat.le_of_not_lt hk), List.getElem?_singleton] at hf
      split at hf
      · rename_i hlast
        cases hf
        have hexpires := (hknown.queued o ho hserial).expires
        have hk' : (k : Int) = (s.firings c.serial).length := by omega
        rw [hold, ← hk'] at hexpires
        exact Int.le_trans hexpires hdue
      · cases hf

/-- Behind the timer whose callback starts, none has fired in this pass. -/
theorem Counting.pairwise_calls {s : TimerLoop} (h : s.Counting) {front rest : List TimerObj}
    {o : TimerObj} (htimers : s.timers_ = front ++ o :: rest) (hquiet : ∀ b ∈ rest, s.Quiet b)
    (timeNow : Int) : s.timers_.Pairwise fun a b => a.serial = o.serial →
      Quiet { s with
        phase := .calling timeNow o.serial
        fired := s.fired ++ [⟨o.serial, timeNow, s.passes⟩] } b := by
  have hne := h.serial_ne_of_split htimers
  have hother : ∀ a ∈ front ++ rest, ∀ b, a.serial = o.serial →
      Quiet { s with
        phase := .calling timeNow o.serial
        fired := s.fired ++ [⟨o.serial, timeNow, s.passes⟩] } b :=
    fun a ha _ hserial => absurd hserial (hne a ha)
  rw [htimers]
  refine List.pairwise_append.mpr ⟨?_, List.pairwise_cons.mpr ⟨?_, ?_⟩, ?_⟩
  · exact List.pairwise_of_forall_mem_list fun a ha b _ => hother a (List.mem_append_left _ ha) b
  · intro b hb _ f hf hserial
    rcases List.mem_append.mp hf with hold | hnew
    · exact hquiet b hb f hold hserial
    · rw [List.mem_singleton.mp hnew] at hserial
      exact absurd hserial.symm (hne b (List.mem_append_right _ hb))
  · exact List.pairwise_of_forall_mem_list fun a ha b _ => hother a (List.mem_append_right _ ha) b
  · exact fun a ha b _ => hother a (List.mem_append_left _ ha) b

/-- The timer that the iterator points to has not fired in this pass, and starts
    its callback. -/
theorem Counting.calls {s : TimerLoop} (h : s.Counting) (hidle : s.phase = .idle)
    {front rest : List TimerObj} {o : TimerObj} (htimers : s.timers_ = front ++ o :: rest)
    (hquiet : ∀ a ∈ o :: rest, s.Quiet a) {timeNow : Int} (hdue : o.timer.expiration_ ≤ timeNow) :
    Counting { s with
      phase := .calling timeNow o.serial
      fired := s.fired ++ [⟨o.serial, timeNow, s.passes⟩] } := by
  have ho : o ∈ s.timers_ := by
    rw [htimers]
    exact List.mem_append_right _ List.mem_cons_self
  refine ⟨⟨h.serials, h.addresses, h.created, h.recorded⟩, h.running, ?_, ?_, ?_, ?_, ?_⟩
  · intro c hc
    have hknown := h.known c hc
    by_cases hserial : o.serial = c.serial
    · exact hknown.fires h hidle ho hserial hdue
    · apply hknown.congr
      refine ⟨?_, ?_, fun _ _ => Iff.rfl, fun _ _ => Iff.rfl⟩
      · rw [firings_snoc, if_neg hserial]
      · rw [hidle, TimerPhase.runs_idle, TimerPhase.runs_calling, decide_eq_false hserial]
  · intro f hf
    rcases List.mem_append.mp hf with hold | hnew
    · exact h.recordedFirings f hold
    · rw [List.mem_singleton.mp hnew]
      exact h.mem_created (List.mem_append_left _ ho)
  · intro f hf
    rcases List.mem_append.mp hf with hold | hnew
    · exact h.passed f hold
    · rw [List.mem_singleton.mp hnew]
  · rw [List.map_append, List.map_singleton]
    refine List.nodup_append_comm.mp (List.nodup_cons.mpr ⟨?_, h.oncePerPass⟩)
    intro hmem
    obtain ⟨f, hf, heq⟩ := List.mem_map.mp hmem
    have hboth := Prod.ext_iff.mp heq
    exact hquiet o List.mem_cons_self f hf hboth.1 hboth.2
  · intro timeNow' it hphase
    cases hphase
    exact ⟨List.mem_map_of_mem ho, List.mem_append_right _ (List.mem_singleton.mpr rfl),
      h.pairwise_calls htimers (fun b hb => hquiet b (List.mem_cons_of_mem _ hb)) timeNow⟩

/-- The head of the loop, with the timers that the iterator has not reached. -/
theorem Counting.advance {s : TimerLoop} (h : s.Counting) (hidle : s.phase = .idle)
    {front rest : List TimerObj} (htimers : s.timers_ = front ++ rest)
    (hquiet : ∀ o ∈ rest, s.Quiet o) (timeNow : Int) :
    (TimerLoop.advance s timeNow rest).Counting := by
  have hsame : ({ s with phase := .idle } : TimerLoop) = s := by
    rw [← hidle]
  unfold TimerLoop.advance
  split
  · rw [hsame]
    exact h
  · split
    · rw [hsame]
      exact h
    · rename_i hdue
      exact h.calls hidle htimers hquiet (Int.not_lt.mp hdue)

/-- Nothing depends on the phase that is left. -/
theorem advance_idle (s : TimerLoop) (timeNow : Int) (rest : List TimerObj) :
    TimerLoop.advance s timeNow rest = TimerLoop.advance { s with phase := .idle } timeNow rest := by
  unfold TimerLoop.advance
  split
  · rfl
  · split <;> rfl

section returns

variable {s : TimerLoop} {timeNow : Int} {front rest : List TimerObj} {o : TimerObj}

theorem Counting.quiet_behind (h : s.Counting) (hphase : s.phase = .calling timeNow o.serial)
    (htimers : s.timers_ = front ++ o :: rest) : ∀ b ∈ rest, s.Quiet b := by
  obtain ⟨_, _, hpairwise⟩ := h.iterator timeNow o.serial hphase
  rw [htimers] at hpairwise
  obtain ⟨_, hbehind, _⟩ := List.pairwise_append.mp hpairwise
  exact fun b hb => (List.pairwise_cons.mp hbehind).1 b hb rfl

/-- While its callback runs, one firing of the timer has not returned. -/
theorem Counting.returned_of_calling (h : s.Counting)
    (hphase : s.phase = .calling timeNow o.serial) :
    s.returned o.serial = (s.firings o.serial).length - 1 ∧ 0 ≤ s.returned o.serial := by
  obtain ⟨_, hfired, _⟩ := h.iterator timeNow o.serial hphase
  have hmem : ⟨o.serial, timeNow, s.passes⟩ ∈ s.firings o.serial :=
    List.mem_filter.mpr ⟨hfired, decide_eq_true rfl⟩
  have hpos := List.length_pos_of_mem hmem
  have hreturned : s.returned o.serial = (s.firings o.serial).length - 1 := by
    rw [returned, hphase, TimerPhase.runs_calling, decide_eq_true rfl]
    rfl
  exact ⟨hreturned, by omega⟩

/-- When the callback of `o` returns, nothing changes for the other timers. -/
theorem Counting.sameFor_others (hphase : s.phase = .calling timeNow o.serial)
    {timers : List TimerObj} {tick : Nat} {serial : Int} (hserial : o.serial ≠ serial)
    (hothers : ∀ a, a.serial = serial → (a ∈ timers ↔ a ∈ s.timers_)) :
    SameFor serial s { s with timers_ := timers, tick := tick, phase := .idle } := by
  refine ⟨rfl, ?_, fun _ _ => Iff.rfl, hothers⟩
  rw [hphase, TimerPhase.runs_idle, TimerPhase.runs_calling, decide_eq_false hserial]

theorem Counting.nextRepeat (h : s.Counting) {clock : Nat → Int}
    (hmono : ∀ m n, m ≤ n → clock m ≤ clock n) {timer : XTimer} {tick : Nat}
    (hphase : s.phase = .calling timeNow o.serial) (htimers : s.timers_ = front ++ o :: rest)
    (hnext : o.timer.hasNextTime = true)
    (hrepeat : o.timer.nextRepeat clock s.tick = .ok (timer, tick))
    (hobjects : Objects { s with
      timers_ := front ++ ⟨o.address, timer⟩ :: rest, tick := tick, phase := .idle }) :
    (TimerLoop.advance { s with
      timers_ := front ++ ⟨o.address, timer⟩ :: rest, tick := tick } timeNow rest).Counting := by
  obtain ⟨_, _, hok, hserial⟩ := XTimer.nextRepeat_ok clock s.tick hnext
  rw [hrepeat] at hok
  cases hok
  have hsame : TimerObj.serial ⟨o.address, timer⟩ = o.serial := hserial
  have ho : o ∈ s.timers_ := by
    rw [htimers]
    exact List.mem_append_right _ List.mem_cons_self
  have hothers : ∀ a ∈ front ++ rest, a.serial ≠ o.serial := h.serial_ne_of_split htimers
  have hquiet := h.quiet_behind hphase htimers
  rw [advance_idle]
  refine Counting.advance ⟨hobjects, h.running, ?_, h.recordedFirings, h.passed, h.oncePerPass,
    fun _ _ hcalling => by cases hcalling⟩ rfl (List.append_cons _ _ _) hquiet timeNow
  intro c hc
  have hknown := h.known c hc
  by_cases hmine : o.serial = c.serial
  · obtain ⟨hreturned, hnonneg⟩ := h.returned_of_calling hphase
    refine ⟨hknown.interval, hknown.asserted, hknown.bound, ?_, ?_, hknown.notEarly⟩
    · intro a ha hserial
      have ha' : a = ⟨o.address, timer⟩ := by
        rcases List.mem_append.mp ha with hfront | hrest
        · exact absurd (hserial.trans hmine.symm) (hothers a (List.mem_append_left _ hfront))
        · rcases List.mem_cons.mp hrest with heq | hrest
          · exact heq
          · exact absurd (hserial.trans hmine.symm) (hothers a (List.mem_append_right _ hrest))
      have hstands := (hknown.queued o ho hmine).next hmono hknown.interval (hmine ▸ hnonneg)
        hnext hrepeat
      have hdone : s.returned c.serial + 1 = (s.firings c.serial).length := by
        rw [← hmine, hreturned]
        omega
      rw [hdone] at hstands
      have hidle : returned { s with
          timers_ := front ++ ⟨o.address, timer⟩ :: rest, tick := tick, phase := .idle } c.serial =
          (s.firings c.serial).length := by
        simp [returned, firings]
      rw [hidle, ha']
      exact hstands
    · intro hgone
      refine absurd (List.mem_map.mpr ⟨⟨o.address, timer⟩, ?_, hsame.trans hmine⟩) hgone
      exact List.mem_append_left _ (List.mem_append_right _ List.mem_cons_self)
  · apply hknown.congr
    apply Counting.sameFor_others hphase hmine
    intro a ha
    have hne : a ≠ o := fun heq => hmine (heq ▸ ha)
    have hne' : a ≠ ⟨o.address, timer⟩ := fun heq => hmine (hsame ▸ heq ▸ ha)
    rw [htimers]
    simp only [List.mem_append, List.mem_cons, hne, hne', false_or]

theorem Counting.done (h : s.Counting) (hphase : s.phase = .calling timeNow o.serial)
    (htimers : s.timers_ = front ++ o :: rest) (hnext : o.timer.hasNextTime = false)
    (hobjects : Objects { s with timers_ := front ++ rest, phase := .idle }) :
    (TimerLoop.advance { s with timers_ := front ++ rest } timeNow rest).Counting := by
  have ho : o ∈ s.timers_ := by
    rw [htimers]
    exact List.mem_append_right _ List.mem_cons_self
  have hothers : ∀ a ∈ front ++ rest, a.serial ≠ o.serial := h.serial_ne_of_split htimers
  have hquiet := h.quiet_behind hphase htimers
  rw [advance_idle]
  refine Counting.advance ⟨hobjects, h.running, ?_, h.recordedFirings, h.passed, h.oncePerPass,
    fun _ _ hcalling => by cases hcalling⟩ rfl rfl hquiet timeNow
  intro c hc
  have hknown := h.known c hc
  by_cases hmine : o.serial = c.serial
  · obtain ⟨hreturned, _⟩ := h.returned_of_calling hphase
    refine ⟨hknown.interval, hknown.asserted, hknown.bound, ?_, ?_, hknown.notEarly⟩
    · intro a ha hserial
      exact absurd (hserial.trans hmine.symm) (hothers a ha)
    · -- it was the last time
      intro _
      have hstands := hknown.queued o ho hmine
      simp only [XTimer.hasNextTime, Bool.or_eq_false_iff, decide_eq_false_iff_not] at hnext
      cases hcount : c.kind.count with
      | none => exact absurd (hstands.endless hcount) hnext.2
      | some n =>
        have hcounted := hstands.counted n hcount
        rw [← hmine, hreturned] at hcounted
        show some n = some _
        rw [← hmine]
        congr 1
        have hlast : o.timer.repeat_ = 1 := by omega
        have hfirings : (firings { s with timers_ := front ++ rest, phase := .idle }
          o.serial).length = (s.firings o.serial).length := rfl
        omega
  · apply hknown.congr
    apply Counting.sameFor_others hphase hmine
    intro a ha
    have hne : a ≠ o := fun heq => hmine (heq ▸ ha)
    rw [htimers]
    simp only [List.mem_append, List.mem_cons, hne, false_or]

end returns

theorem Counting.triggerTimer {s : TimerLoop} (h : s.Counting) (clock : Nat → Int)
    (hidle : s.phase = .idle) : (s.triggerTimer clock).Counting := by
  have hread : Counting { s with tick := s.tick + 1, passes := s.passes + 1 } := by
    refine ⟨⟨h.serials, h.addresses, h.created, h.recorded⟩, h.running, ?_, h.recordedFirings,
      fun f hf => Nat.le_succ_of_le (h.passed f hf), h.oncePerPass, ?_⟩
    · intro c hc
      exact (h.known c hc).congr ⟨rfl, rfl, fun _ _ => Iff.rfl, fun _ _ => Iff.rfl⟩
    · intro timeNow it hcalling
      rw [show s.phase = .calling timeNow it from hcalling] at hidle
      cases hidle
  -- no timer has fired in a pass that has just begun
  have hquiet : ∀ o ∈ s.timers_,
      Quiet { s with tick := s.tick + 1, passes := s.passes + 1 } o := by
    intro o _ f hf _ hpass
    have hle := h.passed f hf
    have hpass : f.pass = s.passes + 1 := hpass
    omega
  exact hread.advance hidle (List.nil_append _).symm hquiet _

/-! ## Section 6: Runs -/

theorem counting_initial : initial.Counting :=
  ⟨objects_initial, rfl, fun _ hc => absurd hc List.not_mem_nil,
    fun _ hf => absurd hf List.not_mem_nil, fun _ hf => absurd hf List.not_mem_nil, List.nodup_nil,
    fun _ _ hcalling => by cases hcalling⟩

theorem counting_step {clock : Nat → Int} (hmono : ∀ m n, m ≤ n → clock m ≤ clock n)
    (s : TimerLoop) (l : TimerLabel) (s' : TimerLoop) (h : s.Counting) (hplain : l.Plain)
    (hstep : s.step clock l = some s') : s'.Counting := by
  obtain ⟨_, hto⟩ := step_cases hstep
  cases hto with
  | create kind serial address hasserted hserial haddress =>
    exact h.create clock hplain hasserted hserial haddress
  | AddTimer o shape hbound hshape => exact h.AddTimer hbound hshape
  | RemoveTime timer shape _ _ => exact absurd hplain id
  | triggerTimer hidle => exact h.triggerTimer clock hidle
  | nextRepeat timeNow front rest o timer tick hphase htimers hnext hrepeat =>
    apply h.nextRepeat hmono hphase htimers hnext hrepeat
    exact h.toObjects.nextRepeat htimers hnext hrepeat
  | done timeNow front rest o hphase htimers hnext =>
    apply h.done hphase htimers hnext
    exact h.toObjects.done htimers
  | gone timeNow it hphase hgone =>
    -- nobody takes the timer away while its callback runs
    exact absurd (h.iterator timeNow it hphase).1 hgone

/-- The invariant says of every timer what is to be shown. -/
theorem Counting.firesAsTold {s : TimerLoop} (h : s.Counting) {c : Created}
    (hc : c ∈ s.created) : s.FiresAsTold c := by
  have hknown := h.known c hc
  -- one that is gone has run as often as it was to
  have hgone : c.serial ∉ s.timers_.map TimerObj.serial →
      c.serial ∉ s.bound.map TimerObj.serial →
        c.kind.count = some (s.returned c.serial) ∧
          s.returned c.serial = (s.firings c.serial).length := by
    intro htimers hbound
    have hruns : s.phase.runs c.serial = false :=
      Bool.eq_false_iff.mpr fun hruns => htimers (h.mem_of_runs hruns)
    have hreturned : s.returned c.serial = (s.firings c.serial).length := by
      rw [returned, hruns]
      simp
    refine ⟨?_, hreturned⟩
    rw [hreturned]
    apply hknown.finished
    rw [live, List.map_append, List.mem_append, not_or]
    exact ⟨htimers, hbound⟩
  have hreturned : ((s.firings c.serial).length : Int) ≤ s.returned c.serial + 1 := by
    rw [returned]
    split <;> omega
  refine ⟨?_, ?_, ?_, ?_, hknown.notEarly⟩
  · intro hbound
    obtain ⟨o, ho, hserial⟩ := List.mem_map.mp hbound
    exact (hknown.bound o ho hserial).1
  · intro hbound
    constructor
    · intro htimers n hn
      obtain ⟨o, ho, hserial⟩ := List.mem_map.mp htimers
      have hcounted := (hknown.queued o ho hserial).counted n hn
      omega
    · intro hless
      by_contra htimers
      obtain ⟨hcount, _⟩ := hgone htimers hbound
      exact absurd (hless _ hcount) (Int.lt_irrefl _)
  · intro o ho hserial
    have hstands := hknown.queued o ho hserial
    cases hcount : c.kind.count with
    | some n => exact (hstands.counted n hcount).2
    | none => exact hstands.endless hcount
  · intro n hn
    by_cases hbound : c.serial ∈ s.bound.map TimerObj.serial
    · obtain ⟨o, ho, hserial⟩ := List.mem_map.mp hbound
      have hpos := TimerKind.count_pos hknown.asserted hn
      rw [(hknown.bound o ho hserial).1]
      exact Int.le_of_lt hpos
    · by_cases htimers : c.serial ∈ s.timers_.map TimerObj.serial
      · obtain ⟨o, ho, hserial⟩ := List.mem_map.mp htimers
        have hcounted := (hknown.queued o ho hserial).counted n hn
        omega
      · obtain ⟨hcount, hlength⟩ := hgone htimers hbound
        rw [hn, Option.some.injEq] at hcount
        omega

/-- **Timers fire the right number of times and never early.**  In every run of
    creations with intervals that are not negative, additions and passes, with
    callbacks that create and add timers, while the clock does not go back: no
    assertion fails and no destroyed timer is read; no timer fires twice in
    one pass; and every timer fires as it was told. -/
theorem timers_fire_as_told {clock : Nat → Int} (hmono : ∀ m n, m ≤ n → clock m ≤ clock n)
    {ls : List TimerLabel} (hplain : ∀ l ∈ ls, l.Plain) {s : TimerLoop}
    (hrun : run (step clock) initial ls = some s) :
    s.halted = none ∧ (s.fired.map fun f => (f.serial, f.pass)).Nodup ∧
      ∀ c ∈ s.created, s.FiresAsTold c := by
  have hcounting : s.Counting :=
    run_of_allSteps (counting_step hmono) ls initial s counting_initial
      (allSteps_of_forall ls initial fun l hl _ => hplain l hl) hrun
  exact ⟨hcounting.running, hcounting.oncePerPass, fun _ hc => hcounting.firesAsTold hc⟩

/-- A timer that runs twice; its first callback creates one that runs once.
    The first pass is late, so the catch-up rule sets the next expiration. -/
theorem timers_fire_as_told_three : ∃ s, run (step fun n => 10 * n) initial
      [.create (.runRepeat 2 10) 1 0, .AddTimer 1 .nil, .triggerTimer,
        .create (.runAfter 5) 2 8, .AddTimer 2 (.node ⟨0, 2, 10, 10, 1⟩ .nil .nil),
        .callbackReturns, .triggerTimer, .callbackReturns, .callbackReturns] = some s ∧
    s.fired.map Firing.serial = [1, 1, 2] ∧ s.timers_ = [] ∧
    ∀ c ∈ s.created, s.FiresAsTold c := by
  refine ⟨⟨[], [], .idle, 6, 2, [⟨.runRepeat 2 10, 0, 1, 0⟩, ⟨.runAfter 5, 20, 2, 8⟩],
    [⟨1, 10, 1⟩, ⟨1, 50, 2⟩, ⟨2, 50, 2⟩], [], none⟩, by decide +kernel, rfl, rfl, ?_⟩
  refine (timers_fire_as_told ?_ ?_ (by decide +kernel :
    run (step fun n => 10 * n) initial
      [.create (.runRepeat 2 10) 1 0, .AddTimer 1 .nil, .triggerTimer,
        .create (.runAfter 5) 2 8, .AddTimer 2 (.node ⟨0, 2, 10, 10, 1⟩ .nil .nil),
        .callbackReturns, .triggerTimer, .callbackReturns, .callbackReturns] = some _)).2.2
  · intro m n hle
    omega
  · decide

end TimerLoop

end XFast
