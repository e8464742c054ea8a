import XFast.Base.TimerLoop

/-! # Timer ids

    An id is the address of a timer and nothing else.  `RemoveTime` reads the
    object at that address for the key it looks up: after the timer is gone,
    there is no object, or one that belongs to a later timer.  The iterator of
    a pass is a pointer as well; a callback that cancels its own timer takes
    it away.

    A call is safe exactly if the set is empty, so that nothing is read, or an
    object is there and either the set does not find it, or it is the timer
    meant, in place in the tree and not the one whose callback is running. -/

namespace XFast

open Steps

namespace TimerLoop

/-! ## Section 1: What is to be shown -/

/-- No destroyed timer has been read, and no call has removed a timer other
    than the one whose id was given. -/
def IdsSafe (s : TimerLoop) : Prop :=
  s.halted ≠ some .memoryFault ∧ ∀ r ∈ s.removed, r.erased = r.asked

instance (s : TimerLoop) : Decidable s.IdsSafe := inferInstanceAs (Decidable (_ ∧ _))

/-- What the condition says of the object at the address: if the set finds it,
    it is the timer meant, alone within the bounds of its key, and its callback
    is not running. -/
def FoundOnlyAs (s : TimerLoop) (timer : Created) (shape : BinaryTree TimerObj) (key : TimerObj) :
    Prop :=
  SearchTree.Found TimerObj.Cmp key shape →
    key.serial = timer.serial ∧ SearchTree.InPlace TimerObj.Cmp key shape ∧
      s.phase.runs key.serial = false

/-- `RemoveTime` may be run with the id of this timer. -/
def SafeToCancel (s : TimerLoop) (timer : Created) (shape : BinaryTree TimerObj) : Prop :=
  s.timers_ = [] ∨ ∃ key ∈ s.live, key.address = timer.timerId ∧ s.FoundOnlyAs timer shape key

/-- Only the calls of `RemoveTime` are restricted. -/
def Safe (s : TimerLoop) : TimerLabel → Prop
  | .create _ _ _ | .AddTimer _ _ | .triggerTimer | .callbackReturns => True
  | .RemoveTime serial shape => ∀ timer ∈ s.created, timer.serial = serial →
      SearchTree.keys shape = s.timers_ → s.SafeToCancel timer shape

instance (s : TimerLoop) (l : TimerLabel) : Decidable (s.Safe l) :=
  match l with
  | .create _ _ _ | .AddTimer _ _ | .triggerTimer | .callbackReturns => isTrue trivial
  | .RemoveTime serial shape => by
      unfold Safe SafeToCancel FoundOnlyAs
      infer_instance

/-! ## Section 2: The look-up -/

namespace Objects

variable {s : TimerLoop} {shape : BinaryTree TimerObj} {key : TimerObj}

/-- The object at an address. -/
theorem find_address (h : s.Objects) (hkey : key ∈ s.live) :
    s.live.find? (·.address = key.address) = some key := by
  have hsome : (s.live.find? (·.address = key.address)).isSome :=
    List.find?_isSome.mpr ⟨key, hkey, decide_eq_true rfl⟩
  obtain ⟨found, hfound⟩ := Option.isSome_iff_exists.mp hsome
  have haddress : found.address = key.address := by simpa using List.find?_some hfound
  rw [hfound, List.inj_on_of_nodup_map h.addresses (List.mem_of_find?_eq_some hfound) hkey
    haddress]

/-- An element of the set that compares as equal with an object is that
    object: no two have the same serial. -/
theorem eq_of_not_cmp (h : s.Objects) (hkey : key ∈ s.live)
    (hshape : SearchTree.keys shape = s.timers_) :
    ∀ x ∈ SearchTree.keys shape, ¬ TimerObj.Cmp key x → ¬ TimerObj.Cmp x key → x = key := by
  intro x hx hafter hbefore
  rw [hshape] at hx
  exact h.eq_of_serial (List.mem_append_left _ hx) hkey
    (XTimer.serial_eq_of_not_cmp hbefore hafter)

theorem nodup_timers (h : s.Objects) : s.timers_.Nodup := by
  have hserials := h.serials
  rw [live, List.map_append] at hserials
  exact (List.nodup_append.mp hserials).1.of_map

/-- What the set finds is in it. -/
theorem mem_of_found (h : s.Objects) (hkey : key ∈ s.live)
    (hshape : SearchTree.keys shape = s.timers_)
    (hfound : SearchTree.Found TimerObj.Cmp key shape) : key ∈ s.timers_ := by
  obtain ⟨x, hx, hafter, hbefore⟩ := hfound.exists_same
  rw [← h.eq_of_not_cmp hkey hshape x hx hafter hbefore, ← hshape]
  exact hx

/-- What the set finds is erased. -/
theorem not_mem_erase (h : s.Objects) (hkey : key ∈ s.live)
    (hshape : SearchTree.keys shape = s.timers_)
    (hfound : SearchTree.Found TimerObj.Cmp key shape) :
    key ∉ SearchTree.erase TimerObj.Cmp key shape := by
  apply SearchTree.not_mem_erase_of_found TimerObj.cmp_asymm (h.eq_of_not_cmp hkey hshape) _ hfound
  rw [hshape]
  exact h.nodup_timers

end Objects

/-- The call with the id of an object that is there. -/
theorem RemoveTime_of_mem {s : TimerLoop} (h : s.Objects) {timer : Created}
    {shape : BinaryTree TimerObj} {key : TimerObj} (hne : s.timers_ ≠ []) (hkey : key ∈ s.live)
    (haddress : key.address = timer.timerId) :
    s.RemoveTime timer shape =
      { s with
        timers_ := SearchTree.erase TimerObj.Cmp key shape
        removed := s.removed ++ (s.timers_.filter
          (· ∉ SearchTree.erase TimerObj.Cmp key shape)).map fun o =>
            ⟨timer.serial, o.serial⟩ } := by
  unfold RemoveTime
  rw [if_neg hne, ← haddress, h.find_address hkey]

/-- Each element of the set that is erased is recorded. -/
theorem mem_removed_of_not_mem_erase {s : TimerLoop} (h : s.Objects) {timer : Created}
    {shape : BinaryTree TimerObj} {key o : TimerObj} (hne : s.timers_ ≠ []) (hkey : key ∈ s.live)
    (haddress : key.address = timer.timerId) (ho : o ∈ s.timers_)
    (herased : o ∉ SearchTree.erase TimerObj.Cmp key shape) :
    ⟨timer.serial, o.serial⟩ ∈ (s.RemoveTime timer shape).removed := by
  rw [RemoveTime_of_mem h hne hkey haddress]
  apply List.mem_append_right
  exact List.mem_map_of_mem (f := fun o : TimerObj => (⟨timer.serial, o.serial⟩ : Removal))
    (List.mem_filter.mpr ⟨ho, decide_eq_true herased⟩)

/-! ## Section 3: The invariant -/

/-- The iterator of a pass points to a timer of the set, and what was removed
    is what was meant. -/
structure Cancelling (s : TimerLoop) : Prop extends Objects s where
  running : s.halted = none
  iterator : ∀ timeNow it, s.phase = .calling timeNow it → it ∈ s.timers_.map TimerObj.serial
  removals : ∀ r ∈ s.removed, r.erased = r.asked

namespace Cancelling

variable {s : TimerLoop}

theorem idsSafe (h : s.Cancelling) : s.IdsSafe := by
  refine ⟨?_, h.removals⟩
  rw [h.running]
  exact nofun

theorem AddTimer (h : s.Cancelling) {o : TimerObj} {shape : BinaryTree TimerObj}
    (hbound : o ∈ s.bound) (hshape : SearchTree.keys shape = s.timers_)
    (hobjects : (s.AddTimer o shape).Objects) : (s.AddTimer o shape).Cancelling := by
  refine ⟨hobjects, h.running, ?_, h.removals⟩
  intro timeNow it hphase
  obtain ⟨a, ha, rfl⟩ := List.mem_map.mp (h.iterator timeNow it hphase)
  exact List.mem_map_of_mem ((h.mem_AddTimer hbound hshape a).mpr (Or.inr ha))

/-- A call that is safe takes away the timer meant, or nothing. -/
theorem RemoveTime (h : s.Cancelling) {timer : Created} {shape : BinaryTree TimerObj}
    (hshape : SearchTree.keys shape = s.timers_) (hsafe : s.SafeToCancel timer shape)
    (hobjects : (s.RemoveTime timer shape).Objects) : (s.RemoveTime timer shape).Cancelling := by
  by_cases hempty : s.timers_ = []
  · unfold TimerLoop.RemoveTime
    rw [if_pos hempty]
    exact h
  obtain ⟨key, hkey, haddress, honly⟩ := hsafe.resolve_left hempty
  rw [RemoveTime_of_mem h.toObjects hempty hkey haddress] at hobjects ⊢
  by_cases hfound : SearchTree.Found TimerObj.Cmp key shape
  · -- the timer meant, alone, and not the one that the iterator points to
    obtain ⟨hserial, hplace, hruns⟩ := honly hfound
    have hmem := h.mem_of_found hkey hshape hfound
    have herase : SearchTree.erase TimerObj.Cmp key shape = s.timers_.erase key := by
      rw [← hshape]
      exact ((SearchTree.erase_eq_iff TimerObj.cmp_asymm (h.eq_of_not_cmp hkey hshape)
        (hshape ▸ h.nodup_timers)).mpr hplace).2
    refine ⟨hobjects, h.running, ?_, ?_⟩
    · intro timeNow it hphase
      obtain ⟨o, ho, rfl⟩ := List.mem_map.mp (h.iterator timeNow it hphase)
      apply List.mem_map_of_mem
      show o ∈ SearchTree.erase TimerObj.Cmp key shape
      rw [herase]
      refine (List.mem_erase_of_ne ?_).mpr ho
      intro heq
      rw [show s.phase = _ from hphase, TimerPhase.runs_calling, heq, decide_eq_false_iff_not]
        at hruns
      exact hruns rfl
    · intro r hr
      rcases List.mem_append.mp hr with hold | hnew
      · exact h.removals r hold
      · obtain ⟨o, ho, rfl⟩ := List.mem_map.mp hnew
        obtain ⟨ho, hout⟩ := List.mem_filter.mp ho
        have heq : o = key := by
          by_contra hne
          apply of_decide_eq_true hout
          rw [herase]
          exact (List.mem_erase_of_ne hne).mpr ho
        rw [heq]
        exact hserial
  · -- nothing is found and nothing erased
    have hsame : SearchTree.erase TimerObj.Cmp key shape = s.timers_ := by
      rw [SearchTree.erase_of_not_found TimerObj.cmp_asymm hfound, hshape]
    have hnone : s.timers_.filter (· ∉ SearchTree.erase TimerObj.Cmp key shape) = [] := by
      rw [List.filter_eq_nil_iff, hsame]
      intro o ho hout
      exact of_decide_eq_true hout ho
    refine ⟨hobjects, h.running, ?_, ?_⟩
    · intro timeNow it hphase
      show it ∈ (SearchTree.erase TimerObj.Cmp key shape).map TimerObj.serial
      rw [hsame]
      exact h.iterator timeNow it hphase
    · intro r hr
      rw [hnone, List.map_nil, List.append_nil] at hr
      exact h.removals r hr

/-- The head of the loop starts a callback of a timer of the set only. -/
theorem advance {timeNow : Int} {rest : List TimerObj} (hrunning : s.halted = none)
    (hremovals : ∀ r ∈ s.removed, r.erased = r.asked) (hrest : rest ⊆ s.timers_)
    (hobjects : (TimerLoop.advance s timeNow rest).Objects) :
    (TimerLoop.advance s timeNow rest).Cancelling := by
  unfold TimerLoop.advance at hobjects ⊢
  split
  · exact ⟨hobjects, hrunning, nofun, hremovals⟩
  · rename_i o rest
    dsimp only at hobjects ⊢
    split
    · rename_i hlate
      rw [if_pos hlate] at hobjects
      exact ⟨hobjects, hrunning, nofun, hremovals⟩
    · rename_i hdue
      rw [if_neg hdue] at hobjects
      refine ⟨hobjects, hrunning, ?_, hremovals⟩
      intro timeNow' it hphase
      cases hphase
      exact List.mem_map_of_mem (hrest List.mem_cons_self)

end Cancelling

theorem cancelling_initial : initial.Cancelling :=
  ⟨objects_initial, rfl, fun _ _ hphase => TimerPhase.noConfusion hphase, fun _ hr => absurd hr List.not_mem_nil⟩

theorem cancelling_step (clock : Nat → Int) (s : TimerLoop) (l : TimerLabel) (s' : TimerLoop)
    (h : s.Cancelling) (hsafe : s.Safe l) (hstep : s.step clock l = some s') : s'.Cancelling := by
  have hobjects := objects_step clock s l s' h.toObjects hstep
  obtain ⟨_, hto⟩ := step_cases hstep
  cases hto with
  | create kind serial address _ _ _ => exact ⟨hobjects, h.running, h.iterator, h.removals⟩
  | AddTimer o shape hbound hshape => exact h.AddTimer hbound hshape hobjects
  | RemoveTime timer shape hcreated hshape =>
    exact h.RemoveTime hshape (hsafe timer hcreated rfl hshape) hobjects
  | triggerTimer _ =>
    exact Cancelling.advance h.running h.removals (List.Subset.refl _) hobjects
  | nextRepeat timeNow front rest o timer tick _ _ _ _ =>
    refine Cancelling.advance h.running h.removals ?_ hobjects
    exact fun a ha => List.mem_append_right _ (List.mem_cons_of_mem _ ha)
  | done timeNow front rest o _ _ _ =>
    exact Cancelling.advance h.running h.removals (List.subset_append_right _ _) hobjects
  | gone timeNow it hphase hgone =>
    -- no safe call has taken away the timer whose callback runs
    exact absurd (h.iterator timeNow it hphase) hgone

/-! ## Section 4: Calls that are not safe -/

/-- An erasure that is not of the key alone takes another element along. -/
theorem Objects.exists_erased {s : TimerLoop} (h : s.Objects) {shape : BinaryTree TimerObj}
    {key : TimerObj} (hkey : key ∈ s.live) (hshape : SearchTree.keys shape = s.timers_)
    (hfound : SearchTree.Found TimerObj.Cmp key shape)
    (hplace : ¬ SearchTree.InPlace TimerObj.Cmp key shape) :
    ∃ o ∈ s.timers_, o ∉ SearchTree.erase TimerObj.Cmp key shape ∧ o ≠ key := by
  by_contra hnone
  have hsub : (SearchTree.erase TimerObj.Cmp key shape).Sublist s.timers_ := by
    rw [← hshape]
    exact SearchTree.erase_sublist TimerObj.cmp_asymm key shape
  have hnotin := h.not_mem_erase hkey hshape hfound
  apply hplace
  rw [← SearchTree.erase_eq_iff TimerObj.cmp_asymm (h.eq_of_not_cmp hkey hshape)
    (hshape ▸ h.nodup_timers), hshape]
  refine ⟨h.mem_of_found hkey hshape hfound, ?_⟩
  -- both are the sublist of the elements other than the key
  have hkept : (SearchTree.erase TimerObj.Cmp key shape).filter (· ≠ key) =
      SearchTree.erase TimerObj.Cmp key shape := by
    rw [List.filter_eq_self]
    exact fun o ho => decide_eq_true fun heq => hnotin (heq ▸ ho)
  have hsubset : (SearchTree.erase TimerObj.Cmp key shape).Sublist (s.timers_.filter (· ≠ key)) := by
    rw [← hkept]
    exact hsub.filter _
  rw [h.nodup_timers.erase_eq_filter]
  have hsuperset : s.timers_.filter (· ≠ key) ⊆ SearchTree.erase TimerObj.Cmp key shape := by
    intro o ho
    obtain ⟨ho, hne⟩ := List.mem_filter.mp ho
    by_contra hout
    exact hnone ⟨o, ho, hout, of_decide_eq_true hne⟩
  have hlength := (h.nodup_timers.filter (· ≠ key)).subperm hsuperset
  rw [hsubset.eq_of_length_le hlength.length_le]
  apply List.filter_congr
  intro o _
  simp [bne, beq_eq_decide]

/-- A callback that returns when its timer is gone. -/
theorem callbackReturns_of_gone {clock : Nat → Int} {s : TimerLoop} {timeNow it : Int}
    (hgone : it ∉ s.timers_.map TimerObj.serial) :
    s.callbackReturns clock timeNow it = { s with halted := some .memoryFault } := by
  have hnil : s.timers_.dropWhile (·.serial ≠ it) = [] := by
    rw [List.dropWhile_eq_nil_iff]
    intro o ho
    exact decide_eq_true fun heq => hgone (heq ▸ List.mem_map_of_mem ho)
  unfold callbackReturns
  rw [hnil]

/-- Steps that are safe lead to a timer that was destroyed and is read, or was
    removed and not meant. -/
def Misleads (clock : Nat → Int) (s : TimerLoop) : Prop :=
  Reaches (step clock) Safe (¬ ·.IdsSafe) s

/-- A callback that cancels its own timer: when it returns, the iterator points
    to a destroyed object. -/
theorem Cancelling.reads_gone {clock : Nat → Int} {s : TimerLoop} (h : s.Cancelling)
    {timer : Created} {shape : BinaryTree TimerObj} {key : TimerObj} (hne : s.timers_ ≠ [])
    (hkey : key ∈ s.live) (haddress : key.address = timer.timerId)
    (hshape : SearchTree.keys shape = s.timers_)
    (hfound : SearchTree.Found TimerObj.Cmp key shape) (hruns : s.phase.runs key.serial = true) :
    (s.RemoveTime timer shape).Misleads clock := by
  rw [RemoveTime_of_mem h.toObjects hne hkey haddress]
  have hout := h.not_mem_erase hkey hshape hfound
  cases hphase : s.phase with
  | idle =>
    rw [hphase] at hruns
    cases hruns
  | calling timeNow it =>
    rw [hphase, TimerPhase.runs_calling, decide_eq_true_eq] at hruns
    have hgone : it ∉ (SearchTree.erase TimerObj.Cmp key shape).map TimerObj.serial := by
      rw [hruns]
      intro hit
      obtain ⟨o, ho, heq⟩ := List.mem_map.mp hit
      have hold : o ∈ s.timers_ := by
        rw [← hshape]
        exact (SearchTree.erase_sublist TimerObj.cmp_asymm key shape).subset ho
      rw [h.eq_of_serial (List.mem_append_left _ hold) hkey heq] at ho
      exact hout ho
    refine Reaches.of_step (step_callbackReturns h.running rfl) trivial (Reaches.here ?_)
    rw [callbackReturns_of_gone hgone]
    exact fun hsafe => hsafe.1 rfl

/-- After a call that is not safe, another timer is gone, a destroyed one has
    been read, or one will be when the callback returns. -/
theorem misleads_of_not_safeToCancel {clock : Nat → Int} {s : TimerLoop} (h : s.Cancelling)
    {timer : Created} {shape : BinaryTree TimerObj}
    (hshape : SearchTree.keys shape = s.timers_) (hnot : ¬ s.SafeToCancel timer shape) :
    (s.RemoveTime timer shape).Misleads clock := by
  rw [SafeToCancel, not_or] at hnot
  obtain ⟨hne, hnot⟩ := hnot
  by_cases hexists : ∃ key ∈ s.live, key.address = timer.timerId
  · -- the set finds the object, and the condition fails in one of three ways
    obtain ⟨key, hkey, haddress⟩ := hexists
    have honly : ¬ s.FoundOnlyAs timer shape key := fun honly =>
      hnot ⟨key, hkey, haddress, honly⟩
    obtain ⟨hfound, hnot⟩ := Classical.not_imp.mp honly
    have hmem := h.mem_of_found hkey hshape hfound
    have hout := h.not_mem_erase hkey hshape hfound
    by_cases hserial : key.serial = timer.serial
    · by_cases hplace : SearchTree.InPlace TimerObj.Cmp key shape
      · have hruns : s.phase.runs key.serial = true := by
          by_contra hruns
          exact hnot ⟨hserial, hplace, Bool.eq_false_iff.mpr hruns⟩
        exact h.reads_gone hne hkey haddress hshape hfound hruns
      · -- the timer meant, and another one with it
        obtain ⟨o, ho, herased, hother⟩ := h.exists_erased hkey hshape hfound hplace
        apply Reaches.here
        intro hsafe
        have hremoved := hsafe.2 _
          (mem_removed_of_not_mem_erase h.toObjects hne hkey haddress ho herased)
        apply hother
        exact h.eq_of_serial (List.mem_append_left _ ho) hkey (hremoved.trans hserial.symm)
    · -- a later timer at the same address
      apply Reaches.here
      intro hsafe
      exact hserial (hsafe.2 _
        (mem_removed_of_not_mem_erase h.toObjects hne hkey haddress hmem hout))
  · -- nothing is at the address, and the set has an element to compare it with
    apply Reaches.here
    have hnone : s.live.find? (·.address = timer.timerId) = none := by
      rw [List.find?_eq_none]
      intro key hkey haddress
      exact hexists ⟨key, hkey, of_decide_eq_true haddress⟩
    intro hsafe
    apply hsafe.1
    unfold RemoveTime
    rw [if_neg hne, hnone]

theorem misleads_of_not_safe {clock : Nat → Int} {s s₁ : TimerLoop} {l : TimerLabel}
    (h : s.Cancelling) (hstep : s.step clock l = some s₁) (hnot : ¬ s.Safe l) :
    s₁.Misleads clock := by
  obtain ⟨_, hto⟩ := step_cases hstep
  cases hto with
  | RemoveTime timer shape hcreated hshape =>
    apply misleads_of_not_safeToCancel h hshape
    intro hsafe
    apply hnot
    intro timer' hcreated' hserial _
    rw [List.inj_on_of_nodup_map h.created hcreated' hcreated hserial]
    exact hsafe
  | _ => exact absurd trivial hnot

/-! ## Section 5: Runs -/

/-- **Timer ids.**  In every run, whatever the clock returns, wherever the
    allocator puts the timers and however the set balances its tree: if every
    call of `RemoveTime` is safe, no destroyed timer is read and no call
    removes another timer.  Of the calls that are possible then, exactly those
    that are safe can never lead to anything else. -/
theorem ids_safe_iff {clock : Nat → Int} {ls : List TimerLabel} {s : TimerLoop}
    (hsafe : AllSteps (step clock) Safe initial ls) (hrun : run (step clock) initial ls = some s) :
    s.IdsSafe ∧ ∀ l s₁, s.step clock l = some s₁ →
      (s.Safe l ↔ ∀ ls' s', AllSteps (step clock) Safe s₁ ls' →
        run (step clock) s₁ ls' = some s' → s'.IdsSafe) := by
  apply keeps_and_exact cancelling_initial (cancelling_step clock) (fun _ h => h.idsSafe) _ hsafe
    hrun
  exact fun _ _ _ h hstep hnot => misleads_of_not_safe h hstep hnot

/-- The callback of an endless timer cancels the other timer. -/
theorem ids_safe_iff_three : ∃ s, run (step fun n => 10 * n) initial
      [.create (.runEvery 10) 1 0, .AddTimer 1 .nil, .create (.runAfter 100) 2 8,
        .AddTimer 2 (.node ⟨0, -1, 10, 10, 1⟩ .nil .nil), .triggerTimer,
        .RemoveTime 2 (.node ⟨0, -1, 10, 10, 1⟩ .nil (.node ⟨8, 1, 0, 110, 2⟩ .nil .nil)),
        .callbackReturns] = some s ∧
    s.timers_.map TimerObj.serial = [1] ∧ s.removed = [⟨2, 2⟩] ∧ s.IdsSafe := by
  refine ⟨⟨[⟨0, -1, 10, 50, 1⟩], [], .idle, 5, 1, [⟨.runEvery 10, 0, 1, 0⟩, ⟨.runAfter 100, 10, 2, 8⟩],
    [⟨1, 20, 1⟩], [⟨2, 2⟩], none⟩, by decide +kernel, rfl, rfl, ?_⟩
  refine (ids_safe_iff ?_ (by decide +kernel :
    run (step fun n => 10 * n) initial
      [.create (.runEvery 10) 1 0, .AddTimer 1 .nil, .create (.runAfter 100) 2 8,
        .AddTimer 2 (.node ⟨0, -1, 10, 10, 1⟩ .nil .nil), .triggerTimer,
        .RemoveTime 2 (.node ⟨0, -1, 10, 10, 1⟩ .nil (.node ⟨8, 1, 0, 110, 2⟩ .nil .nil)),
        .callbackReturns] = some _)).1
  decide +kernel

/-- A timer that runs once, at address 0, has run and is destroyed, and another
    one is in the set.  The id of the first is given to `RemoveTime`: the object
    at address 0 is read, which is not there.  If a third timer has been created
    there, it is removed.  The last run is an endless timer that cancels itself
    in its callback. -/
theorem stale_id_read :
    (∃ s, run (step fun n => 10 * n) initial
        [.create (.runAfter 10) 1 0, .AddTimer 1 .nil, .create (.runAfter 1000) 2 8,
          .AddTimer 2 (.node ⟨0, 1, 0, 10, 1⟩ .nil .nil), .triggerTimer, .callbackReturns,
          .RemoveTime 1 (.node ⟨8, 1, 0, 1010, 2⟩ .nil .nil)] = some s ∧
      s.halted = some .memoryFault ∧ ¬ s.IdsSafe) ∧
    (∃ s, run (step fun n => 10 * n) initial
        [.create (.runAfter 10) 1 0, .AddTimer 1 .nil, .create (.runAfter 1000) 2 8,
          .AddTimer 2 (.node ⟨0, 1, 0, 10, 1⟩ .nil .nil), .triggerTimer, .callbackReturns,
          .create (.runAfter 1000) 3 0, .AddTimer 3 (.node ⟨8, 1, 0, 1010, 2⟩ .nil .nil),
          .RemoveTime 1
            (.node ⟨8, 1, 0, 1010, 2⟩ .nil (.node ⟨0, 1, 0, 1030, 3⟩ .nil .nil))] = some s ∧
      s.removed = [⟨1, 3⟩] ∧ ¬ s.IdsSafe) ∧
    ∃ s, run (step fun n => 10 * n) initial
        [.create (.runEvery 10) 1 0, .AddTimer 1 .nil, .triggerTimer,
          .RemoveTime 1 (.node ⟨0, -1, 10, 10, 1⟩ .nil .nil), .callbackReturns] = some s ∧
      s.halted = some .memoryFault ∧ ¬ s.IdsSafe := by
  refine ⟨?_, ?_, ?_⟩
  · refine ⟨⟨[⟨8, 1, 0, 1010, 2⟩], [], .idle, 3, 1, [⟨.runAfter 10, 0, 1, 0⟩,
      ⟨.runAfter 1000, 10, 2, 8⟩], [⟨1, 20, 1⟩], [], some .memoryFault⟩, ?_, rfl, by decide⟩
    decide +kernel
  · refine ⟨⟨[⟨8, 1, 0, 1010, 2⟩], [], .idle, 4, 1, [⟨.runAfter 10, 0, 1, 0⟩,
      ⟨.runAfter 1000, 10, 2, 8⟩, ⟨.runAfter 1000, 30, 3, 0⟩], [⟨1, 20, 1⟩], [⟨1, 3⟩], none⟩, ?_,
      rfl, by decide⟩
    decide +kernel
  · refine ⟨⟨[], [], .calling 10 1, 2, 1, [⟨.runEvery 10, 0, 1, 0⟩], [⟨1, 10, 1⟩], [⟨1, 1⟩],
      some .memoryFault⟩, ?_, rfl, by decide⟩
    decide +kernel

end TimerLoop

end XFast
