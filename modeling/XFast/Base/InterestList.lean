import XFast.Base.XLoop

/-! # The registry mirrors the interest list

    The registry of the loop and the interest list of the epoll instance are
    two maps over the same descriptors, with different encodings of the
    masks.  No operation looks at the interest list: each of them decides by
    the registry whether to call `epoll_ctl` with ADD, MOD or DEL.  That is
    right as long as the interest list is what can be computed from the
    registry, and every operation keeps it so.

    The descriptors are open and are not closed while they are registered, so
    the kernel takes none of them out of the interest list by itself. -/

namespace XFast

/-! ## Section 1: Sequences of operations -/

/-- One call of an operation of the registry. -/
inductive RegistryOp (κ : Type) where
  | reg (fd : Fd) (data : Int) (mask : Mask) (callback : κ)
  | remove (fd : Fd)
  | addEvent (fd : Fd) (mask : Mask)
  | removeEvent (fd : Fd) (mask : Mask)

namespace RegistryOp

variable {κ : Type}

/-- The descriptor that the operation is about. -/
def fd : RegistryOp κ → Fd
  | .reg fd _ _ _ | .remove fd | .addEvent fd _ | .removeEvent fd _ => fd

/-- The callback that the operation registers. -/
def callback? : RegistryOp κ → Option κ
  | .reg _ _ _ callback => some callback
  | .remove _ | .addEvent _ _ | .removeEvent _ _ => none

/-- The same operation with another callback. -/
def map {κ' : Type} (f : κ → κ') : RegistryOp κ → RegistryOp κ'
  | .reg fd data mask callback => .reg fd data mask (f callback)
  | .remove fd => .remove fd
  | .addEvent fd mask => .addEvent fd mask
  | .removeEvent fd mask => .removeEvent fd mask

@[simp] theorem map_fd {κ' : Type} (f : κ → κ') (op : RegistryOp κ) : (op.map f).fd = op.fd := by
  cases op <;> rfl

@[simp] theorem map_callback? {κ' : Type} (f : κ → κ') (op : RegistryOp κ) :
    (op.map f).callback? = op.callback?.map f := by
  cases op <;> rfl

end RegistryOp

namespace XLoop

variable {κ : Type}

/-- The constructor: nothing is registered but the wakeup descriptor. -/
def create (wakeupFd : Fd) (wakeUpCallBack : κ) : Except Halt (XLoop κ) :=
  reg ⟨fun _ => none, fun _ => none⟩ wakeupFd 0 XE_READABLE wakeUpCallBack

def apply (loop : XLoop κ) : RegistryOp κ → Except Halt (XLoop κ)
  | .reg fd data mask callback => loop.reg fd data mask callback
  | .remove fd => loop.remove fd
  | .addEvent fd mask => loop.addEvent fd mask
  | .removeEvent fd mask => loop.removeEvent fd mask

/-- The operations one after another, up to the first one that aborts. -/
def applyAll : XLoop κ → List (RegistryOp κ) → Except Halt (XLoop κ)
  | loop, [] => .ok loop
  | loop, op :: ops => loop.apply op >>= fun loop => loop.applyAll ops

/-- No operation touches what is registered for another descriptor. -/
theorem apply_callbackOf_of_ne {loop loop' : XLoop κ} {op : RegistryOp κ}
    (h : loop.apply op = .ok loop') {fd : Fd} (hfd : fd ≠ op.fd) :
    loop'.callbackOf fd = loop.callbackOf fd := by
  cases op with
  | reg fd' _ _ _ =>
    have hne : fd ≠ fd' := hfd
    rw [reg_callbackOf h, if_neg hne]
  | remove fd' =>
    have hne : fd ≠ fd' := hfd
    rw [remove_callbackOf h, if_neg hne]
  | addEvent _ _ => rw [addEvent_callbackOf h]
  | removeEvent _ _ => rw [removeEvent_callbackOf_eq h]

/-- A callback that is registered afterwards was so before, or the operation
    has registered it. -/
theorem callbackOf_of_apply {loop loop' : XLoop κ} {op : RegistryOp κ}
    (h : loop.apply op = .ok loop') {fd : Fd} {callback : κ}
    (hcallback : loop'.callbackOf fd = some callback) :
    op.callback? = some callback ∨ loop.callbackOf fd = some callback := by
  cases op with
  | reg fd' _ _ _ =>
    rw [reg_callbackOf h] at hcallback
    split at hcallback
    · exact Or.inl hcallback
    · exact Or.inr hcallback
  | remove fd' =>
    rw [remove_callbackOf h] at hcallback
    split at hcallback
    · cases hcallback
    · exact Or.inr hcallback
  | addEvent _ _ =>
    rw [addEvent_callbackOf h] at hcallback
    exact Or.inr hcallback
  | removeEvent _ _ =>
    rw [removeEvent_callbackOf_eq h] at hcallback
    exact Or.inr hcallback

/-- The two maps agree: on their descriptors, and on the two events of each. -/
structure Mirrors (loop : XLoop κ) : Prop where
  fds : ∀ fd, (loop.register_ fd).isSome ↔ (loop.poller_ fd).isSome
  readable : ∀ fd xes events, loop.register_ fd = some xes → loop.poller_ fd = some events →
    (events.Has EPOLLIN ↔ xes.mask.Has XE_READABLE)
  writable : ∀ fd xes events, loop.register_ fd = some xes → loop.poller_ fd = some events →
    (events.Has EPOLLOUT ↔ xes.mask.Has XE_WRITABLE)

/-! ## Section 2: The interest list that a registry stands for -/

/-- The interest list as a function of the registry. -/
def interestOf (register_ : Fd → Option (XEventState κ)) : Interest :=
  fun fd => (register_ fd).map fun xes => XEpoller.epollMask xes.mask

/-- The interest list of the kernel is that of the registry. -/
def Synced (loop : XLoop κ) : Prop := loop.poller_ = interestOf loop.register_

theorem interestOf_update (register_ : Fd → Option (XEventState κ)) (fd : Fd)
    (entry : Option (XEventState κ)) :
    interestOf (Function.update register_ fd entry) =
      Function.update (interestOf register_) fd
        (entry.map fun xes => XEpoller.epollMask xes.mask) := by
  funext fd'
  by_cases hfd : fd' = fd
  · subst hfd
    simp only [interestOf, Function.update_self]
  · simp only [interestOf, Function.update_of_ne hfd]

/-- `EPOLLIN` and `XE_READABLE` go together, whatever else the mask holds. -/
theorem epollMask_has_in (mask : Mask) :
    (XEpoller.epollMask mask).Has EPOLLIN ↔ mask.Has XE_READABLE := by
  unfold XEpoller.epollMask Mask.Has
  split <;> split <;> simp_all [EPOLLIN, EPOLLOUT]

theorem epollMask_has_out (mask : Mask) :
    (XEpoller.epollMask mask).Has EPOLLOUT ↔ mask.Has XE_WRITABLE := by
  unfold XEpoller.epollMask Mask.Has
  split <;> split <;> simp_all [EPOLLIN, EPOLLOUT]

theorem Synced.mirrors {loop : XLoop κ} (h : loop.Synced) : loop.Mirrors := by
  have hpoller : ∀ fd, loop.poller_ fd =
      (loop.register_ fd).map fun xes => XEpoller.epollMask xes.mask := fun fd => congrFun h fd
  constructor
  · intro fd
    rw [hpoller fd, Option.isSome_map]
  · intro fd xes events hxes hevents
    rw [hpoller fd, hxes, Option.map_some, Option.some.injEq] at hevents
    rw [← hevents]
    exact epollMask_has_in xes.mask
  · intro fd xes events hxes hevents
    rw [hpoller fd, hxes, Option.map_some, Option.some.injEq] at hevents
    rw [← hevents]
    exact epollMask_has_out xes.mask

/-! ## Section 3: `epoll_ctl` through the registry -/

theorem Synced.poller_none {loop : XLoop κ} (h : loop.Synced) {fd : Fd}
    (hxes : loop.register_ fd = none) : loop.poller_ fd = none := by
  rw [h]
  simp only [interestOf, hxes, Option.map_none]

theorem Synced.poller_some {loop : XLoop κ} (h : loop.Synced) {fd : Fd} {xes : XEventState κ}
    (hxes : loop.register_ fd = some xes) :
    loop.poller_ fd = some (XEpoller.epollMask xes.mask) := by
  rw [h]
  simp only [interestOf, hxes, Option.map_some]

/-- MOD on a registered descriptor, with the new entry in the registry. -/
theorem Synced.modify {loop : XLoop κ} (h : loop.Synced) {fd : Fd} {xes : XEventState κ}
    (hxes : loop.register_ fd = some xes) (entry : XEventState κ) :
    ∃ poller, XEpoller.modify loop.poller_ fd entry.mask = .ok poller ∧
      Synced ⟨Function.update loop.register_ fd (some entry), poller⟩ := by
  refine ⟨Function.update loop.poller_ fd (some (XEpoller.epollMask entry.mask)), ?_, ?_⟩
  · simp only [XEpoller.modify, XEpoller.ctrl, epollCtl, h.poller_some hxes]
  · show Function.update loop.poller_ fd _ = interestOf (Function.update loop.register_ fd _)
    rw [interestOf_update, h, Option.map_some]

/-- ADD on a descriptor that is not registered. -/
theorem Synced.add {loop : XLoop κ} (h : loop.Synced) {fd : Fd}
    (hxes : loop.register_ fd = none) (entry : XEventState κ) :
    ∃ poller, XEpoller.add loop.poller_ fd entry.mask = .ok poller ∧
      Synced ⟨Function.update loop.register_ fd (some entry), poller⟩ := by
  refine ⟨Function.update loop.poller_ fd (some (XEpoller.epollMask entry.mask)), ?_, ?_⟩
  · simp only [XEpoller.add, XEpoller.ctrl, epollCtl, h.poller_none hxes]
  · show Function.update loop.poller_ fd _ = interestOf (Function.update loop.register_ fd _)
    rw [interestOf_update, h, Option.map_some]

/-- DEL on a registered descriptor. -/
theorem Synced.delete {loop : XLoop κ} (h : loop.Synced) {fd : Fd} {xes : XEventState κ}
    (hxes : loop.register_ fd = some xes) :
    ∃ poller, XEpoller.delete loop.poller_ fd = .ok poller ∧
      Synced ⟨Function.update loop.register_ fd none, poller⟩ := by
  refine ⟨Function.update loop.poller_ fd none, ?_, ?_⟩
  · simp only [XEpoller.delete, XEpoller.ctrl, epollCtl, h.poller_some hxes]
  · show Function.update loop.poller_ fd _ = interestOf (Function.update loop.register_ fd _)
    rw [interestOf_update, h, Option.map_none]

/-! ## Section 4: The operations -/

theorem Synced.reg {loop : XLoop κ} (h : loop.Synced) (fd : Fd) (data : Int) (mask : Mask)
    (callback : κ) : ∃ loop', loop.reg fd data mask callback = .ok loop' ∧ loop'.Synced := by
  cases hxes : loop.register_ fd with
  | none =>
    obtain ⟨poller, hadd, hsynced⟩ := h.add hxes ⟨mask, data, callback⟩
    refine ⟨_, ?_, hsynced⟩
    simp only [XLoop.reg, hxes, Option.isSome_none, Bool.false_eq_true, if_false, hadd, ok_bind,
      pure_eq_ok]
  | some xes =>
    obtain ⟨poller, hmod, hsynced⟩ := h.modify hxes ⟨mask, data, callback⟩
    refine ⟨_, ?_, hsynced⟩
    simp only [XLoop.reg, hxes, Option.isSome_some, if_true, hmod, ok_bind, pure_eq_ok]

theorem Synced.remove {loop : XLoop κ} (h : loop.Synced) (fd : Fd) :
    ∃ loop', loop.remove fd = .ok loop' ∧ loop'.Synced := by
  cases hxes : loop.register_ fd with
  | none =>
    refine ⟨loop, ?_, h⟩
    simp only [XLoop.remove, hxes]
  | some xes =>
    obtain ⟨poller, hdel, hsynced⟩ := h.delete hxes
    refine ⟨_, ?_, hsynced⟩
    simp only [XLoop.remove, hxes, hdel, ok_bind, pure_eq_ok]

theorem Synced.addEvent {loop : XLoop κ} (h : loop.Synced) (fd : Fd) (mask : Mask) :
    ∃ loop', loop.addEvent fd mask = .ok loop' ∧ loop'.Synced := by
  cases hxes : loop.register_ fd with
  | none =>
    refine ⟨loop, ?_, h⟩
    simp only [XLoop.addEvent, hxes]
  | some xes =>
    by_cases hbit : xes.mask &&& mask ≠ 0
    · refine ⟨loop, ?_, h⟩
      simp only [XLoop.addEvent, hxes, if_pos hbit]
    · obtain ⟨poller, hmod, hsynced⟩ := h.modify hxes { xes with mask := xes.mask ||| mask }
      refine ⟨_, ?_, hsynced⟩
      simp only [XLoop.addEvent, hxes, if_neg hbit, hmod, ok_bind, pure_eq_ok]

/-- The complement of the event is or-ed into the mask, in both maps; and the
    mask does not become empty, so the descriptor is not removed. -/
theorem Synced.removeEvent {loop : XLoop κ} (h : loop.Synced) (fd : Fd) (mask : Mask) :
    ∃ loop', loop.removeEvent fd mask = .ok loop' ∧ loop'.Synced := by
  cases hxes : loop.register_ fd with
  | none =>
    refine ⟨loop, ?_, h⟩
    simp only [XLoop.removeEvent, hxes]
  | some xes =>
    by_cases hbit : xes.mask &&& mask = 0
    · refine ⟨loop, ?_, h⟩
      simp only [XLoop.removeEvent, hxes, if_pos hbit]
    · obtain ⟨poller, hmod, hsynced⟩ := h.modify hxes { xes with mask := xes.mask ||| ~~~mask }
      refine ⟨_, ?_, hsynced⟩
      have hnone : xes.mask ||| ~~~mask ≠ XE_NONE := Mask.or_not_ne_none hbit
      simp only [XLoop.removeEvent, hxes, if_neg hbit, if_neg hnone, hmod, ok_bind, pure_eq_ok]

theorem Synced.apply {loop : XLoop κ} (h : loop.Synced) (op : RegistryOp κ) :
    ∃ loop', loop.apply op = .ok loop' ∧ loop'.Synced := by
  cases op with
  | reg fd data mask callback => exact h.reg fd data mask callback
  | remove fd => exact h.remove fd
  | addEvent fd mask => exact h.addEvent fd mask
  | removeEvent fd mask => exact h.removeEvent fd mask

/-- Induction on the operations. -/
theorem Synced.applyAll (ops : List (RegistryOp κ)) : ∀ {loop : XLoop κ}, loop.Synced →
    ∃ loop', loop.applyAll ops = .ok loop' ∧ loop'.Synced := by
  induction ops with
  | nil => exact fun h => ⟨_, rfl, h⟩
  | cons op ops ih =>
    intro loop h
    obtain ⟨loop₁, hop, h₁⟩ := h.apply op
    obtain ⟨loop₂, hops, h₂⟩ := ih h₁
    refine ⟨loop₂, ?_, h₂⟩
    rw [XLoop.applyAll, hop, ok_bind, hops]

theorem synced_create (wakeupFd : Fd) (wakeUpCallBack : κ) :
    ∃ loop, create wakeupFd wakeUpCallBack = .ok loop ∧ loop.Synced := by
  have hempty : Synced (⟨fun _ => none, fun _ => none⟩ : XLoop κ) := rfl
  exact hempty.reg wakeupFd 0 XE_READABLE wakeUpCallBack

/-- After its constructor and any operations a loop is there, and synced. -/
theorem synced_after (wakeupFd : Fd) (wakeUpCallBack : κ) (ops : List (RegistryOp κ)) :
    ∃ loop, (create wakeupFd wakeUpCallBack >>= (·.applyAll ops)) = .ok loop ∧ loop.Synced := by
  obtain ⟨loop₁, hcreate, h₁⟩ := synced_create wakeupFd wakeUpCallBack
  obtain ⟨loop₂, hops, h₂⟩ := h₁.applyAll ops
  refine ⟨loop₂, ?_, h₂⟩
  rw [hcreate, ok_bind, hops]

theorem synced_of_created {wakeupFd : Fd} {wakeUpCallBack : κ} {ops : List (RegistryOp κ)}
    {loop : XLoop κ}
    (h : (create wakeupFd wakeUpCallBack >>= (·.applyAll ops)) = .ok loop) : loop.Synced := by
  obtain ⟨loop', hok, hsynced⟩ := synced_after wakeupFd wakeUpCallBack ops
  rw [h, Except.ok.injEq] at hok
  rw [hok]
  exact hsynced

/-- **The registry mirrors the interest list.**  From the constructor on, after
    any operations with any masks and callbacks, no assertion has failed and
    the two maps agree. -/
theorem registry_mirrors_interest (wakeupFd : Fd) (wakeUpCallBack : κ)
    (ops : List (RegistryOp κ)) :
    ∃ loop, (create wakeupFd wakeUpCallBack >>= (·.applyAll ops)) = .ok loop ∧ loop.Mirrors := by
  obtain ⟨loop, hok, hsynced⟩ := synced_after wakeupFd wakeUpCallBack ops
  exact ⟨loop, hok, hsynced.mirrors⟩

end XLoop

end XFast
