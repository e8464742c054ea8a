import Mathlib.Logic.Function.Basic
import XFast.Base.Machine

/-! # xLoop: the registry of descriptors

    Model of the registration part of `base/xloop.cpp` and of
    `base/epoller.cpp`.  The loop keeps a map from descriptors to event
    states, the kernel keeps the interest list of the epoll instance; every
    operation of the registry goes through both.  The callback type is a
    parameter.

    The operations assert that they run in the loop thread; they are modelled
    in that thread, so the assertion holds and is left out. -/

namespace XFast

/-! ## Section 1: Event masks -/

/-- Descriptor numbers. -/
abbrev Fd : Type := Int

/-- Event masks, a C `int`. -/
abbrev Mask : Type := BitVec 32

def XE_NONE : Mask := 0
def XE_READABLE : Mask := 1
def XE_WRITABLE : Mask := 2
def XE_ERROR : Mask := 8
def XE_HUP : Mask := 16

def EPOLLIN : Mask := 1
def EPOLLOUT : Mask := 4

/-- A mask has some of the bits of `bits`. -/
def Mask.Has (mask bits : Mask) : Prop := mask &&& bits ≠ 0

instance (mask bits : Mask) : Decidable (Mask.Has mask bits) :=
  inferInstanceAs (Decidable (_ ≠ _))

theorem Mask.or_and_self (mask bits : Mask) : (mask ||| bits) &&& bits = bits := by
  ext i hi
  simp only [BitVec.getElem_and, BitVec.getElem_or]
  cases mask[i] <;> cases bits[i] <;> rfl

/-- Or-ing with the complement of `bits` leaves the bits of `bits` alone. -/
theorem Mask.or_not_and_self (mask bits : Mask) :
    (mask ||| ~~~bits) &&& bits = mask &&& bits := by
  ext i hi
  simp only [BitVec.getElem_and, BitVec.getElem_or, BitVec.getElem_not]
  cases mask[i] <;> cases bits[i] <;> rfl

/-- So a mask that has some of the bits does not become empty. -/
theorem Mask.or_not_ne_none {mask bits : Mask} (h : mask &&& bits ≠ 0) :
    mask ||| ~~~bits ≠ XE_NONE := by
  intro hzero
  rw [← Mask.or_not_and_self, hzero] at h
  exact h BitVec.zero_and

/-! ## Section 2: The interest list of the kernel -/

/-- The descriptors in the epoll interest list, with their epoll events. -/
abbrev Interest : Type := Fd → Option Mask

inductive CtlOp where
  | EPOLL_CTL_ADD
  | EPOLL_CTL_MOD
  | EPOLL_CTL_DEL
  deriving DecidableEq, Repr

/-- `epoll_ctl`; `none` stands for a non-zero return code. -/
def epollCtl (interest : Interest) (op : CtlOp) (fd : Fd) (events : Mask) : Option Interest :=
  match op, interest fd with
  | .EPOLL_CTL_ADD, none => some (Function.update interest fd (some events))
  | .EPOLL_CTL_ADD, some _ => none
  | .EPOLL_CTL_MOD, some _ => some (Function.update interest fd (some events))
  | .EPOLL_CTL_MOD, none => none
  | .EPOLL_CTL_DEL, some _ => some (Function.update interest fd none)
  | .EPOLL_CTL_DEL, none => none

namespace XEpoller

/-- `ctrl` with its `assert(rc == 0)`. -/
def ctrl (interest : Interest) (fd : Fd) (mask : Mask) (op : CtlOp) : Except Halt Interest :=
  match epollCtl interest op fd mask with
  | some interest' => .ok interest'
  | none => .error .assertFailed

/-- The epoll events that `Add` and `Modify` compute from a mask. -/
def epollMask (emask : Mask) : Mask :=
  (if emask &&& XE_READABLE ≠ 0 then EPOLLIN else 0) |||
    (if emask &&& XE_WRITABLE ≠ 0 then EPOLLOUT else 0)

def add (interest : Interest) (fd : Fd) (emask : Mask) : Except Halt Interest :=
  ctrl interest fd (epollMask emask) .EPOLL_CTL_ADD

def modify (interest : Interest) (fd : Fd) (emask : Mask) : Except Halt Interest :=
  ctrl interest fd (epollMask emask) .EPOLL_CTL_MOD

def delete (interest : Interest) (fd : Fd) : Except Halt Interest :=
  ctrl interest fd 0 .EPOLL_CTL_DEL

theorem ctrl_error {interest : Interest} {fd : Fd} {mask : Mask} {op : CtlOp} {e : Halt}
    (h : ctrl interest fd mask op = .error e) : e = .assertFailed := by
  unfold ctrl at h
  split at h
  · cases h
  · cases h
    rfl

end XEpoller

/-! ## Section 3: The registry -/

structure XEventState (κ : Type) where
  mask : Mask
  data : Int
  callback : κ
  deriving DecidableEq, Repr

structure XLoop (κ : Type) where
  register_ : Fd → Option (XEventState κ)
  poller_ : Interest

namespace XLoop

variable {κ : Type}

/-- `reg(fd, data, mask, callback)`: create the entry or overwrite it. -/
def reg (loop : XLoop κ) (fd : Fd) (data : Int) (mask : Mask) (callback : κ) :
    Except Halt (XLoop κ) :=
  let mod := (loop.register_ fd).isSome
  let register_ := Function.update loop.register_ fd (some ⟨mask, data, callback⟩)
  if mod then do
    let poller ← XEpoller.modify loop.poller_ fd mask
    return ⟨register_, poller⟩
  else do
    let poller ← XEpoller.add loop.poller_ fd mask
    return ⟨register_, poller⟩

def remove (loop : XLoop κ) (fd : Fd) : Except Halt (XLoop κ) :=
  match loop.register_ fd with
  | none => .ok loop
  | some _ => do
      let poller ← XEpoller.delete loop.poller_ fd
      return ⟨Function.update loop.register_ fd none, poller⟩

def addEvent (loop : XLoop κ) (fd : Fd) (mask : Mask) : Except Halt (XLoop κ) :=
  match loop.register_ fd with
  | none => .ok loop
  | some xes =>
      if xes.mask &&& mask ≠ 0 then .ok loop
      else do
        let xes := { xes with mask := xes.mask ||| mask }
        let poller ← XEpoller.modify loop.poller_ fd xes.mask
        return ⟨Function.update loop.register_ fd (some xes), poller⟩

def removeEvent (loop : XLoop κ) (fd : Fd) (mask : Mask) : Except Halt (XLoop κ) :=
  match loop.register_ fd with
  | none => .ok loop
  | some xes =>
      if xes.mask &&& mask = 0 then .ok loop
      else
        let xes := { xes with mask := xes.mask ||| ~~~mask }
        let loop := { loop with register_ := Function.update loop.register_ fd (some xes) }
        if xes.mask = XE_NONE then loop.remove fd
        else do
          let poller ← XEpoller.modify loop.poller_ fd xes.mask
          return { loop with poller_ := poller }

/-! ## Section 4: What each operation leaves behind -/

/-- The mask registered for a descriptor. -/
def maskOf (loop : XLoop κ) (fd : Fd) : Option Mask := (loop.register_ fd).map (·.mask)

/-- The callback registered for a descriptor. -/
def callbackOf (loop : XLoop κ) (fd : Fd) : Option κ := (loop.register_ fd).map (·.callback)

/-- `reg` changes the entry of its own descriptor only. -/
theorem reg_register {loop loop' : XLoop κ} {fd : Fd} {data : Int} {mask : Mask} {cb : κ}
    (h : loop.reg fd data mask cb = .ok loop') :
    loop'.register_ = Function.update loop.register_ fd (some ⟨mask, data, cb⟩) := by
  unfold reg at h
  cases hmod : (loop.register_ fd).isSome with
  | true =>
    cases hctl : XEpoller.modify loop.poller_ fd mask with
    | error e => simp [hmod, hctl] at h
    | ok poller =>
      simp only [hmod, hctl, if_true, ok_bind, pure_eq_ok, Except.ok.injEq] at h
      rw [← h]
  | false =>
    cases hctl : XEpoller.add loop.poller_ fd mask with
    | error e => simp [hmod, hctl] at h
    | ok poller =>
      simp only [hmod, hctl, ok_bind, pure_eq_ok, Bool.false_eq_true, if_false,
        Except.ok.injEq] at h
      rw [← h]

/-- `remove` leaves no entry for its descriptor and the others as they were. -/
theorem remove_register {loop loop' : XLoop κ} {fd : Fd} (h : loop.remove fd = .ok loop') :
    loop'.register_ = Function.update loop.register_ fd none := by
  unfold remove at h
  cases hreg : loop.register_ fd with
  | none =>
    simp only [hreg, Except.ok.injEq] at h
    rw [← h, ← hreg, Function.update_eq_self]
  | some xes =>
    cases hctl : XEpoller.delete loop.poller_ fd with
    | error e => simp [hreg, hctl] at h
    | ok poller =>
      simp only [hreg, hctl, ok_bind, pure_eq_ok, Except.ok.injEq] at h
      rw [← h]

/-- `addEvent` on a registered descriptor: the entry keeps its callback and
    has the event, and the other entries are as they were. -/
theorem addEvent_register {loop loop' : XLoop κ} {fd : Fd} {mask : Mask} {xes : XEventState κ}
    (hxes : loop.register_ fd = some xes) (h : loop.addEvent fd mask = .ok loop') :
    loop'.register_ = Function.update loop.register_ fd
      (some (if xes.mask &&& mask ≠ 0 then xes else { xes with mask := xes.mask ||| mask })) := by
  unfold addEvent at h
  by_cases hbit : xes.mask &&& mask ≠ 0
  · simp only [hxes, if_pos hbit, Except.ok.injEq] at h
    rw [← h, if_pos hbit, ← hxes, Function.update_eq_self]
  · cases hctl : XEpoller.modify loop.poller_ fd (xes.mask ||| mask) with
    | error e =>
      simp only [hxes, if_neg hbit, hctl, error_bind] at h
      cases h
    | ok poller =>
      simp only [hxes, if_neg hbit, hctl, ok_bind, pure_eq_ok, Except.ok.injEq] at h
      rw [← h, if_neg hbit]

/-- `removeEvent` on a descriptor whose mask has the event: the complement of
    the event is or-ed into the mask, so the event is still there. -/
theorem removeEvent_register {loop loop' : XLoop κ} {fd : Fd} {mask : Mask}
    {xes : XEventState κ} (hxes : loop.register_ fd = some xes) (hhas : xes.mask.Has mask)
    (h : loop.removeEvent fd mask = .ok loop') :
    loop'.register_ =
        Function.update loop.register_ fd (some { xes with mask := xes.mask ||| ~~~mask }) ∧
      (xes.mask ||| ~~~mask).Has mask := by
  have hstill : (xes.mask ||| ~~~mask).Has mask := by
    show (xes.mask ||| ~~~mask) &&& mask ≠ 0
    rw [Mask.or_not_and_self]
    exact hhas
  refine ⟨?_, hstill⟩
  unfold removeEvent at h
  rw [hxes] at h
  dsimp only at h
  rw [if_neg hhas, if_neg (Mask.or_not_ne_none hhas)] at h
  obtain ⟨poller, _, h⟩ := bind_eq_ok h
  cases h
  rfl

/-- A descriptor that is not registered has no events to add or remove. -/
theorem addEvent_of_none {loop : XLoop κ} {fd : Fd} (h : loop.register_ fd = none)
    (mask : Mask) : loop.addEvent fd mask = .ok loop := by
  simp only [addEvent, h]

theorem removeEvent_of_none {loop : XLoop κ} {fd : Fd} (h : loop.register_ fd = none)
    (mask : Mask) : loop.removeEvent fd mask = .ok loop := by
  simp only [removeEvent, h]

theorem callbackOf_eq_none {loop : XLoop κ} {fd : Fd} :
    loop.callbackOf fd = none ↔ loop.register_ fd = none :=
  Option.map_eq_none_iff

/-- Changing the mask of an entry changes no callback. -/
theorem callbackOf_update_mask {loop : XLoop κ} {fd : Fd} {xes : XEventState κ}
    (hxes : loop.register_ fd = some xes) (mask : Mask) (poller : Interest) :
    (⟨Function.update loop.register_ fd (some { xes with mask := mask }), poller⟩ :
      XLoop κ).callbackOf = loop.callbackOf := by
  funext fd'
  by_cases hfd : fd' = fd
  · subst hfd
    simp only [callbackOf, Function.update_self, hxes, Option.map_some]
  · simp only [callbackOf, Function.update_of_ne hfd]

theorem reg_callbackOf {loop loop' : XLoop κ} {fd : Fd} {data : Int} {mask : Mask} {cb : κ}
    (h : loop.reg fd data mask cb = .ok loop') (fd' : Fd) :
    loop'.callbackOf fd' = if fd' = fd then some cb else loop.callbackOf fd' := by
  have hreg := reg_register h
  by_cases hfd : fd' = fd
  · rw [if_pos hfd, callbackOf, hreg, hfd, Function.update_self, Option.map_some]
  · rw [if_neg hfd, callbackOf, hreg, Function.update_of_ne hfd, callbackOf]

theorem remove_callbackOf {loop loop' : XLoop κ} {fd : Fd} (h : loop.remove fd = .ok loop')
    (fd' : Fd) : loop'.callbackOf fd' = if fd' = fd then none else loop.callbackOf fd' := by
  have hreg := remove_register h
  by_cases hfd : fd' = fd
  · rw [if_pos hfd, callbackOf, hreg, hfd, Function.update_self, Option.map_none]
  · rw [if_neg hfd, callbackOf, hreg, Function.update_of_ne hfd, callbackOf]

theorem addEvent_callbackOf {loop loop' : XLoop κ} {fd : Fd} {mask : Mask}
    (h : loop.addEvent fd mask = .ok loop') : loop'.callbackOf = loop.callbackOf := by
  unfold addEvent at h
  cases hxes : loop.register_ fd with
  | none =>
    simp only [hxes, Except.ok.injEq] at h
    rw [h]
  | some xes =>
    by_cases hbit : xes.mask &&& mask ≠ 0
    · simp only [hxes, if_pos hbit, Except.ok.injEq] at h
      rw [h]
    · simp only [hxes, if_neg hbit] at h
      obtain ⟨poller, _, h⟩ := bind_eq_ok h
      cases h
      exact callbackOf_update_mask hxes _ poller

/-- `removeEvent` takes no registration away either: the mask it computes is
    never empty. -/
theorem removeEvent_callbackOf_eq {loop loop' : XLoop κ} {fd : Fd} {mask : Mask}
    (h : loop.removeEvent fd mask = .ok loop') : loop'.callbackOf = loop.callbackOf := by
  unfold removeEvent at h
  cases hxes : loop.register_ fd with
  | none =>
    simp only [hxes, Except.ok.injEq] at h
    rw [h]
  | some xes =>
    by_cases hbit : xes.mask &&& mask = 0
    · simp only [hxes, if_pos hbit, Except.ok.injEq] at h
      rw [h]
    · simp only [hxes, if_neg hbit, if_neg (Mask.or_not_ne_none hbit)] at h
      obtain ⟨poller, _, h⟩ := bind_eq_ok h
      cases h
      exact callbackOf_update_mask hxes _ poller

theorem removeEvent_callbackOf {loop loop' : XLoop κ} {fd : Fd} {mask : Mask}
    (h : loop.removeEvent fd mask = .ok loop') (fd' : Fd) (cb : κ)
    (hcb : loop'.callbackOf fd' = some cb) : loop.callbackOf fd' = some cb := by
  rwa [removeEvent_callbackOf_eq h] at hcb

/-- The only way in which `reg` does not return is its `assert`. -/
theorem reg_error {loop : XLoop κ} {fd : Fd} {data : Int} {mask : Mask} {cb : κ} {e : Halt}
    (h : loop.reg fd data mask cb = .error e) : e = .assertFailed := by
  unfold reg at h
  cases hmod : (loop.register_ fd).isSome with
  | true =>
    cases hctl : XEpoller.modify loop.poller_ fd mask with
    | error e' =>
      simp only [hmod, hctl, if_true, error_bind, Except.error.injEq] at h
      exact h ▸ XEpoller.ctrl_error hctl
    | ok poller => simp [hmod, hctl] at h
  | false =>
    cases hctl : XEpoller.add loop.poller_ fd mask with
    | error e' =>
      simp only [hmod, hctl, Bool.false_eq_true, if_false, error_bind, Except.error.injEq] at h
      exact h ▸ XEpoller.ctrl_error hctl
    | ok poller => simp [hmod, hctl] at h

theorem addEvent_error {loop : XLoop κ} {fd : Fd} {mask : Mask} {e : Halt}
    (h : loop.addEvent fd mask = .error e) : e = .assertFailed := by
  unfold addEvent at h
  cases hxes : loop.register_ fd with
  | none => simp [hxes] at h
  | some xes =>
    by_cases hbit : xes.mask &&& mask ≠ 0
    · simp only [hxes, if_pos hbit] at h
      cases h
    · cases hctl : XEpoller.modify loop.poller_ fd (xes.mask ||| mask) with
      | error e' =>
        simp only [hxes, if_neg hbit, hctl, error_bind, Except.error.injEq] at h
        exact h ▸ XEpoller.ctrl_error hctl
      | ok poller =>
        simp only [hxes, if_neg hbit, hctl, ok_bind, pure_eq_ok] at h
        cases h

end XLoop

end XFast
