import XFast.Base.InterestList
import XFast.Framework.BitSet
import XFast.Framework.Steps

/-! # Event masks as sets

    What the registry is for, on masks alone: a map from descriptors to sets
    of events, into which `addEvent` puts events and from which `removeEvent`
    takes events.  The registry follows this map as long as no `addEvent` asks
    for events of which some are there and some are not, and no `removeEvent`
    asks for an event that is there. -/

namespace XFast

open Steps

/-! ## Section 1: The map of sets -/

/-- The registered events of each registered descriptor. -/
abbrev EventMap : Type := Fd → Option (Finset (Fin 32))

namespace EventMap

variable {κ : Type} (events : EventMap) (fd : Fd) (mask : Mask)

/-- The map that the constructor of the loop stands for. -/
def create (wakeupFd : Fd) : EventMap :=
  Function.update (fun _ => none) wakeupFd (some (BitSet.bits XE_READABLE))

def reg : EventMap := Function.update events fd (some (BitSet.bits mask))

def remove : EventMap := Function.update events fd none

/-- The old set united with the new one. -/
def addEvent : EventMap :=
  match events fd with
  | none => events
  | some old => Function.update events fd (some (old ∪ BitSet.bits mask))

/-- The old set minus the given one; an entry with nothing left is deleted. -/
def removeEvent : EventMap :=
  match events fd with
  | none => events
  | some old =>
      if old \ BitSet.bits mask = ∅ then events.remove fd
      else Function.update events fd (some (old \ BitSet.bits mask))

def apply : RegistryOp κ → EventMap
  | .reg fd _ mask _ => events.reg fd mask
  | .remove fd => events.remove fd
  | .addEvent fd mask => events.addEvent fd mask
  | .removeEvent fd mask => events.removeEvent fd mask

variable {events fd}

theorem addEvent_of_some {old : Finset (Fin 32)} (h : events fd = some old) :
    events.addEvent fd mask = Function.update events fd (some (old ∪ BitSet.bits mask)) := by
  simp only [addEvent, h]

theorem removeEvent_of_some {old : Finset (Fin 32)} (h : events fd = some old) :
    events.removeEvent fd mask = Function.update events fd
      (if old \ BitSet.bits mask = ∅ then none else some (old \ BitSet.bits mask)) := by
  simp only [removeEvent, h, remove]
  split <;> rfl

theorem addEvent_of_none (h : events fd = none) : events.addEvent fd mask = events := by
  simp only [addEvent, h]

theorem removeEvent_of_none (h : events fd = none) : events.removeEvent fd mask = events := by
  simp only [removeEvent, h]

end EventMap

/-! ## Section 2: The registry beside the map -/

namespace XLoop

variable {κ : Type}

/-- The events registered for each descriptor. -/
def eventsOf (loop : XLoop κ) : EventMap := fun fd => (loop.maskOf fd).map BitSet.bits

/-- The map says of each descriptor what is registered for it. -/
def Follows (loop : XLoop κ) (events : EventMap) : Prop := loop.eventsOf = events

theorem eventsOf_of_register {loop : XLoop κ} {fd : Fd} {entry : Option (XEventState κ)}
    {loop' : XLoop κ} (h : loop'.register_ = Function.update loop.register_ fd entry) :
    loop'.eventsOf =
      Function.update loop.eventsOf fd (entry.map fun xes => BitSet.bits xes.mask) := by
  funext fd'
  by_cases hfd : fd' = fd
  · subst hfd
    simp only [eventsOf, maskOf, h, Function.update_self, Option.map_map]
    rfl
  · simp only [eventsOf, maskOf, h, Function.update_of_ne hfd]

theorem eventsOf_of_some {loop : XLoop κ} {fd : Fd} {xes : XEventState κ}
    (h : loop.register_ fd = some xes) : loop.eventsOf fd = some (BitSet.bits xes.mask) := by
  simp only [eventsOf, maskOf, h, Option.map_some]

theorem eventsOf_of_none {loop : XLoop κ} {fd : Fd} (h : loop.register_ fd = none) :
    loop.eventsOf fd = none := by
  simp only [eventsOf, maskOf, h, Option.map_none]

end XLoop

/-- A loop and the map beside it, to which the same operations are applied. -/
structure Registered (κ : Type) where
  loop : XLoop κ
  events : EventMap

namespace Registered

variable {κ : Type}

def step (s : Registered κ) (op : RegistryOp κ) : Option (Registered κ) :=
  match s.loop.apply op with
  | .ok loop => some ⟨loop, s.events.apply op⟩
  | .error _ => none

/-- The operation returns, and then each registered mask is that of the map. -/
def AgreesAfter (s : Registered κ) (op : RegistryOp κ) : Prop :=
  ∃ s', s.step op = some s' ∧ s'.loop.Follows s'.events

/-- An `addEvent` on a registered descriptor asks for events of which none is
    registered, or of which all are; a `removeEvent` on one with some events
    asks for none of them. -/
def AllOrNone (s : Registered κ) : RegistryOp κ → Prop
  | .reg _ _ _ _ | .remove _ => True
  | .addEvent fd mask => ∀ old, s.loop.maskOf fd = some old →
      old &&& mask = 0 ∨ old ||| mask = old
  | .removeEvent fd mask => ∀ old, s.loop.maskOf fd = some old →
      old ≠ XE_NONE ∧ old &&& mask = 0

theorem step_of_ok {s : Registered κ} {op : RegistryOp κ} {loop' : XLoop κ}
    (h : s.loop.apply op = .ok loop') : s.step op = some ⟨loop', s.events.apply op⟩ := by
  simp only [step, h]

/-! ## Section 3: One operation -/

/-- `addEvent` on a registered descriptor gives the union exactly if none of
    the events, or all of them, were registered. -/
theorem follows_addEvent_iff {loop loop' : XLoop κ} {fd : Fd} {mask : Mask}
    {xes : XEventState κ} (hxes : loop.register_ fd = some xes)
    (h : loop.addEvent fd mask = .ok loop') :
    loop'.Follows (loop.eventsOf.addEvent fd mask) ↔
      xes.mask &&& mask = 0 ∨ xes.mask ||| mask = xes.mask := by
  unfold XLoop.Follows
  rw [XLoop.eventsOf_of_register (XLoop.addEvent_register hxes h),
    EventMap.addEvent_of_some mask (XLoop.eventsOf_of_some hxes),
    (Function.update_injective _ fd).eq_iff, Option.map_some, Option.some.injEq, ← BitSet.bits_or,
    BitSet.bits_inj]
  by_cases hbit : xes.mask &&& mask = 0
  · rw [if_neg (not_not_intro hbit)]
    exact iff_of_true rfl (Or.inl hbit)
  · rw [if_pos hbit]
    constructor
    · intro hsame
      exact Or.inr hsame.symm
    · intro hor
      exact (hor.resolve_left hbit).symm

/-- `removeEvent` on a registered descriptor gives the difference exactly if
    nothing is to be removed from a mask that is not empty.  When something is
    to be removed it is still there afterwards. -/
theorem follows_removeEvent_iff {loop loop' : XLoop κ} {fd : Fd} {mask : Mask}
    {xes : XEventState κ} (hxes : loop.register_ fd = some xes)
    (h : loop.removeEvent fd mask = .ok loop') :
    loop'.Follows (loop.eventsOf.removeEvent fd mask) ↔
      xes.mask ≠ XE_NONE ∧ xes.mask &&& mask = 0 := by
  unfold XLoop.Follows
  rw [EventMap.removeEvent_of_some mask (XLoop.eventsOf_of_some hxes), ← BitSet.bits_and_not]
  by_cases hbit : xes.mask &&& mask = 0
  · have hsame : loop' = loop := by
      simp only [XLoop.removeEvent, hxes, if_pos hbit, Except.ok.injEq] at h
      exact h.symm
    have hrest : BitSet.bits (xes.mask &&& ~~~mask) = BitSet.bits xes.mask := by
      rw [BitSet.bits_and_not]
      exact Finset.sdiff_eq_self_of_disjoint (BitSet.and_eq_zero_iff.mp hbit)
    rw [hsame, hrest, ← Function.update_eq_self fd loop.eventsOf, Function.update_idem,
      (Function.update_injective _ fd).eq_iff, XLoop.eventsOf_of_some hxes]
    by_cases hnone : xes.mask = XE_NONE
    · rw [if_pos (BitSet.bits_eq_empty.mpr hnone)]
      simp [hnone]
    · rw [if_neg (fun hempty => hnone (BitSet.bits_eq_empty.mp hempty))]
      simp [hnone, hbit]
  · obtain ⟨hreg, hstill⟩ := XLoop.removeEvent_register hxes hbit h
    rw [XLoop.eventsOf_of_register hreg, (Function.update_injective _ fd).eq_iff, Option.map_some]
    refine iff_of_false ?_ (fun hboth => hbit hboth.2)
    split
    · simp
    · rw [Option.some.injEq, BitSet.bits_inj]
      intro heq
      have heq : xes.mask ||| ~~~mask = xes.mask &&& ~~~mask := heq
      rw [heq] at hstill
      apply hstill
      rw [BitSet.and_eq_zero_iff, BitSet.bits_and_not]
      exact Finset.sdiff_disjoint

/-- Where the registry follows the map, it does so after an operation exactly
    if the operation is all or none. -/
theorem agreesAfter_iff {s : Registered κ} (hsynced : s.loop.Synced)
    (hfollows : s.loop.Follows s.events) (op : RegistryOp κ) :
    s.AgreesAfter op ↔ s.AllOrNone op := by
  obtain ⟨loop', hop, _⟩ := hsynced.apply op
  have hagrees : s.AgreesAfter op ↔ loop'.Follows (s.events.apply op) := by
    simp only [AgreesAfter, step_of_ok hop, Option.some.injEq, exists_eq_left']
  rw [hagrees, ← hfollows]
  cases op with
  | reg fd data mask callback =>
    refine iff_of_true ?_ trivial
    exact XLoop.eventsOf_of_register (XLoop.reg_register hop)
  | remove fd =>
    refine iff_of_true ?_ trivial
    exact XLoop.eventsOf_of_register (XLoop.remove_register hop)
  | addEvent fd mask =>
    cases hxes : s.loop.register_ fd with
    | none =>
      have hsame := (XLoop.addEvent_of_none hxes mask).symm.trans hop
      cases hsame
      refine iff_of_true ?_ (by simp [AllOrNone, XLoop.maskOf, hxes])
      exact (EventMap.addEvent_of_none mask (XLoop.eventsOf_of_none hxes)).symm
    | some xes =>
      show loop'.Follows (s.loop.eventsOf.addEvent fd mask) ↔ _
      rw [follows_addEvent_iff hxes hop]
      simp [AllOrNone, XLoop.maskOf, hxes]
  | removeEvent fd mask =>
    cases hxes : s.loop.register_ fd with
    | none =>
      have hsame := (XLoop.removeEvent_of_none hxes mask).symm.trans hop
      cases hsame
      refine iff_of_true ?_ (by simp [AllOrNone, XLoop.maskOf, hxes])
      exact (EventMap.removeEvent_of_none mask (XLoop.eventsOf_of_none hxes)).symm
    | some xes =>
      show loop'.Follows (s.loop.eventsOf.removeEvent fd mask) ↔ _
      rw [follows_removeEvent_iff hxes hop]
      simp [AllOrNone, XLoop.maskOf, hxes]

/-! ## Section 4: Sequences of operations -/

/-- The registry is in step with the kernel and with the map. -/
def Sound (s : Registered κ) : Prop := s.loop.Synced ∧ s.loop.Follows s.events

theorem sound_step {s s' : Registered κ} {op : RegistryOp κ} (h : s.Sound)
    (hagrees : s.AgreesAfter op) (hstep : s.step op = some s') : s'.Sound := by
  obtain ⟨loop', hop, hsynced⟩ := h.1.apply op
  obtain ⟨s₁, h₁, hfollows⟩ := hagrees
  rw [hstep] at h₁
  cases h₁
  rw [step_of_ok hop] at hstep
  cases hstep
  exact ⟨hsynced, hfollows⟩

/-- **Event masks.**  For every sequence of operations on any descriptors with
    any masks, from the constructor of the loop on: after each operation the
    registered masks are those of the map of sets, exactly if each operation
    is all or none. -/
theorem masks_follow_sets_iff (wakeupFd : Fd) (wakeUpCallBack : κ) (ops : List (RegistryOp κ)) :
    ∃ loop, XLoop.create wakeupFd wakeUpCallBack = .ok loop ∧
      loop.Follows (EventMap.create wakeupFd) ∧
      (AllSteps step AgreesAfter ⟨loop, EventMap.create wakeupFd⟩ ops ↔
        AllSteps step AllOrNone ⟨loop, EventMap.create wakeupFd⟩ ops) := by
  obtain ⟨loop, hcreate, hsynced⟩ := XLoop.synced_create wakeupFd wakeUpCallBack
  have hfollows : loop.Follows (EventMap.create wakeupFd) :=
    XLoop.eventsOf_of_register (XLoop.reg_register hcreate)
  have hsound : Sound ⟨loop, EventMap.create wakeupFd⟩ := ⟨hsynced, hfollows⟩
  refine ⟨loop, hcreate, hfollows, ?_, ?_⟩
  · exact allSteps_mono (fun s op s' h hgood hstep => sound_step h hgood hstep)
      (fun s op h => (agreesAfter_iff h.1 h.2 op).mp) ops _ hsound
  · exact allSteps_mono
      (fun s op s' h hgood hstep => sound_step h ((agreesAfter_iff h.1 h.2 op).mpr hgood) hstep)
      (fun s op h => (agreesAfter_iff h.1 h.2 op).mpr) ops _ hsound

/-- A descriptor is registered for reading and writing and the writing is
    taken back: all 32 bits are registered.  Another one is registered for
    reading, and reading and writing are added: only reading is registered. -/
theorem removed_event_left_in : ∃ loop : XLoop Unit, XLoop.create 3 () = .ok loop ∧
    ∃ s, run step ⟨loop, EventMap.create 3⟩
      [.reg 5 0 (XE_READABLE ||| XE_WRITABLE) (), .removeEvent 5 XE_WRITABLE,
        .reg 6 0 XE_READABLE (), .addEvent 6 (XE_READABLE ||| XE_WRITABLE)] = some s ∧
    s.loop.maskOf 5 = some (BitVec.allOnes 32) ∧ s.events 5 = some {0} ∧
    s.loop.maskOf 6 = some XE_READABLE ∧ s.events 6 = some {0, 1} ∧
    ¬ s.loop.Follows s.events := by
  refine ⟨_, rfl, _, rfl, by decide +kernel, by decide +kernel, by decide +kernel,
    by decide +kernel, ?_⟩
  intro hfollows
  exact absurd (congrFun hfollows 6) (by decide +kernel)

end Registered

end XFast
