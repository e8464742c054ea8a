import Mathlib.Data.List.Basic

/-! # Objects that hold each other by counted pointers

    An object is destroyed when no pointer to it is left: none outside of all
    objects, and none in the members of an object that exists.  The members of
    an object are pointers as long as it exists, and go with it.

    * `SelfHeld`: a set of objects of which each is held by another one.
    * `SelfHeld.not_unheld`: none of them is ever destroyed.
    * `SelfHeld.mono`, `SelfHeld.destroy`: what a step may do without breaking
      the set up. -/

namespace References

variable {Obj : Type} [DecidableEq Obj]

/-- The objects that exist, the pointers in the members of each, and the
    pointers outside of all objects. -/
structure Heap (Obj : Type) where
  objects : List Obj
  members : Obj → List Obj
  outside : List Obj

/-- There is a pointer to `o`. -/
def Held (h : Heap Obj) (o : Obj) : Prop :=
  o ∈ h.outside ∨ ∃ p ∈ h.objects, o ∈ h.members p

instance (h : Heap Obj) (o : Obj) : Decidable (Held h o) :=
  inferInstanceAs (Decidable (_ ∨ _))

/-- The last pointer to `o` has gone. -/
def Unheld (h : Heap Obj) (o : Obj) : Prop := o ∈ h.objects ∧ ¬Held h o

instance (h : Heap Obj) (o : Obj) : Decidable (Unheld h o) := inferInstanceAs (Decidable (_ ∧ _))

/-- Each object of the set exists and is held by a member of one of the set. -/
structure SelfHeld (h : Heap Obj) (S : Obj → Prop) : Prop where
  exist : ∀ o, S o → o ∈ h.objects
  held : ∀ o, S o → ∃ p, S p ∧ o ∈ h.members p

variable {h h' : Heap Obj} {S : Obj → Prop} {o : Obj}

omit [DecidableEq Obj] in
theorem SelfHeld.not_unheld (hself : SelfHeld h S) (ho : S o) : ¬Unheld h o := by
  intro hlast
  obtain ⟨p, hp, hmember⟩ := hself.held o ho
  exact hlast.2 (Or.inr ⟨p, hself.exist p hp, hmember⟩)

omit [DecidableEq Obj] in
/-- A step that destroys nothing of the set and takes no pointer out of it. -/
theorem SelfHeld.mono (hself : SelfHeld h S) (hobjects : ∀ o, S o → o ∈ h.objects → o ∈ h'.objects)
    (hmembers : ∀ p o, S p → S o → o ∈ h.members p → o ∈ h'.members p) : SelfHeld h' S where
  exist o ho := hobjects o ho (hself.exist o ho)
  held o ho := by
    obtain ⟨p, hp, hmember⟩ := hself.held o ho
    exact ⟨p, hp, hmembers p o hp ho hmember⟩

/-- An object whose last pointer has gone is not of the set. -/
theorem SelfHeld.destroy (hself : SelfHeld h S) (hlast : Unheld h o) {outside : List Obj} :
    SelfHeld ⟨h.objects.filter (· ≠ o), h.members, outside⟩ S := by
  refine hself.mono (fun p hp hmem => ?_) (fun _ _ _ _ hmember => hmember)
  rw [List.mem_filter, decide_eq_true_eq]
  refine ⟨hmem, ?_⟩
  rintro rfl
  exact hself.not_unheld hp hlast

end References
