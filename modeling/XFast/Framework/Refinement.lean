import Mathlib.Logic.Basic

/-! # Refinement of a data type by operation sequences

    A concrete data type has partial operations: an operation returns an
    output and a new state, or it ends with an error.  An abstract data type
    has total operations.  The concrete type refines the abstract one when
    each of its operations, called within its precondition from a related
    state, either agrees with the abstract operation or ends with an error
    that the caller admits.

    The run lemma lifts this from one operation to every finite sequence.

    Where the abstract operations are partial, the abstract type says which
    sequences are allowed: `run_follows` is the run lemma for those. -/

namespace Refinement

variable {Op C A Out ε : Type}

/-- Run a sequence of concrete operations, collecting the outputs. -/
def runOps (step : Op → C → Except ε (Out × C)) : List Op → C → Except ε (List Out × C)
  | [], c => .ok ([], c)
  | op :: ops, c =>
      match step op c with
      | .error e => .error e
      | .ok (out, c') =>
          match runOps step ops c' with
          | .error e => .error e
          | .ok (outs, c'') => .ok (out :: outs, c'')

/-- Run a sequence of abstract operations, collecting the outputs. -/
def runSpec (spec : Op → A → Out × A) : List Op → A → List Out × A
  | [], a => ([], a)
  | op :: ops, a =>
      let (out, a') := spec op a
      let (outs, a'') := runSpec spec ops a'
      (out :: outs, a'')

/-- Every operation of the sequence is called within its precondition. -/
def Admissible (step : Op → C → Except ε (Out × C)) (pre : Op → C → Prop) :
    List Op → C → Prop
  | [], _ => True
  | op :: ops, c =>
      pre op c ∧
        match step op c with
        | .error _ => True
        | .ok (_, c') => Admissible step pre ops c'

instance Admissible.decidable (step : Op → C → Except ε (Out × C)) (pre : Op → C → Prop)
    [∀ op c, Decidable (pre op c)] :
    ∀ (ops : List Op) (c : C), Decidable (Admissible step pre ops c)
  | [], _ => isTrue trivial
  | op :: ops, c =>
      have : Decidable (match step op c with
          | .error _ => True
          | .ok (_, c') => Admissible step pre ops c') :=
        match step op c with
        | .error _ => isTrue trivial
        | .ok (_, c') => Admissible.decidable step pre ops c'
      inferInstanceAs (Decidable (_ ∧ _))

/-- One operation agrees with the abstract one or ends with an admitted error. -/
def StepRefines (R : C → A → Prop) (step : Op → C → Except ε (Out × C))
    (spec : Op → A → Out × A) (admitted : Op → C → ε → Prop) (op : Op) (c : C) (a : A) :
    Prop :=
  (∃ c', step op c = .ok ((spec op a).1, c') ∧ R c' (spec op a).2) ∨
    (∃ e, step op c = .error e ∧ admitted op c e)

/-- A sequence agrees with the abstract one, or it stops at an operation that
    ends with an admitted error. -/
def RunRefines (R : C → A → Prop) (step : Op → C → Except ε (Out × C))
    (spec : Op → A → Out × A) (admitted : Op → C → ε → Prop) (ops : List Op) (c : C) (a : A) :
    Prop :=
  (∃ c', runOps step ops c = .ok ((runSpec spec ops a).1, c') ∧ R c' (runSpec spec ops a).2) ∨
    (∃ done op rest c' e, ops = done ++ op :: rest ∧
      runOps step done c = .ok ((runSpec spec done a).1, c') ∧
      R c' (runSpec spec done a).2 ∧ admitted op c' e ∧ runOps step ops c = .error e)

theorem run_refines {R : C → A → Prop} {step : Op → C → Except ε (Out × C)}
    {spec : Op → A → Out × A} {pre : Op → C → Prop} {admitted : Op → C → ε → Prop}
    (hstep : ∀ op c a, R c a → pre op c → StepRefines R step spec admitted op c a) :
    ∀ (ops : List Op) (c : C) (a : A), R c a → Admissible step pre ops c →
      RunRefines R step spec admitted ops c a := by
  intro ops
  induction ops with
  | nil =>
    intro c a hR _
    exact Or.inl ⟨c, rfl, hR⟩
  | cons op ops ih =>
    intro c a hR hadm
    obtain ⟨hpre, hrest⟩ := hadm
    rcases hstep op c a hR hpre with ⟨c₁, hok, hR₁⟩ | ⟨e, herr, hadmitted⟩
    · -- the first operation agrees: the induction hypothesis decides the rest
      rw [hok] at hrest
      rcases ih c₁ _ hR₁ hrest with
        ⟨c₂, hrun, hR₂⟩ | ⟨done, op', rest, c₂, e, hsplit, hdone, hR₂, hadmitted, hrun⟩
      · exact Or.inl ⟨c₂, by simp [runOps, runSpec, hok, hrun], hR₂⟩
      · refine Or.inr ⟨op :: done, op', rest, c₂, e, by simp [hsplit], ?_, hR₂, hadmitted, ?_⟩
        · simp [runOps, runSpec, hok, hdone]
        · simp [runOps, hok, hrun]
    · exact Or.inr ⟨[], op, ops, c, e, rfl, rfl, hR, hadmitted, by simp [runOps, herr]⟩

/-! ## Partial abstract operations -/

/-- Run a sequence of abstract operations, each of which has to be allowed. -/
def runAllowed (spec : Op → A → Option (Out × A)) : List Op → A → Option (List Out × A)
  | [], a => some ([], a)
  | op :: ops, a =>
      match spec op a with
      | none => none
      | some (out, a') =>
          match runAllowed spec ops a' with
          | none => none
          | some (outs, a'') => some (out :: outs, a'')

/-- The concrete sequence gives these outputs and ends in a related state, or
    it stops at an operation that ends with an admitted error, after others
    that agree with the abstract ones. -/
def RunFollows (R : C → A → Prop) (step : Op → C → Except ε (Out × C))
    (spec : Op → A → Option (Out × A)) (admitted : Op → C → ε → Prop) (ops : List Op) (c : C)
    (a : A) (outs : List Out) (a' : A) : Prop :=
  (∃ c', runOps step ops c = .ok (outs, c') ∧ R c' a') ∨
    (∃ done op rest c' outs' a'' e, ops = done ++ op :: rest ∧
      runAllowed spec done a = some (outs', a'') ∧ runOps step done c = .ok (outs', c') ∧
      R c' a'' ∧ admitted op c' e ∧ runOps step ops c = .error e)

theorem runAllowed_cons {spec : Op → A → Option (Out × A)} {op : Op} {ops : List Op} {a a'' : A}
    {outs : List Out} (h : runAllowed spec (op :: ops) a = some (outs, a'')) :
    ∃ out a' rest, spec op a = some (out, a') ∧ runAllowed spec ops a' = some (rest, a'') ∧
      outs = out :: rest := by
  unfold runAllowed at h
  cases hspec : spec op a with
  | none =>
    rw [hspec] at h
    cases h
  | some first =>
    obtain ⟨out, a'⟩ := first
    rw [hspec] at h
    dsimp only at h
    cases hrest : runAllowed spec ops a' with
    | none =>
      rw [hrest] at h
      cases h
    | some last =>
      obtain ⟨rest, a₁⟩ := last
      rw [hrest] at h
      cases h
      exact ⟨out, a', rest, rfl, hrest, rfl⟩

theorem run_follows {R : C → A → Prop} {step : Op → C → Except ε (Out × C)}
    {spec : Op → A → Option (Out × A)} {admitted : Op → C → ε → Prop}
    (hstep : ∀ op c a out a', R c a → spec op a = some (out, a') →
      (∃ c', step op c = .ok (out, c') ∧ R c' a') ∨ ∃ e, step op c = .error e ∧ admitted op c e) :
    ∀ (ops : List Op) (c : C) (a : A) (outs : List Out) (a' : A), R c a →
      runAllowed spec ops a = some (outs, a') →
        RunFollows R step spec admitted ops c a outs a' := by
  intro ops
  induction ops with
  | nil =>
    intro c a outs a' hR hrun
    cases hrun
    exact Or.inl ⟨c, rfl, hR⟩
  | cons op ops ih =>
    intro c a outs a' hR hrun
    obtain ⟨out, a₁, rest, hspec, hrest, rfl⟩ := runAllowed_cons hrun
    rcases hstep op c a out a₁ hR hspec with ⟨c₁, hok, hR₁⟩ | ⟨e, herr, hadmitted⟩
    · -- the first operation agrees: the induction hypothesis decides the rest
      rcases ih c₁ a₁ rest a' hR₁ hrest with
        ⟨c₂, hruns, hR₂⟩ | ⟨done, op', rest', c₂, outs', a₂, e, hsplit, hallowed, hdone, hR₂,
          hadmitted, hstops⟩
      · exact Or.inl ⟨c₂, by simp only [runOps, hok, hruns], hR₂⟩
      · refine Or.inr ⟨op :: done, op', rest', c₂, out :: outs', a₂, e, ?_, ?_, ?_, hR₂,
          hadmitted, ?_⟩
        · rw [hsplit, List.cons_append]
        · simp only [runAllowed, hspec, hallowed]
        · simp only [runOps, hok, hdone]
        · simp only [runOps, hok, hstops]
    · exact Or.inr ⟨[], op, ops, c, [], a, e, rfl, rfl, rfl, hR, hadmitted, by
        simp only [runOps, herr]⟩

end Refinement
