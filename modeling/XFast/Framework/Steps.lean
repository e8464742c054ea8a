import Mathlib.Logic.Basic

/-! # Runs of a labelled step function

    A system takes a step for a label, where the step is enabled; a run takes
    the steps of a list of labels, chosen by the environment.

    * `run_invariant`: what every step keeps, every run keeps.
    * `run_of_allSteps`: the same when only good steps keep it.
    * `run_iff_allSteps`: when a step keeps a property exactly if it is good,
      the property holds at the end of a run exactly if all its steps are
      good.
    * `allSteps_mono`: one goodness of steps follows from another, where it
      does so under an invariant.
    * `keeps_and_exact`: when good steps keep an invariant and every other step
      can still lead out of what the invariant gives, goodness is exact.
    * `run_map_of_simulates`: where each step of one system is a step of
      another, each run is a run. -/

namespace Steps

variable {State Label : Type}

/-- Take the steps of the labels, in order. -/
def run (step : State → Label → Option State) : State → List Label → Option State
  | s, [] => some s
  | s, l :: ls =>
      match step s l with
      | none => none
      | some s' => run step s' ls

/-- Every step of the run is good in the state in which it is taken. -/
def AllSteps (step : State → Label → Option State) (good : State → Label → Prop) :
    State → List Label → Prop
  | _, [] => True
  | s, l :: ls =>
      good s l ∧
        match step s l with
        | none => True
        | some s' => AllSteps step good s' ls

instance AllSteps.decidable (step : State → Label → Option State) (good : State → Label → Prop)
    [∀ s l, Decidable (good s l)] : ∀ s ls, Decidable (AllSteps step good s ls)
  | _, [] => isTrue trivial
  | s, l :: ls =>
      have : Decidable (match step s l with
          | none => True
          | some s' => AllSteps step good s' ls) :=
        match step s l with
        | none => isTrue trivial
        | some s' => AllSteps.decidable step good s' ls
      inferInstanceAs (Decidable (_ ∧ _))

variable {step : State → Label → Option State} {good : State → Label → Prop}
  {I C : State → Prop}

theorem run_cons {s s' : State} {l : Label} {ls : List Label}
    (h : run step s (l :: ls) = some s') : ∃ s₁, step s l = some s₁ ∧ run step s₁ ls = some s' := by
  unfold run at h
  cases hstep : step s l with
  | none =>
    rw [hstep] at h
    cases h
  | some s₁ =>
    rw [hstep] at h
    exact ⟨s₁, rfl, h⟩

theorem run_of_allSteps (hstep : ∀ s l s', I s → good s l → step s l = some s' → I s') :
    ∀ (ls : List Label) (s s' : State), I s → AllSteps step good s ls →
      run step s ls = some s' → I s' := by
  intro ls
  induction ls with
  | nil =>
    intro s s' hI _ hrun
    cases hrun
    exact hI
  | cons l ls ih =>
    intro s s' hI hgood hrun
    obtain ⟨s₁, h₁, hrest⟩ := run_cons hrun
    obtain ⟨hl, hls⟩ := hgood
    rw [h₁] at hls
    exact ih s₁ s' (hstep s l s₁ hI hl h₁) hls hrest

/-- Steps that are good in every state make good runs. -/
theorem allSteps_of_forall : ∀ (ls : List Label) (s : State), (∀ l ∈ ls, ∀ s, good s l) →
    AllSteps step good s ls := by
  intro ls
  induction ls with
  | nil => exact fun _ _ => trivial
  | cons l ls ih =>
    intro s h
    refine ⟨h l List.mem_cons_self s, ?_⟩
    cases step s l with
    | none => trivial
    | some s' => exact ih s' fun l' hl' => h l' (List.mem_cons_of_mem _ hl')

theorem run_invariant (hstep : ∀ s l s', I s → step s l = some s' → I s') (ls : List Label)
    (s s' : State) (hI : I s) (hrun : run step s ls = some s') : I s' := by
  have hall : AllSteps step (fun _ _ => True) s ls :=
    allSteps_of_forall ls s fun _ _ _ => trivial
  exact run_of_allSteps (fun s l s' hI _ h => hstep s l s' hI h) ls s s' hI hall hrun

theorem run_iff_allSteps (hstep : ∀ s l s', I s → step s l = some s' → I s')
    (hiff : ∀ s l s', I s → step s l = some s' → (C s' ↔ C s ∧ good s l)) :
    ∀ (ls : List Label) (s s' : State), I s → run step s ls = some s' →
      (C s' ↔ C s ∧ AllSteps step good s ls) := by
  intro ls
  induction ls with
  | nil =>
    intro s s' _ hrun
    cases hrun
    simp [AllSteps]
  | cons l ls ih =>
    intro s s' hI hrun
    obtain ⟨s₁, h₁, hrest⟩ := run_cons hrun
    rw [ih s₁ s' (hstep s l s₁ hI h₁) hrest, hiff s l s₁ hI h₁]
    simp only [AllSteps, h₁, and_assoc]

theorem run_cons_of_step {s s₁ s' : State} {l : Label} {ls : List Label}
    (hstep : step s l = some s₁) (hrun : run step s₁ ls = some s') :
    run step s (l :: ls) = some s' := by
  unfold run
  rw [hstep]
  exact hrun

/-- Good steps that keep `I` are good in every other way that follows from `I`. -/
theorem allSteps_mono {good' : State → Label → Prop}
    (hstep : ∀ s l s', I s → good s l → step s l = some s' → I s')
    (h : ∀ s l, I s → good s l → good' s l) :
    ∀ (ls : List Label) (s : State), I s → AllSteps step good s ls → AllSteps step good' s ls := by
  intro ls
  induction ls with
  | nil => exact fun _ _ _ => trivial
  | cons l ls ih =>
    intro s hI hall
    obtain ⟨hl, hls⟩ := hall
    refine ⟨h s l hI hl, ?_⟩
    cases hs : step s l with
    | none => trivial
    | some s' =>
      rw [hs] at hls
      exact ih s' (hstep s l s' hI hl hs) hls

/-- Good steps lead to a state with the property. -/
def Reaches (step : State → Label → Option State) (good : State → Label → Prop)
    (C : State → Prop) (s : State) : Prop :=
  ∃ ls s', AllSteps step good s ls ∧ run step s ls = some s' ∧ C s'

theorem Reaches.here {s : State} (h : C s) : Reaches step good C s := ⟨[], s, trivial, rfl, h⟩

theorem Reaches.of_step {s s₁ : State} {l : Label} (hstep : step s l = some s₁) (hgood : good s l)
    (h : Reaches step good C s₁) : Reaches step good C s := by
  obtain ⟨ls, s', hls, hrun, hC⟩ := h
  refine ⟨l :: ls, s', ⟨hgood, ?_⟩, run_cons_of_step hstep hrun, hC⟩
  rw [hstep]
  exact hls

theorem Reaches.trans {D : State → Prop} {s : State} (h : Reaches step good C s)
    (hC : ∀ s', C s' → Reaches step good D s') : Reaches step good D s := by
  obtain ⟨ls, s', hls, hrun, hs'⟩ := h
  induction ls generalizing s with
  | nil =>
    cases hrun
    exact hC _ hs'
  | cons l ls ih =>
    obtain ⟨s₁, h₁, hrest⟩ := run_cons hrun
    obtain ⟨hl, hall⟩ := hls
    rw [h₁] at hall
    exact .of_step h₁ hl (ih hall hrest)

/-- Good steps keep an invariant that gives `C`, and a step that is not good
    leaves a way out of `C` open: in a run of good steps `C` holds, and of the
    steps that are possible then exactly the good ones never lead out of it. -/
theorem keeps_and_exact {s₀ s : State} {ls : List Label} (hinit : I s₀)
    (hkeep : ∀ s l s', I s → good s l → step s l = some s' → I s') (hC : ∀ s, I s → C s)
    (hbad : ∀ s l s₁, I s → step s l = some s₁ → ¬ good s l →
      Reaches step good (fun s' => ¬ C s') s₁)
    (hgood : AllSteps step good s₀ ls) (hrun : run step s₀ ls = some s) :
    C s ∧ ∀ l s₁, step s l = some s₁ →
      (good s l ↔ ∀ ls' s', AllSteps step good s₁ ls' → run step s₁ ls' = some s' → C s') := by
  have hinv : I s := run_of_allSteps hkeep ls s₀ s hinit hgood hrun
  refine ⟨hC s hinv, ?_⟩
  intro l s₁ hstep
  constructor
  · intro hl ls' s' hgood' hrun'
    exact hC s' (run_of_allSteps hkeep ls' s₁ s' (hkeep s l s₁ hinv hl hstep) hgood' hrun')
  · intro hall
    refine Classical.byContradiction fun hnot => ?_
    obtain ⟨ls', s', hls, hrun', hout⟩ := hbad s l s₁ hinv hstep hnot
    exact hout (hall ls' s' hls hrun')

/-- A step of one system is a step of another, under another label. -/
theorem run_map_of_simulates {State' Label' : Type} {step' : State' → Label' → Option State'}
    {R : State → State' → Prop} {f : Label → Label'}
    (hsim : ∀ s t l s', R s t → step s l = some s' → ∃ t', step' t (f l) = some t' ∧ R s' t') :
    ∀ (ls : List Label) (s : State) (t : State') (s' : State), R s t → run step s ls = some s' →
      ∃ t', run step' t (ls.map f) = some t' ∧ R s' t' := by
  intro ls
  induction ls with
  | nil =>
    intro s t s' hR hrun
    cases hrun
    exact ⟨t, rfl, hR⟩
  | cons l ls ih =>
    intro s t s' hR hrun
    obtain ⟨s₁, h₁, hrest⟩ := run_cons hrun
    obtain ⟨t₁, ht₁, hR₁⟩ := hsim s t l s₁ hR h₁
    obtain ⟨t', ht', hR'⟩ := ih s₁ t₁ s' hR₁ hrest
    exact ⟨t', run_cons_of_step ht₁ ht', hR'⟩

end Steps
