import XFast.Framework.Program

/-! # Loops and their progress

    A loop repeats a body for as long as the body returns `true`; it is
    modelled with a bound on the number of rounds, and ends with an error of
    its own when the bound is used up.  A loop makes progress if it ends
    within some bound, and every round that goes on makes a measure smaller.

    * `progresses_iff`: it does exactly if each single round that is reached
      does: it leaves the loop, or makes the measure smaller.
    * `exhausts_of_again`: a loop whose rounds always go on never ends. -/

namespace Program

variable {ε σ : Type}

/-- At most `fuel` rounds of the body. -/
def repeatFor (exhausted : ε) (body : Program ε σ Bool) : (fuel : Nat) → Program ε σ Unit
  | 0 => throw exhausted
  | fuel + 1 => do
      let again ← body
      if again then repeatFor exhausted body fuel else pure ()

/-- Some rounds that go on lead from one state to the other. -/
inductive Rounds (body : Program ε σ Bool) : σ → σ → Prop where
  | refl (s : σ) : Rounds body s s
  | head {s s₁ s' : σ} (h : body.run s = .ok true s₁) (hrest : Rounds body s₁ s') :
      Rounds body s s'

/-- The round leaves the loop, by a return or by a tolerated error, or makes
    the measure smaller. -/
def RoundProgresses (body : Program ε σ Bool) (tolerated : ε → Prop) (measure : σ → Nat)
    (s : σ) : Prop :=
  match body.run s with
  | .ok true s' => measure s' < measure s
  | .ok false _ => True
  | .error e _ => tolerated e

/-- The loop ends, by a return or by a tolerated error, and every round of it
    that goes on makes the measure smaller. -/
structure Progresses (exhausted : ε) (body : Program ε σ Bool) (tolerated : ε → Prop)
    (measure : σ → Nat) (s : σ) : Prop where
  ends : ∃ fuel, wp (repeatFor exhausted body fuel) (fun _ _ => True) (fun e _ => tolerated e) s
  smaller : ∀ s₁ s₂, Rounds body s s₁ → body.run s₁ = .ok true s₂ → measure s₂ < measure s₁

variable {exhausted : ε} {body : Program ε σ Bool} {tolerated : ε → Prop} {measure : σ → Nat}
  {s : σ}

/-- What every round that goes on keeps holds after any number of them. -/
theorem Rounds.invariant {I : σ → Prop} (hstep : ∀ s s', I s → body.run s = .ok true s' → I s')
    {s' : σ} (h : Rounds body s s') (hI : I s) : I s' := by
  induction h with
  | refl s => exact hI
  | head hfirst _ ih => exact ih (hstep _ _ hI hfirst)

theorem roundProgresses_iff_wp :
    RoundProgresses body tolerated measure s ↔
      wp body (fun again s' => again = true → measure s' < measure s)
        (fun e _ => tolerated e) s := by
  unfold RoundProgresses wp
  cases body.run s with
  | ok again s' => cases again <;> simp
  | error e s' => rfl

theorem wp_repeatFor_succ {Q : Unit → σ → Prop} {E : ε → σ → Prop} (fuel : Nat) :
    wp (repeatFor exhausted body (fuel + 1)) Q E s ↔
      match body.run s with
      | .ok true s' => wp (repeatFor exhausted body fuel) Q E s'
      | .ok false s' => Q () s'
      | .error e s' => E e s' := by
  show wp (body >>= fun again => _) Q E s ↔ _
  rw [wp_bind]
  unfold wp
  cases hrun : body.run s with
  | ok again s' => cases again <;> rfl
  | error e s' => rfl

/-- A body that keeps an invariant as long as it goes on meets only the errors
    that it meets there. -/
theorem errors_of_invariant {I : σ → Prop} (hexhausted : tolerated exhausted) (h : ∀ s, I s →
      wp body (fun again s' => again = true → I s') (fun e _ => tolerated e) s) (fuel : Nat) :
    ∀ s, I s → wp (repeatFor exhausted body fuel) (fun _ _ => True) (fun e _ => tolerated e) s := by
  induction fuel with
  | zero => exact fun s _ => hexhausted
  | succ fuel ih =>
    intro s hI
    have hround := h s hI
    rw [wp_repeatFor_succ]
    unfold wp at hround
    cases hrun : body.run s with
    | ok again s' =>
      rw [hrun] at hround
      cases again with
      | true => exact ih s' (hround rfl)
      | false => trivial
    | error e s' =>
      rw [hrun] at hround
      exact hround

/-- A body that always goes on uses any bound up. -/
theorem exhausts_of_again {I : σ → Prop} (h : ∀ s, I s →
      wp body (fun again s' => again = true ∧ I s') (fun _ _ => False) s) (fuel : Nat) :
    ∀ s, I s → wp (repeatFor exhausted body fuel) (fun _ _ => False)
      (fun e _ => e = exhausted) s := by
  induction fuel with
  | zero => exact fun s _ => rfl
  | succ fuel ih =>
    intro s hI
    obtain ⟨again, s', hrun, hagain, hI'⟩ := returns_of_wp (h s hI)
    rw [wp_repeatFor_succ, hrun, hagain]
    exact ih s' hI'

/-- Induction on the measure: rounds that progress bring the loop to its end. -/
theorem ends_of_rounds (n : Nat) : ∀ s, measure s = n →
    (∀ s₁, Rounds body s s₁ → RoundProgresses body tolerated measure s₁) →
      ∃ fuel, wp (repeatFor exhausted body fuel) (fun _ _ => True) (fun e _ => tolerated e) s := by
  induction n using Nat.strongRecOn with
  | ind n ih =>
    intro s hn h
    have hround := h s (.refl s)
    unfold RoundProgresses at hround
    cases hrun : body.run s with
    | ok again s' =>
      rw [hrun] at hround
      cases again with
      | false =>
        refine ⟨1, ?_⟩
        rw [wp_repeatFor_succ, hrun]
        trivial
      | true =>
        obtain ⟨fuel, hfuel⟩ := ih (measure s') (hn ▸ hround) s' rfl
          fun s₁ h₁ => h s₁ (.head hrun h₁)
        refine ⟨fuel + 1, ?_⟩
        rw [wp_repeatFor_succ, hrun]
        exact hfuel
    | error e s' =>
      rw [hrun] at hround
      refine ⟨1, ?_⟩
      rw [wp_repeatFor_succ, hrun]
      exact hround

/-- A loop that ends in a tolerated way meets no error that is not tolerated. -/
theorem tolerated_of_ends (hexhausted : ¬ tolerated exhausted) {s₁ : σ}
    (h : Rounds body s s₁) : ∀ fuel,
      wp (repeatFor exhausted body fuel) (fun _ _ => True) (fun e _ => tolerated e) s →
        ∀ e s₂, body.run s₁ = .error e s₂ → tolerated e := by
  induction h with
  | refl s =>
    intro fuel hends e s₂ herr
    cases fuel with
    | zero => exact absurd hends hexhausted
    | succ fuel =>
      rw [wp_repeatFor_succ, herr] at hends
      exact hends
  | head hfirst _ ih =>
    intro fuel hends
    cases fuel with
    | zero => exact absurd hends hexhausted
    | succ fuel =>
      rw [wp_repeatFor_succ, hfirst] at hends
      exact ih fuel hends

/-- The loop makes progress exactly if every round that is reached does. -/
theorem progresses_iff (hexhausted : ¬ tolerated exhausted) :
    Progresses exhausted body tolerated measure s ↔
      ∀ s₁, Rounds body s s₁ → RoundProgresses body tolerated measure s₁ := by
  constructor
  · intro h s₁ hreach
    obtain ⟨fuel, hends⟩ := h.ends
    unfold RoundProgresses
    cases hrun : body.run s₁ with
    | ok again s₂ =>
      cases again with
      | false => trivial
      | true => exact h.smaller s₁ s₂ hreach hrun
    | error e s₂ => exact tolerated_of_ends hexhausted hreach fuel hends e s₂ hrun
  · intro h
    refine ⟨ends_of_rounds (measure s) s rfl h, ?_⟩
    intro s₁ s₂ hreach hrun
    have hround := h s₁ hreach
    rw [RoundProgresses, hrun] at hround
    exact hround

end Program
