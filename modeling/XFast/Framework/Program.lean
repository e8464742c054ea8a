import Mathlib.Logic.Basic

/-! # Sequential programs with state and errors

    A program reads and writes a state and either returns a value or ends
    with an error; the state it has reached survives the error, as it does in
    a language with exceptions.  Callbacks are programs too, passed in as
    parameters, so a program and the code it calls back into are verified
    against contracts.

    * `wp` is the weakest precondition: what must hold before a program for
      its outcome to satisfy a postcondition.
    * `Maintains` says that a program keeps an invariant.  Composite programs
      inherit it from their parts, whatever the parts do in between.
    * `Leaves` says that it ends in a weaker invariant than it starts in. -/

abbrev Program (ε σ α : Type) := EStateM ε σ α

namespace Program

variable {ε σ α β : Type}

/-! ## Section 1: Building blocks -/

/-- Run a partial pure computation; an error leaves the state alone. -/
def lift (x : Except ε α) : Program ε σ α :=
  match x with
  | .ok a => pure a
  | .error e => throw e

/-- Run `p`; on an error that `caught` selects, continue with `handler` from
    the state in which the error arose. -/
def catching (caught : ε → Bool) (p handler : Program ε σ α) : Program ε σ α := fun s =>
  match p s with
  | .error e s' => if caught e then handler s' else .error e s'
  | .ok a s' => .ok a s'

/-- Run `p`, and then `dtor`, also when an error that `unwinds` selects ends
    `p`: how a scope is left that holds an object with a destructor. -/
def withDestructor (unwinds : ε → Bool) (p : Program ε σ α) (dtor : Program ε σ Unit) :
    Program ε σ α := fun s =>
  match p s with
  | .ok a s' =>
      match dtor s' with
      | .ok _ s'' => .ok a s''
      | .error e s'' => .error e s''
  | .error e s' =>
      if unwinds e then
        match dtor s' with
        | .ok _ s'' => .error e s''
        | .error e' s'' => .error e' s''
      else .error e s'

/-- Run the programs of a list in order. -/
def sequence (step : β → Program ε σ Unit) : List β → Program ε σ Unit
  | [] => pure ()
  | b :: bs => do
      step b
      sequence step bs

/-- The next of the answers that the state holds for what the program asks of
    its environment; with none left the run ends with the error `exhausted`. -/
def nextAnswer (answers : σ → List α) (left : List α → σ → σ) (exhausted : ε) :
    Program ε σ α := do
  let s ← get
  match answers s with
  | [] => throw exhausted
  | a :: rest => do
      modify (left rest)
      return a

/-- Run a program on a part of the state. -/
def zoom {τ : Type} (part : σ → τ) (replace : τ → σ → σ) (p : Program ε τ α) :
    Program ε σ α := fun s =>
  match p (part s) with
  | .ok a t => .ok a (replace t s)
  | .error e t => .error e (replace t s)

/-- The state in which a run ends, normally or not. -/
def finalState : EStateM.Result ε σ α → σ
  | .ok _ s => s
  | .error _ s => s

@[simp] theorem finalState_ok (a : α) (s : σ) :
    finalState (.ok a s : EStateM.Result ε σ α) = s := rfl

@[simp] theorem finalState_error (e : ε) (s : σ) :
    finalState (.error e s : EStateM.Result ε σ α) = s := rfl

/-- The run ended normally. -/
def returned : EStateM.Result ε σ α → Bool
  | .ok _ _ => true
  | .error _ _ => false

theorem eq_ok_of_returned {r : EStateM.Result ε σ Unit} (h : returned r) :
    r = .ok () (finalState r) := by
  cases r with
  | ok _ _ => rfl
  | error _ _ => cases h

/-- The run ended with the error `e`. -/
def raised [DecidableEq ε] (e : ε) : EStateM.Result ε σ α → Bool
  | .ok _ _ => false
  | .error e' _ => e' = e

theorem eq_error_of_raised [DecidableEq ε] {e : ε} {r : EStateM.Result ε σ α}
    (h : raised e r) : r = .error e (finalState r) := by
  cases r with
  | ok _ _ => cases h
  | error e' s =>
    have heq : e' = e := of_decide_eq_true h
    rw [heq]
    rfl

/-! ## Section 2: Weakest preconditions -/

/-- Every outcome of `p` from `s` satisfies `Q` if it is a return and `E` if
    it is an error. -/
def wp (p : Program ε σ α) (Q : α → σ → Prop) (E : ε → σ → Prop) (s : σ) : Prop :=
  match p.run s with
  | .ok a s' => Q a s'
  | .error e s' => E e s'

variable {p : Program ε σ α} {Q Q' : α → σ → Prop} {E E' : ε → σ → Prop} {s : σ}

@[simp] theorem wp_pure (a : α) : wp (pure a) Q E s ↔ Q a s := Iff.rfl

@[simp] theorem wp_throw (e : ε) : wp (throw e) Q E s ↔ E e s := Iff.rfl

@[simp] theorem wp_get {Q : σ → σ → Prop} : wp get Q E s ↔ Q s s := Iff.rfl

@[simp] theorem wp_modify {Q : PUnit → σ → Prop} (f : σ → σ) :
    wp (modify f) Q E s ↔ Q ⟨⟩ (f s) := Iff.rfl

@[simp] theorem wp_bind {f : α → Program ε σ β} {Q : β → σ → Prop} :
    wp (p >>= f) Q E s ↔ wp p (fun a s' => wp (f a) Q E s') E s := by
  unfold wp
  rw [EStateM.run_bind]
  cases p.run s <;> rfl

@[simp] theorem wp_ite (c : Prop) [Decidable c] (q : Program ε σ α) :
    wp (if c then p else q) Q E s ↔ if c then wp p Q E s else wp q Q E s := by
  by_cases h : c <;> simp [h]

@[simp] theorem wp_lift_ok (a : α) : wp (lift (.ok a)) Q E s ↔ Q a s := Iff.rfl

@[simp] theorem wp_lift_error (e : ε) : wp (lift (.error e)) Q E s ↔ E e s := Iff.rfl

theorem wp_mono (hQ : ∀ a s', Q a s' → Q' a s') (hE : ∀ e s', E e s' → E' e s')
    (h : wp p Q E s) : wp p Q' E' s := by
  unfold wp at h ⊢
  cases hrun : p.run s with
  | ok a s' => rw [hrun] at h; exact hQ a s' h
  | error e s' => rw [hrun] at h; exact hE e s' h

theorem wp_catching {caught : ε → Bool} {handler : Program ε σ α} :
    wp (catching caught p handler) Q E s ↔
      wp p Q (fun e s' => if caught e then wp handler Q E s' else E e s') s := by
  unfold wp
  simp only [EStateM.run, catching]
  cases p s with
  | ok a s' => rfl
  | error e s' => by_cases h : caught e <;> simp [h]

theorem wp_withDestructor {unwinds : ε → Bool} {dtor : Program ε σ Unit} :
    wp (withDestructor unwinds p dtor) Q E s ↔
      wp p (fun a s' => wp dtor (fun _ s'' => Q a s'') E s')
        (fun e s' => if unwinds e then wp dtor (fun _ s'' => E e s'') E s' else E e s') s := by
  unfold wp
  simp only [EStateM.run, withDestructor]
  cases p s with
  | ok a s' => cases hd : dtor s' <;> simp only [hd]
  | error e s' =>
    by_cases h : unwinds e
    · cases hd : dtor s' <;> simp only [if_pos h, hd]
    · simp only [if_neg h]

theorem wp_zoom {τ : Type} {part : σ → τ} {replace : τ → σ → σ} {p : Program ε τ α} :
    wp (zoom part replace p) Q E s ↔
      wp p (fun a t => Q a (replace t s)) (fun e t => E e (replace t s)) (part s) := by
  unfold wp
  simp only [EStateM.run, zoom]
  cases p (part s) <;> rfl

theorem wp_nextAnswer {answers : σ → List α} {left : List α → σ → σ} {exhausted : ε} :
    wp (nextAnswer answers left exhausted) Q E s ↔
      match answers s with
      | [] => E exhausted s
      | a :: rest => Q a (left rest s) := by
  unfold nextAnswer
  rw [wp_bind, wp_get]
  cases answers s <;> rfl

theorem wp_sequence_append {step : β → Program ε σ Unit} {Q : Unit → σ → Prop} :
    ∀ (bs bs' : List β) {s : σ}, wp (sequence step (bs ++ bs')) Q E s ↔
      wp (sequence step bs) (fun _ s' => wp (sequence step bs') Q E s') E s
  | [], _, _ => Iff.rfl
  | b :: bs, bs', s => by
      show wp (step b >>= fun _ => sequence step (bs ++ bs')) Q E s ↔
        wp (step b >>= fun _ => sequence step bs) _ E s
      rw [wp_bind, wp_bind]
      have hrest : ∀ s', wp (sequence step (bs ++ bs')) Q E s' ↔
          wp (sequence step bs) (fun _ s'' => wp (sequence step bs') Q E s'') E s' :=
        fun s' => wp_sequence_append bs bs'
      simp only [hrest]

/-- Two programs with the same weakest preconditions have the same outcome. -/
theorem run_eq_of_wp {q : Program ε σ α} {s' : σ}
    (h : ∀ (Q : α → σ → Prop) (E : ε → σ → Prop), wp p Q E s ↔ wp q Q E s') :
    p.run s = q.run s' := by
  -- the postcondition that holds of the outcome of `q` only
  have hq : wp q (fun a t => q.run s' = .ok a t) (fun e t => q.run s' = .error e t) s' := by
    unfold wp
    cases q.run s' <;> rfl
  have hp := (h _ _).mpr hq
  unfold wp at hp
  cases hrun : p.run s with
  | ok a t => rw [hrun] at hp; exact hp.symm
  | error e t => rw [hrun] at hp; exact hp.symm

/-- Postconditions that exclude each other do not both hold. -/
theorem not_wp_of_wp (hQ : ∀ a s', Q a s' → ¬ Q' a s') (hE : ∀ e s', E e s' → ¬ E' e s')
    (h : wp p Q E s) : ¬ wp p Q' E' s := by
  unfold wp at h ⊢
  cases hrun : p.run s with
  | ok a s' => rw [hrun] at h; exact hQ a s' h
  | error e s' => rw [hrun] at h; exact hE e s' h

/-- A program that raises no error returns. -/
theorem returns_of_wp (h : wp p Q (fun _ _ => False) s) :
    ∃ a s', p.run s = .ok a s' ∧ Q a s' := by
  unfold wp at h
  cases hrun : p.run s with
  | ok a s' => rw [hrun] at h; exact ⟨a, s', rfl, h⟩
  | error e s' => rw [hrun] at h; exact h.elim

theorem wp_of_run {a : α} {s' : σ} (hrun : p.run s = .ok a s') : wp p Q E s ↔ Q a s' := by
  unfold wp
  rw [hrun]

/-- What holds of every outcome holds of the outcome that there is. -/
theorem wp_run_ok {a : α} {s' : σ} (h : wp p Q E s) (hrun : p.run s = .ok a s') : Q a s' := by
  unfold wp at h
  rw [hrun] at h
  exact h

/-- A postcondition on states alone is one of the final state. -/
theorem wp_finalState_iff {I : σ → Prop} :
    wp p (fun _ => I) (fun _ => I) s ↔ I (finalState (p.run s)) := by
  unfold wp
  cases p.run s <;> rfl

theorem wp_finalState {I : σ → Prop} (h : wp p (fun _ => I) (fun _ => I) s) :
    I (finalState (p.run s)) :=
  wp_finalState_iff.mp h

/-! ## Section 3: Invariants -/

/-- From a state with the invariant `I`, the program returns to a state with
    `I`; so it does when it ends with an error that `live` selects. -/
def Maintains (live : ε → Prop) (I : σ → Prop) (p : Program ε σ α) : Prop :=
  ∀ s, I s → wp p (fun _ s' => I s') (fun e s' => live e → I s') s

/-- The same from a state with a stronger invariant `O`, which may be lost. -/
def Leaves (live : ε → Prop) (O I : σ → Prop) (p : Program ε σ α) : Prop :=
  ∀ s, O s → wp p (fun _ s' => I s') (fun e s' => live e → I s') s

namespace Leaves

variable {live : ε → Prop} {O J I : σ → Prop}

theorem of_maintains {p : Program ε σ α} (hp : Maintains live I p) (hOI : ∀ s, O s → I s) :
    Leaves live O I p :=
  fun s h => hp s (hOI s h)

theorem bind {p : Program ε σ α} {f : α → Program ε σ β} (hp : Leaves live O J p)
    (hJI : ∀ s, J s → I s) (hf : ∀ a, Leaves live J I (f a)) : Leaves live O I (p >>= f) := by
  intro s h
  rw [wp_bind]
  exact wp_mono (fun a s' h' => hf a s' h') (fun e s' h' hlive => hJI s' (h' hlive)) (hp s h)

theorem ite {c : Prop} [Decidable c] {p q : Program ε σ α} (hp : Leaves live O I p)
    (hq : Leaves live O I q) : Leaves live O I (if c then p else q) := by
  by_cases h : c
  · simpa only [h, if_true] using hp
  · simpa only [h, if_false] using hq

theorem catching {caught : ε → Bool} {p handler : Program ε σ α}
    (hlive : ∀ e, caught e → live e) (hp : Leaves live O I p)
    (hh : Maintains live I handler) : Leaves live O I (catching caught p handler) := by
  intro s h
  rw [wp_catching]
  refine wp_mono (fun _ _ h' => h') (fun e s' h' => ?_) (hp s h)
  by_cases hc : caught e
  · rw [if_pos hc]; exact hh s' (h' (hlive e hc))
  · rw [if_neg hc]; exact h'

end Leaves

namespace Maintains

variable {live : ε → Prop} {I : σ → Prop}

theorem pure (a : α) : Maintains live I (pure a : Program ε σ α) :=
  fun _ h => h

theorem throw (e : ε) : Maintains live I (throw e : Program ε σ α) :=
  fun _ h _ => h

theorem get : Maintains live I (get : Program ε σ σ) :=
  fun _ h => h

theorem modify {f : σ → σ} (hf : ∀ s, I s → I (f s)) :
    Maintains live I (modify f : Program ε σ PUnit) :=
  fun s h => hf s h

theorem lift (x : Except ε α) : Maintains live I (lift x : Program ε σ α) := by
  cases x with
  | ok a => exact Maintains.pure a
  | error e => exact Maintains.throw e

theorem nextAnswer {answers : σ → List α} {left : List α → σ → σ} {exhausted : ε}
    (hleft : ∀ s rest, I s → I (left rest s)) :
    Maintains live I (nextAnswer answers left exhausted) := by
  intro s h
  rw [wp_nextAnswer]
  split
  · exact fun _ => h
  · exact hleft s _ h

theorem bind {p : Program ε σ α} {f : α → Program ε σ β} (hp : Maintains live I p)
    (hf : ∀ a, Maintains live I (f a)) : Maintains live I (p >>= f) :=
  Leaves.bind hp (fun _ h => h) hf

theorem ite {c : Prop} [Decidable c] {p q : Program ε σ α} (hp : Maintains live I p)
    (hq : Maintains live I q) : Maintains live I (if c then p else q) :=
  Leaves.ite hp hq

theorem catching {caught : ε → Bool} {p handler : Program ε σ α}
    (hlive : ∀ e, caught e → live e) (hp : Maintains live I p)
    (hh : Maintains live I handler) : Maintains live I (catching caught p handler) :=
  Leaves.catching hlive hp hh

theorem sequence {step : β → Program ε σ Unit} :
    ∀ bs : List β, (∀ b ∈ bs, Maintains live I (step b)) →
      Maintains live I (sequence step bs)
  | [], _ => Maintains.pure ()
  | b :: bs, h => by
      have hb := h b List.mem_cons_self
      have hbs := Maintains.sequence bs (fun b' hb' => h b' (List.mem_cons_of_mem b hb'))
      exact hb.bind fun _ => hbs

/-- What holds where the programs of a list have ended, normally or not, still
    holds after one more program that keeps it. -/
theorem finalState_snoc {step : β → Program ε σ Unit} {bs : List β} {b : β} {s : σ}
    (hb : Maintains (fun _ => True) I (step b))
    (h : I (finalState ((Program.sequence step bs).run s))) :
    I (finalState ((Program.sequence step (bs ++ [b])).run s)) := by
  have hone : Maintains (fun _ => True) I (Program.sequence step [b]) :=
    Maintains.sequence [b] fun b' hb' => by rw [List.mem_singleton.mp hb']; exact hb
  apply wp_finalState
  rw [wp_sequence_append]
  refine wp_mono (fun _ s' h' => ?_) (fun _ _ h' => h') (wp_finalState_iff.mpr h)
  exact wp_mono (fun _ _ h => h) (fun _ _ h => h trivial) (hone s' h')

end Maintains

end Program
