import Mathlib.Data.List.Basic

/-! # Order properties of traces

    A trace is the list of the events of a run, the oldest first; a step
    appends to it.

    * `NoneAfter mark bad`: no bad event follows an occurrence of the mark, the
      shape of every "never again" property.
    * `Throughout P`: every event has the property `P` together with what has
      happened before it.
    * `Since p q`: an event that `p` selects has occurred, and none that `q`
      selects since then.

    Each of them comes with a lemma about one more event, which is what an
    induction over a run needs. -/

namespace Trace

variable {α : Type}

/-- No event after an occurrence of `mark` is bad. -/
def NoneAfter (mark : α) (bad : α → Bool) : List α → Prop
  | [] => True
  | e :: es => (e = mark → ∀ e' ∈ es, bad e' = false) ∧ NoneAfter mark bad es

instance NoneAfter.decidable [DecidableEq α] (mark : α) (bad : α → Bool) :
    ∀ es, Decidable (NoneAfter mark bad es)
  | [] => isTrue trivial
  | _ :: es =>
      have : Decidable (NoneAfter mark bad es) := NoneAfter.decidable mark bad es
      inferInstanceAs (Decidable (_ ∧ _))

variable {mark : α} {bad : α → Bool}

/-- One more event: it must not be bad when the mark has occurred. -/
theorem noneAfter_snoc {es : List α} {e : α} :
    NoneAfter mark bad (es ++ [e]) ↔
      NoneAfter mark bad es ∧ (mark ∈ es → bad e = false) := by
  induction es with
  | nil => simp [NoneAfter]
  | cons x es ih =>
    simp only [List.cons_append, NoneAfter, List.mem_append, ih, List.mem_cons,
      List.not_mem_nil, or_false]
    constructor
    · intro hall
      obtain ⟨hx, hes, hbad⟩ := hall
      refine ⟨⟨fun heq e' he' => hx heq e' (Or.inl he'), hes⟩, ?_⟩
      intro hall
      rcases hall with heq | hmem
      · exact hx heq.symm e (Or.inr rfl)
      · exact hbad hmem
    · intro hall
      obtain ⟨⟨hx, hes⟩, hbad⟩ := hall
      refine ⟨?_, hes, fun hmem => hbad (Or.inr hmem)⟩
      intro heq e' hall
      rcases hall with he' | rfl
      · exact hx heq e' he'
      · exact hbad (Or.inl heq.symm)

/-- Where the mark has not occurred there is nothing to show. -/
theorem noneAfter_of_not_mem {es : List α} (h : mark ∉ es) : NoneAfter mark bad es := by
  induction es with
  | nil => trivial
  | cons x es ih =>
    rw [List.mem_cons, not_or] at h
    exact ⟨fun heq => absurd heq.symm h.1, ih h.2⟩

/-- What holds of a trace holds of what has happened before. -/
theorem NoneAfter.of_append {es rest : List α} (h : NoneAfter mark bad (es ++ rest)) :
    NoneAfter mark bad es := by
  induction es with
  | nil => trivial
  | cons x es ih =>
    exact ⟨fun heq e' he' => h.1 heq e' (List.mem_append_left rest he'), ih h.2⟩

/-- Every event has the property, with what has happened before it. -/
def Throughout (P : List α → α → Prop) (es : List α) : Prop :=
  ∀ past e rest, es = past ++ e :: rest → P past e

theorem throughout_nil (P : List α → α → Prop) : Throughout P [] := by
  intro past e rest h
  simp at h

theorem throughout_snoc {P : List α → α → Prop} {es : List α} {e : α} :
    Throughout P (es ++ [e]) ↔ Throughout P es ∧ P es e := by
  constructor
  · intro h
    refine ⟨fun past e' rest hes => ?_, h es e [] rfl⟩
    exact h past e' (rest ++ [e]) (by rw [hes, List.append_assoc, List.cons_append])
  · intro h past e' rest hes
    rcases List.eq_nil_or_concat rest with rfl | ⟨rest', x, rfl⟩
    · -- the event is the last one
      obtain ⟨rfl, he⟩ := List.append_inj' hes rfl
      cases he
      exact h.2
    · rw [List.concat_eq_append, ← List.cons_append, ← List.append_assoc] at hes
      exact h.1 past e' rest' (List.append_inj' hes rfl).1

/-- An event that `p` selects has occurred, and none that `q` selects since. -/
def Since (p q : α → Bool) (es : List α) : Prop :=
  ∃ past e rest, es = past ++ e :: rest ∧ p e = true ∧ ∀ x ∈ rest, q x = false

variable {p q : α → Bool}

theorem not_since_nil : ¬ Since p q ([] : List α) := by
  rintro ⟨past, e, rest, hes, _⟩
  simp at hes

theorem since_snoc {es : List α} {e : α} :
    Since p q (es ++ [e]) ↔ p e = true ∨ (Since p q es ∧ q e = false) := by
  constructor
  · rintro ⟨past, x, rest, hes, hp, hq⟩
    rcases List.eq_nil_or_concat rest with rfl | ⟨rest', y, rfl⟩
    · obtain ⟨_, he⟩ := List.append_inj' hes rfl
      cases he
      exact Or.inl hp
    · rw [List.concat_eq_append] at hes hq
      rw [← List.cons_append, ← List.append_assoc] at hes
      obtain ⟨hes', he⟩ := List.append_inj' hes rfl
      cases he
      right
      exact ⟨⟨past, x, rest', hes', hp, fun z hz => hq z (List.mem_append_left _ hz)⟩,
        hq e (by simp)⟩
  · intro h
    rcases h with hp | ⟨⟨past, x, rest, hes, hp, hq⟩, he⟩
    · exact ⟨es, e, [], rfl, hp, fun x hx => absurd hx List.not_mem_nil⟩
    · refine ⟨past, x, rest ++ [e], by rw [hes, List.append_assoc, List.cons_append], hp, ?_⟩
      intro y hy
      rcases List.mem_append.mp hy with hy | hy
      · exact hq y hy
      · rw [List.mem_singleton.mp hy]
        exact he

/-- One more event that neither of them selects. -/
theorem since_snoc_neither {es : List α} {e : α} (hp : p e = false) (hq : q e = false) :
    Since p q (es ++ [e]) ↔ Since p q es := by
  rw [since_snoc]
  simp [hp, hq]

end Trace
