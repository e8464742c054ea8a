import Mathlib.Data.List.Basic
import Mathlib.Data.List.Nodup
import Mathlib.Data.List.Perm.Subperm
import XFast.Framework.Steps

/-! # xLoop: functors posted to the loop thread

    `scheduleToLoopThread`, called on another thread, appends a functor to
    `extraEvents_`; a pass of `process` runs the functors of the list by a
    traversal with an iterator and then clears the list.  The two sides are
    not synchronised: only the append takes the lock.  The steps interleave,
    each of them atomic: one append, running the next functor, reaching the
    end of the list, clearing it.

    Between the end of the traversal and the clear there is a gap.  What is
    appended there is cleared without having been run.  Everything else is
    run once, in order. -/

namespace XFast

open Steps

/-! ## Section 1: The steps -/

/-- Where a pass of `process` is, with the index of its iterator. -/
inductive DrainPhase where
  /-- Not in the loop over `extraEvents_`. -/
  | outside
  /-- In the loop: `pos` functors of the list have been run. -/
  | traversing (pos : Nat)
  /-- The iterator has reached the end; the list is not yet cleared. -/
  | ended (pos : Nat)
  deriving DecidableEq, Repr

def DrainPhase.pos : DrainPhase → Nat
  | .outside => 0
  | .traversing pos => pos
  | .ended pos => pos

instance : ∀ phase : DrainPhase, Decidable (∀ pos, phase ≠ .ended pos)
  | .outside => isTrue fun _ => nofun
  | .traversing _ => isTrue fun _ => nofun
  | .ended pos => isFalse fun h => h pos rfl

/-- The list, the pass, and the history: every functor is kept together with
    its number in the order of posting. -/
structure Mailbox (τ : Type) where
  extraEvents_ : List (Nat × τ)
  phase : DrainPhase
  posted : List (Nat × τ)
  ran : List (Nat × τ)
  deriving DecidableEq, Repr

inductive MailboxStep (τ : Type) where
  /-- Some other thread posts a functor. -/
  | scheduleToLoopThread (handle : τ)
  /-- The loop over `extraEvents_` begins. -/
  | beginDrain
  /-- The next functor of the list is run. -/
  | runNext
  /-- The iterator compares equal to the end of the list. -/
  | reachEnd
  /-- `extraEvents_.clear()`. -/
  | clear
  deriving DecidableEq, Repr

namespace Mailbox

variable {τ : Type}

def initial : Mailbox τ := ⟨[], .outside, [], []⟩

def step (s : Mailbox τ) : MailboxStep τ → Option (Mailbox τ)
  | .scheduleToLoopThread handle =>
      let fun_ := (s.posted.length, handle)
      some { s with extraEvents_ := s.extraEvents_ ++ [fun_], posted := s.posted ++ [fun_] }
  | .beginDrain =>
      match s.phase with
      | .outside => some { s with phase := .traversing 0 }
      | _ => none
  | .runNext =>
      match s.phase with
      | .traversing pos =>
          match s.extraEvents_[pos]? with
          | some fun_ => some { s with phase := .traversing (pos + 1), ran := s.ran ++ [fun_] }
          | none => none
      | _ => none
  | .reachEnd =>
      match s.phase with
      | .traversing pos =>
          if pos = s.extraEvents_.length then some { s with phase := .ended pos } else none
      | _ => none
  | .clear =>
      match s.phase with
      | .ended _ => some { s with extraEvents_ := [], phase := .outside }
      | _ => none

/-- What each step can do, with its guard. -/
inductive StepTo (s : Mailbox τ) : MailboxStep τ → Mailbox τ → Prop where
  | scheduleToLoopThread (handle : τ) :
      StepTo s (.scheduleToLoopThread handle)
        { s with extraEvents_ := s.extraEvents_ ++ [(s.posted.length, handle)],
                 posted := s.posted ++ [(s.posted.length, handle)] }
  | beginDrain (hphase : s.phase = .outside) :
      StepTo s .beginDrain { s with phase := .traversing 0 }
  | runNext (pos : Nat) (hphase : s.phase = .traversing pos) (hlt : pos < s.extraEvents_.length) :
      StepTo s .runNext
        { s with phase := .traversing (pos + 1), ran := s.ran ++ [s.extraEvents_[pos]] }
  | reachEnd (hphase : s.phase = .traversing s.extraEvents_.length) :
      StepTo s .reachEnd { s with phase := .ended s.extraEvents_.length }
  | clear (pos : Nat) (hphase : s.phase = .ended pos) :
      StepTo s .clear { s with extraEvents_ := [], phase := .outside }

theorem step_cases {s s' : Mailbox τ} {l : MailboxStep τ} (h : s.step l = some s') :
    StepTo s l s' := by
  cases l with
  | scheduleToLoopThread handle =>
    cases h
    exact .scheduleToLoopThread handle
  | beginDrain =>
    dsimp only [step] at h
    split at h
    · rename_i hphase
      cases h
      exact .beginDrain hphase
    · cases h
  | runNext =>
    dsimp only [step] at h
    split at h
    · rename_i pos hphase
      split at h
      · rename_i fun_ hnext
        obtain ⟨hlt, rfl⟩ := List.getElem?_eq_some_iff.mp hnext
        cases h
        exact .runNext pos hphase hlt
      · cases h
    · cases h
  | reachEnd =>
    dsimp only [step] at h
    split at h
    · rename_i pos hphase
      split at h
      · rename_i hend
        subst hend
        cases h
        exact .reachEnd hphase
      · cases h
    · cases h
  | clear =>
    dsimp only [step] at h
    split at h
    · rename_i pos hphase
      cases h
      exact .clear pos hphase
    · cases h

/-- The functor that `runNext` runs. -/
def next? (s : Mailbox τ) : Option (Nat × τ) :=
  match s.phase with
  | .traversing pos => s.extraEvents_[pos]?
  | _ => none

/-- The functors that are still to be run, unless they are cleared. -/
def toRun (s : Mailbox τ) : List (Nat × τ) :=
  match s.phase with
  | .outside => s.extraEvents_
  | .traversing pos => s.extraEvents_.drop pos
  | .ended _ => []

theorem next?_mem_toRun {s : Mailbox τ} {fun_ : Nat × τ} (h : s.next? = some fun_) :
    fun_ ∈ s.toRun := by
  unfold next? at h
  unfold toRun
  split at h
  · rename_i pos hphase
    simp only [hphase]
    obtain ⟨hlt, rfl⟩ := List.getElem?_eq_some_iff.mp h
    rw [List.drop_eq_getElem_cons hlt]
    exact List.mem_cons_self
  · cases h

theorem step_runNext {s : Mailbox τ} {pos : Nat} (hphase : s.phase = .traversing pos)
    {fun_ : Nat × τ} (h : s.extraEvents_[pos]? = some fun_) :
    s.next? = some fun_ ∧ s.step .runNext =
      some { s with phase := .traversing (pos + 1), ran := s.ran ++ [fun_] } := by
  simp only [next?, step, hphase, h, and_self]

/-- What is to be run was to be run before, or has just been posted. -/
theorem toRun_step {s s' : Mailbox τ} {l : MailboxStep τ} (h : s.step l = some s')
    {fun_ : Nat × τ} (hmem : fun_ ∈ s'.toRun) :
    fun_ ∈ s.toRun ∨ l = .scheduleToLoopThread fun_.2 := by
  cases step_cases h with
  | scheduleToLoopThread handle =>
    have hlist : fun_ ∈ s.toRun ∨ fun_ = (s.posted.length, handle) := by
      unfold toRun at hmem ⊢
      split at hmem
      · rename_i hphase
        simp only at hphase
        simpa only [hphase, List.mem_append, List.mem_singleton] using hmem
      · rename_i pos hphase
        simp only at hphase
        simp only [hphase]
        rw [List.drop_append, List.mem_append] at hmem
        rcases hmem with hold | hnew
        · exact Or.inl hold
        · exact Or.inr (List.mem_singleton.mp (List.mem_of_mem_drop hnew))
      · cases hmem
    rcases hlist with hold | rfl
    · exact Or.inl hold
    · exact Or.inr rfl
  | beginDrain hphase =>
    left
    simpa only [toRun, hphase, List.drop_zero] using hmem
  | runNext pos hphase hlt =>
    left
    simp only [toRun, hphase] at hmem ⊢
    rw [List.drop_eq_getElem_cons hlt]
    exact List.mem_cons_of_mem _ hmem
  | reachEnd hphase => cases hmem
  | clear pos hphase => cases hmem

/-! ## Section 2: What is to be shown -/

/-- Every functor posted so far is still in the list or has been run. -/
def Delivered (s : Mailbox τ) : Prop :=
  ∀ fun_ ∈ s.posted, fun_ ∈ s.extraEvents_ ∨ fun_ ∈ s.ran

/-- What has been run was posted, and was run once each, in the order of
    posting. -/
def InOrder (s : Mailbox τ) : Prop :=
  s.ran.Sublist s.posted ∧ (s.ran.map Prod.fst).Pairwise (· < ·)

/-- The step is not a post into the gap before the clear. -/
def Punctual (s : Mailbox τ) : MailboxStep τ → Prop
  | .scheduleToLoopThread _ => ∀ pos, s.phase ≠ .ended pos
  | _ => True

/-! ## Section 3: The invariant -/

/-- The list holds the functors posted last.  Of those before, some have been
    run; of those in the list, the ones before the iterator. -/
structure Inv (s : Mailbox τ) : Prop where
  numbered : s.posted.map Prod.fst = List.range s.posted.length
  split : ∃ old before, s.posted = old ++ s.extraEvents_ ∧ before.Sublist old ∧
    s.ran = before ++ s.extraEvents_.take s.phase.pos
  pos_le : s.phase.pos ≤ s.extraEvents_.length

/-- Everything before the iterator has been run, and a traversal that has
    ended has seen the whole list. -/
def Complete (s : Mailbox τ) : Prop :=
  s.ran.length + s.extraEvents_.length = s.posted.length + s.phase.pos ∧
    ∀ pos, s.phase = .ended pos → pos = s.extraEvents_.length

theorem inv_initial : (initial : Mailbox τ).Inv :=
  ⟨rfl, ⟨[], [], rfl, List.Sublist.refl _, rfl⟩, Nat.le_refl _⟩

theorem complete_initial : (initial : Mailbox τ).Complete :=
  ⟨rfl, fun _ h => by cases h⟩

theorem inv_step (s : Mailbox τ) (l : MailboxStep τ) (s' : Mailbox τ) (h : s.Inv)
    (hstep : s.step l = some s') : s'.Inv := by
  obtain ⟨old, before, hposted, hsub, hran⟩ := h.split
  have hpos := h.pos_le
  cases step_cases hstep with
  | scheduleToLoopThread handle =>
    refine ⟨?_, ⟨old, before, ?_, hsub, ?_⟩, ?_⟩
    · rw [List.map_append, h.numbered, List.length_append, List.length_singleton,
        List.range_succ]
      rfl
    · rw [hposted, List.append_assoc]
    · rw [hran, List.take_append_of_le_length hpos]
    · rw [List.length_append]
      exact Nat.le_add_right_of_le hpos
  | beginDrain hphase =>
    rw [hphase] at hran
    exact ⟨h.numbered, ⟨old, before, hposted, hsub, hran⟩, Nat.zero_le _⟩
  | runNext pos hphase hlt =>
    rw [hphase] at hran
    refine ⟨h.numbered, ⟨old, before, hposted, hsub, ?_⟩, hlt⟩
    -- one more of the list has been run
    show s.ran ++ [s.extraEvents_[pos]] = before ++ s.extraEvents_.take (pos + 1)
    rw [hran, List.append_assoc, ← List.take_append_getElem hlt]
    rfl
  | reachEnd hphase =>
    rw [hphase] at hran
    exact ⟨h.numbered, ⟨old, before, hposted, hsub, hran⟩, Nat.le_refl _⟩
  | clear pos hphase =>
    refine ⟨h.numbered, ⟨s.posted, s.ran, ?_, ?_, ?_⟩, Nat.zero_le _⟩
    · exact (List.append_nil _).symm
    · rw [hposted, hran]
      exact hsub.append (List.take_sublist _ _)
    · exact (List.append_nil _).symm

/-- A step keeps completeness exactly if it is punctual. -/
theorem complete_step (s : Mailbox τ) (l : MailboxStep τ) (s' : Mailbox τ) (h : s.Inv)
    (hstep : s.step l = some s') : s'.Complete ↔ s.Complete ∧ s.Punctual l := by
  obtain ⟨old, before, hposted, hsub, hran⟩ := h.split
  have hpos := h.pos_le
  have hlength := congrArg List.length hposted
  have hcount := congrArg List.length hran
  have hbefore := hsub.length_le
  simp only [List.length_append, List.length_take, Nat.min_eq_left hpos] at hlength hcount
  cases step_cases hstep with
  | scheduleToLoopThread handle =>
    simp only [Complete, Punctual, List.length_append, List.length_singleton]
    constructor
    · intro hboth
      obtain ⟨hsum, hend⟩ := hboth
      have hgap : ∀ pos, s.phase ≠ .ended pos := by
        intro pos hphase
        -- the iterator stands at the old end, and the list has grown
        have hnew := hend pos hphase
        rw [hphase] at hpos
        have hold : pos ≤ s.extraEvents_.length := hpos
        omega
      exact ⟨⟨by omega, fun pos hphase => absurd hphase (hgap pos)⟩, hgap⟩
    · intro hboth
      obtain ⟨⟨hsum, _⟩, hgap⟩ := hboth
      exact ⟨by omega, fun pos hphase => absurd hphase (hgap pos)⟩
  | beginDrain hphase => simp [Complete, Punctual, hphase, DrainPhase.pos]
  | runNext pos hphase hlt =>
    simp only [Complete, Punctual, hphase, DrainPhase.pos, List.length_append,
      List.length_singleton, reduceCtorEq, false_implies, implies_true, and_true]
    omega
  | reachEnd hphase => simp [Complete, Punctual, hphase, DrainPhase.pos]
  | clear pos hphase =>
    rw [hphase] at hpos hcount
    simp only [DrainPhase.pos] at hpos hcount
    simp only [Complete, Punctual, hphase, DrainPhase.pos, List.length_nil, reduceCtorEq,
      false_implies, implies_true, and_true, DrainPhase.ended.injEq, forall_eq']
    omega

/-! ## Section 4: Runs -/

theorem Inv.inOrder {s : Mailbox τ} (h : s.Inv) : s.InOrder := by
  obtain ⟨old, before, hposted, hsub, hran⟩ := h.split
  have hsublist : s.ran.Sublist s.posted := by
    rw [hposted, hran]
    exact hsub.append (List.take_sublist _ _)
  refine ⟨hsublist, List.Pairwise.sublist (hsublist.map Prod.fst) ?_⟩
  rw [h.numbered]
  exact List.pairwise_lt_range

theorem Inv.delivered_of_complete {s : Mailbox τ} (h : s.Inv) (hc : s.Complete) :
    s.Delivered := by
  obtain ⟨old, before, hposted, hsub, hran⟩ := h.split
  have hlength := congrArg List.length hposted
  have hcount := congrArg List.length hran
  simp only [List.length_append, List.length_take, Nat.min_eq_left h.pos_le] at hlength hcount
  have hall : before = old := hsub.eq_of_length (by have := hc.1; omega)
  intro fun_ hmem
  rw [hposted, List.mem_append] at hmem
  rcases hmem with hold | hlist
  · right
    rw [hran, hall]
    exact List.mem_append_left _ hold
  · exact Or.inl hlist

/-- Outside the gap nothing is missing that is not in the list. -/
theorem Inv.complete_of_delivered {s : Mailbox τ} (h : s.Inv) (hgap : ∀ pos, s.phase ≠ .ended pos)
    (hd : s.Delivered) : s.Complete := by
  obtain ⟨old, before, hposted, hsub, hran⟩ := h.split
  have hlength := congrArg List.length hposted
  have hcount := congrArg List.length hran
  simp only [List.length_append, List.length_take, Nat.min_eq_left h.pos_le] at hlength hcount
  have hnodup : s.posted.Nodup := by
    apply List.Nodup.of_map Prod.fst
    rw [h.numbered]
    exact List.nodup_range
  rw [hposted, List.nodup_append] at hnodup
  obtain ⟨hold, _, hdisjoint⟩ := hnodup
  -- a functor from before the list can only have been run before
  have hsubset : old ⊆ before := by
    intro fun_ hmem
    have hnot : fun_ ∉ s.extraEvents_ := fun hlist => hdisjoint fun_ hmem fun_ hlist rfl
    have hposted' : fun_ ∈ s.posted := by
      rw [hposted]
      exact List.mem_append_left _ hmem
    rcases hd fun_ hposted' with hlist | hrun
    · exact absurd hlist hnot
    · rw [hran, List.mem_append] at hrun
      rcases hrun with hbefore | htake
      · exact hbefore
      · exact absurd (List.mem_of_mem_take htake) hnot
  have hle : old.length ≤ before.length := (hold.subperm hsubset).length_le
  have hge := hsub.length_le
  exact ⟨by omega, fun pos hphase => absurd hphase (hgap pos)⟩

/-- Of a mailbox that is complete, the functors run are the first ones posted;
    those that are not run yet are in the list. -/
theorem Inv.ran_prefix {s : Mailbox τ} (h : s.Inv) (hc : s.Complete) :
    s.ran <+: s.posted ∧ (s.extraEvents_ = [] → s.ran = s.posted) := by
  obtain ⟨old, before, hposted, hsub, hran⟩ := h.split
  have hlength := congrArg List.length hposted
  have hcount := congrArg List.length hran
  simp only [List.length_append, List.length_take, Nat.min_eq_left h.pos_le] at hlength hcount
  have hall : before = old := hsub.eq_of_length (by have := hc.1; omega)
  rw [hposted, hran, hall]
  constructor
  · rw [List.prefix_append_right_inj]
    exact List.take_prefix _ _
  · intro hempty
    rw [hempty, List.take_nil]

/-- **Posted functors.**  In every run, whatever the order of the posts and
    the steps of the loop, functors are run at most once and in the order in
    which they were posted.  If no post falls into the gap between the end of
    a traversal and its clear, every functor posted is in the list or has
    been run; and outside the gap this holds only if no post fell into it. -/
theorem delivered_iff_punctual (ls : List (MailboxStep τ)) (s : Mailbox τ)
    (hrun : run step initial ls = some s) :
    s.InOrder ∧ (AllSteps step Punctual initial ls → s.Delivered) ∧
      ((∀ pos, s.phase ≠ .ended pos) →
        (s.Delivered ↔ AllSteps step Punctual initial ls)) := by
  have hinv : s.Inv := run_invariant inv_step ls initial s inv_initial hrun
  have hiff : s.Complete ↔ AllSteps step Punctual initial ls := by
    rw [run_iff_allSteps inv_step complete_step ls initial s inv_initial hrun]
    simp [complete_initial]
  refine ⟨hinv.inOrder, fun hall => hinv.delivered_of_complete (hiff.mpr hall), ?_⟩
  intro hgap
  rw [← hiff]
  exact ⟨hinv.complete_of_delivered hgap, hinv.delivered_of_complete⟩

/-- Posts before and during a traversal: both functors are run. -/
theorem delivered_iff_punctual_two : ∃ s : Mailbox Unit,
    run step initial [.scheduleToLoopThread (), .beginDrain, .runNext, .scheduleToLoopThread (),
      .runNext, .reachEnd, .clear] = some s ∧ s.ran = [(0, ()), (1, ())] ∧ s.Delivered := by
  refine ⟨⟨[], .outside, [(0, ()), (1, ())], [(0, ()), (1, ())]⟩, rfl, rfl, ?_⟩
  exact (delivered_iff_punctual [.scheduleToLoopThread (), .beginDrain, .runNext,
    .scheduleToLoopThread (), .runNext, .reachEnd, .clear] _ rfl).2.1
      (by simp [AllSteps, step, Punctual, initial])

/-- A functor posted between the end of the traversal and the clear is neither
    in the list nor has it been run. -/
theorem posted_into_gap_lost : ∃ s : Mailbox Unit,
    run step initial [.beginDrain, .reachEnd, .scheduleToLoopThread (), .clear] = some s ∧
    s.posted = [(0, ())] ∧ s.extraEvents_ = [] ∧ s.ran = [] ∧ ¬ s.Delivered := by
  refine ⟨⟨[], .outside, [(0, ())], []⟩, rfl, rfl, rfl, rfl, ?_⟩
  intro hd
  rcases hd (0, ()) (List.mem_singleton.mpr rfl) with hlist | hrun
  · cases hlist
  · cases hrun

end Mailbox

end XFast
