import Mathlib.Data.List.Basic

/-! # Framing a stream

    A framer looks at the elements received so far and says how many of them
    make up the first frame, if that can be told yet.  It decides by a prefix:
    once it has found a frame, more elements behind do not change it.

    Greedy framing cuts off frames as long as one is found.  The main fact is
    that this can be done piecewise: to frame `x ++ y`, frame `x`, and go on
    with what was left of `x` followed by `y`. -/

namespace Framing

variable {α : Type}

structure Framer (α : Type) where
  /-- The length of the first frame. -/
  frame : List α → Option Nat
  pos : ∀ {x n}, frame x = some n → 0 < n
  le_length : ∀ {x n}, frame x = some n → n ≤ x.length
  stable : ∀ {x n} (y), frame x = some n → frame (x ++ y) = some n

namespace Framer

variable (F : Framer α)

/-! ## Section 1: Greedy framing -/

/-- At most `k` frames of `x`, and what is left. -/
def split : (k : Nat) → (x : List α) → List (List α) × List α
  | 0, x => ([], x)
  | k + 1, x =>
      match F.frame x with
      | none => ([], x)
      | some n =>
          let (fs, r) := split k (x.drop n)
          (x.take n :: fs, r)

/-- The frames of `x`; there are no more of them than elements. -/
def frames (x : List α) : List (List α) := (F.split x.length x).1

/-- What is left of `x` when its frames are cut off. -/
def residue (x : List α) : List α := (F.split x.length x).2

/-- A longer bound finds nothing more. -/
theorem split_eq_of_le {k : Nat} {x : List α} (h : x.length ≤ k) :
    F.split k x = F.split x.length x := by
  induction k using Nat.strongRecOn generalizing x with
  | ind k ih =>
    cases k with
    | zero =>
      have hx : x.length = 0 := by omega
      rw [hx]
    | succ k =>
      cases hf : F.frame x with
      | none =>
        have hnone : ∀ m, F.split m x = ([], x) := by
          intro m
          cases m with
          | zero => rfl
          | succ m => simp only [split, hf]
        rw [hnone, hnone]
      | some n =>
        have hpos := F.pos hf
        have hle := F.le_length hf
        have hdrop : (x.drop n).length = x.length - n := List.length_drop
        obtain ⟨m, hm⟩ : ∃ m, x.length = m + 1 := ⟨x.length - 1, by omega⟩
        rw [hm]
        simp only [split, hf]
        -- both bounds are enough for the rest, which is shorter
        by_cases hlt : x.length ≤ k
        · rw [ih k (by omega) (by omega), ih m (by omega) (by omega)]
        · have hk : k = m := by omega
          rw [hk]

theorem frames_of_none {x : List α} (h : F.frame x = none) : F.frames x = [] := by
  unfold frames
  cases hlen : x.length with
  | zero => rfl
  | succ k => simp only [split, h]

theorem residue_of_none {x : List α} (h : F.frame x = none) : F.residue x = x := by
  unfold residue
  cases hlen : x.length with
  | zero => rfl
  | succ k => simp only [split, h]

theorem split_of_some {x : List α} {n : Nat} (h : F.frame x = some n) :
    F.split x.length x = (x.take n :: F.frames (x.drop n), F.residue (x.drop n)) := by
  have hpos := F.pos h
  have hle := F.le_length h
  obtain ⟨k, hk⟩ : ∃ k, x.length = k + 1 := ⟨x.length - 1, by omega⟩
  have hrest : (x.drop n).length ≤ k := by
    rw [List.length_drop]
    omega
  rw [hk]
  simp only [split, h, F.split_eq_of_le hrest]
  rfl

theorem frames_of_some {x : List α} {n : Nat} (h : F.frame x = some n) :
    F.frames x = x.take n :: F.frames (x.drop n) := by
  show (F.split x.length x).1 = _
  rw [F.split_of_some h]

theorem residue_of_some {x : List α} {n : Nat} (h : F.frame x = some n) :
    F.residue x = F.residue (x.drop n) := by
  show (F.split x.length x).2 = _
  rw [F.split_of_some h]

/-- Induction along the frames of a stream. -/
theorem frame_induction {P : List α → Prop} (none : ∀ x, F.frame x = none → P x)
    (some : ∀ x n, F.frame x = some n → P (x.drop n) → P x) (x : List α) : P x := by
  induction hlen : x.length using Nat.strongRecOn generalizing x with
  | ind k ih =>
    cases hf : F.frame x with
    | none => exact none x hf
    | some n =>
      have hpos := F.pos hf
      have hle := F.le_length hf
      apply some x n hf
      apply ih (x.drop n).length _ _ rfl
      rw [List.length_drop]
      omega

/-! ## Section 2: Framing piece by piece -/

/-- The residue has no frame. -/
theorem frame_residue (x : List α) : F.frame (F.residue x) = none := by
  induction x using F.frame_induction with
  | none x hf => rw [F.residue_of_none hf, hf]
  | some x n hf ih => rw [F.residue_of_some hf, ih]

theorem frames_append (x y : List α) :
    F.frames (x ++ y) = F.frames x ++ F.frames (F.residue x ++ y) := by
  induction x using F.frame_induction with
  | none x hf => rw [F.frames_of_none hf, F.residue_of_none hf, List.nil_append]
  | some x n hf ih =>
    have hle := F.le_length hf
    rw [F.frames_of_some (F.stable y hf), F.frames_of_some hf, F.residue_of_some hf,
      List.take_append_of_le_length hle, List.drop_append_of_le_length hle, ih, List.cons_append]

theorem residue_append (x y : List α) :
    F.residue (x ++ y) = F.residue (F.residue x ++ y) := by
  induction x using F.frame_induction with
  | none x hf => rw [F.residue_of_none hf]
  | some x n hf ih =>
    have hle := F.le_length hf
    rw [F.residue_of_some (F.stable y hf), F.residue_of_some hf,
      List.drop_append_of_le_length hle, ih]

/-- Nothing is lost: the frames and the residue make up the stream. -/
theorem flatten_frames_append_residue (x : List α) :
    (F.frames x).flatten ++ F.residue x = x := by
  induction x using F.frame_induction with
  | none x hf => rw [F.frames_of_none hf, F.residue_of_none hf]; rfl
  | some x n hf ih =>
    rw [F.frames_of_some hf, F.residue_of_some hf, List.flatten_cons, List.append_assoc, ih,
      List.take_append_drop]

theorem length_residue_le (x : List α) : (F.residue x).length ≤ x.length := by
  have h := congrArg List.length (F.flatten_frames_append_residue x)
  rw [List.length_append] at h
  omega

theorem frames_eq_nil_iff {x : List α} : F.frames x = [] ↔ F.frame x = none := by
  constructor
  · intro h
    cases hf : F.frame x with
    | none => rfl
    | some n =>
      rw [F.frames_of_some hf] at h
      cases h
  · exact F.frames_of_none

/-- Cut the stream into pieces, and frame each piece behind what the pieces
    before it left. -/
def framesOfPieces : List (List α) → (residue : List α) → List (List α) × List α
  | [], r => ([], r)
  | p :: ps, r =>
      let (fs, r') := framesOfPieces ps (F.residue (r ++ p))
      (F.frames (r ++ p) ++ fs, r')

/-- **Segmentation does not matter.**  Framing piece by piece is framing the
    whole. -/
theorem framesOfPieces_eq (ps : List (List α)) {r : List α} (hr : F.frame r = none) :
    F.framesOfPieces ps r = (F.frames (r ++ ps.flatten), F.residue (r ++ ps.flatten)) := by
  induction ps generalizing r with
  | nil =>
    rw [List.flatten_nil, List.append_nil, F.frames_of_none hr, F.residue_of_none hr]
    rfl
  | cons p ps ih =>
    simp only [framesOfPieces, ih (F.frame_residue _), List.flatten_cons]
    rw [← List.append_assoc, F.frames_append (r ++ p), F.residue_append (r ++ p)]

/-! ## Section 3: Streams made of frames -/

theorem frame_nil : F.frame [] = none := by
  cases hf : F.frame [] with
  | none => rfl
  | some n =>
    have hpos := F.pos hf
    have hle := F.le_length hf
    rw [List.length_nil] at hle
    omega

/-- More of the stream gives more frames behind the ones that there are. -/
theorem frames_prefix {x y : List α} (h : x <+: y) : F.frames x <+: F.frames y := by
  obtain ⟨z, rfl⟩ := h
  rw [F.frames_append]
  exact List.prefix_append _ _

/-- A stream that was put together of frames is taken apart into them. -/
theorem split_flatten {ms : List (List α)} (h : ∀ m ∈ ms, F.frame m = some m.length) :
    F.frames ms.flatten = ms ∧ F.residue ms.flatten = [] := by
  induction ms with
  | nil => exact ⟨F.frames_of_none F.frame_nil, F.residue_of_none F.frame_nil⟩
  | cons m ms ih =>
    obtain ⟨hm, hms⟩ := List.forall_mem_cons.mp h
    obtain ⟨hframes, hresidue⟩ := ih hms
    have hfirst : F.frame (m ++ ms.flatten) = some m.length := F.stable _ hm
    rw [List.flatten_cons, F.frames_of_some hfirst, F.residue_of_some hfirst, List.take_left,
      List.drop_left, hframes]
    exact ⟨rfl, hresidue⟩

end Framer

end Framing
