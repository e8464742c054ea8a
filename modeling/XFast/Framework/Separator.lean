import Mathlib.Data.List.TakeWhile

/-! # Lists split at a separator

    The part of a list before the first occurrence of an element and the part
    behind it, with the position of the occurrence. -/

namespace Separator

variable {α : Type} [DecidableEq α]

/-- What stands before the first `a`; everything, if there is none. -/
def before (a : α) (xs : List α) : List α := xs.takeWhile (· ≠ a)

/-- What stands behind the first `a`; nothing, if there is none. -/
def after (a : α) (xs : List α) : List α := (xs.dropWhile (· ≠ a)).tail

theorem length_before_le (a : α) (xs : List α) : (before a xs).length ≤ xs.length :=
  (xs.takeWhile_sublist (· ≠ a)).length_le

theorem length_after_le (a : α) (xs : List α) : (after a xs).length ≤ xs.length := by
  have h := (xs.dropWhile_sublist (· ≠ a)).length_le
  unfold after
  rw [List.length_tail]
  omega

theorem ne_of_notMem {a : α} {xs : List α} (h : a ∉ xs) :
    ∀ b ∈ xs, (decide (b ≠ a)) = true := by
  intro b hb
  have hne : b ≠ a := fun heq => h (heq ▸ hb)
  simpa using hne

theorem before_append {a : α} {xs : List α} (h : a ∉ xs) (ys : List α) :
    before a (xs ++ a :: ys) = xs := by
  unfold before
  rw [List.takeWhile_append_of_pos (ne_of_notMem h)]
  simp

theorem after_append {a : α} {xs : List α} (h : a ∉ xs) (ys : List α) :
    after a (xs ++ a :: ys) = ys := by
  unfold after
  rw [List.dropWhile_append_of_pos (ne_of_notMem h)]
  simp

theorem before_of_notMem {a : α} {xs : List α} (h : a ∉ xs) : before a xs = xs :=
  List.takeWhile_eq_self_iff.mpr (ne_of_notMem h)

theorem after_of_notMem {a : α} {xs : List α} (h : a ∉ xs) : after a xs = [] := by
  unfold after
  rw [List.dropWhile_eq_nil_iff.mpr (ne_of_notMem h)]
  rfl

/-- The list is split at the first place where the element is found. -/
theorem split_of_findIdx {a : α} {xs : List α} {i : Nat} (h : xs.findIdx? (· = a) = some i) :
    i < xs.length ∧ before a xs = xs.take i ∧ after a xs = xs.drop (i + 1) := by
  obtain ⟨hi, hidx⟩ := List.findIdx?_eq_some_iff_findIdx_eq.mp h
  have hnot : xs.findIdx (fun b => !decide (b ≠ a)) = i := by simpa using hidx
  refine ⟨hi, ?_, ?_⟩
  · unfold before
    rw [List.takeWhile_eq_take_findIdx_not, hnot]
  · unfold after
    rw [List.dropWhile_eq_drop_findIdx_not, hnot, List.tail_drop]

theorem notMem_of_findIdx {a : α} {xs : List α} (h : xs.findIdx? (· = a) = none) : a ∉ xs := by
  intro hmem
  have hnone := List.findIdx?_eq_none_iff.mp h a hmem
  simp at hnone

end Separator
