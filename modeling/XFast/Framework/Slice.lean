import Mathlib.Data.List.Basic

/-! # Slices of a list

    A contiguous store is a list; a view of it is the slice between two
    indexes.  `overwrite` writes a run of elements into the store in place.
    The lemmas say how slices split, how they move under `take` and `drop`,
    and which slices a write leaves alone. -/

namespace Slice

variable {α : Type}

/-- The elements of `xs` from index `i` up to, but not including, index `j`. -/
def slice (xs : List α) (i j : Nat) : List α :=
  (xs.drop i).take (j - i)

/-- `xs` with the elements from index `i` on replaced by `ys`. -/
def overwrite (xs : List α) (i : Nat) (ys : List α) : List α :=
  xs.take i ++ ys ++ xs.drop (i + ys.length)

/-! ## Section 1: Slices -/

@[simp] theorem slice_self (xs : List α) (i : Nat) : slice xs i i = [] := by
  simp [slice]

theorem length_slice {xs : List α} {i j : Nat} (hj : j ≤ xs.length) :
    (slice xs i j).length = j - i := by
  simp only [slice, List.length_take, List.length_drop]
  omega

theorem slice_append_slice {xs : List α} {i j k : Nat} (hij : i ≤ j) (hjk : j ≤ k) :
    slice xs i j ++ slice xs j k = slice xs i k := by
  have hk : k - i = (j - i) + (k - j) := by omega
  have hj : j = i + (j - i) := by omega
  unfold slice
  rw [hk, List.take_add, List.drop_drop, ← hj]

theorem drop_slice (xs : List α) (i j n : Nat) :
    (slice xs i j).drop n = slice xs (i + n) j := by
  unfold slice
  rw [List.drop_take, List.drop_drop]
  congr 1
  omega

theorem take_slice {xs : List α} {i j n : Nat} (h : i + n ≤ j) :
    (slice xs i j).take n = slice xs i (i + n) := by
  unfold slice
  rw [List.take_take]
  congr 1
  omega

theorem slice_append_left {xs ys : List α} {i j : Nat} (hj : j ≤ xs.length) :
    slice (xs ++ ys) i j = slice xs i j := by
  unfold slice
  by_cases hi : i ≤ xs.length
  · rw [List.drop_append_of_le_length hi, List.take_append_of_le_length]
    simp only [List.length_drop]
    omega
  · have hji : j - i = 0 := by omega
    simp [hji]

/-! ## Section 2: Writes -/

theorem length_overwrite {xs ys : List α} {i : Nat} (h : i + ys.length ≤ xs.length) :
    (overwrite xs i ys).length = xs.length := by
  simp only [overwrite, List.length_append, List.length_take, List.length_drop]
  omega

/-- The written slice holds what was written. -/
theorem slice_overwrite_self {xs ys : List α} {i : Nat} (h : i + ys.length ≤ xs.length) :
    slice (overwrite xs i ys) i (i + ys.length) = ys := by
  have hlen : (xs.take i).length = i := by
    rw [List.length_take]; omega
  unfold slice overwrite
  rw [List.append_assoc, List.drop_append_of_le_length (by omega),
    List.drop_eq_nil_of_le (by omega), List.nil_append, Nat.add_sub_cancel_left,
    List.take_append_of_le_length (Nat.le_refl _), List.take_length]

/-- A write leaves every slice below it alone. -/
theorem slice_overwrite_below {xs ys : List α} {i j k : Nat} (hk : k ≤ i)
    (h : i ≤ xs.length) : slice (overwrite xs i ys) j k = slice xs j k := by
  have hlen : (xs.take i).length = i := by
    rw [List.length_take]; omega
  have hsplit : xs = xs.take i ++ xs.drop i := (List.take_append_drop i xs).symm
  unfold overwrite
  rw [List.append_assoc, slice_append_left (by omega)]
  conv_rhs => rw [hsplit]
  rw [slice_append_left (by omega)]

/-- A write leaves every slice above it alone. -/
theorem slice_overwrite_above {xs ys : List α} {i j k : Nat} (hj : i + ys.length ≤ j)
    (h : i + ys.length ≤ xs.length) :
    slice (overwrite xs i ys) j k = slice xs j k := by
  have hlen : (xs.take i ++ ys).length = i + ys.length := by
    rw [List.length_append, List.length_take]; omega
  unfold slice overwrite
  congr 1
  rw [List.drop_append, List.drop_eq_nil_of_le (by omega), hlen, List.nil_append,
    List.drop_drop]
  congr 1
  omega

end Slice
