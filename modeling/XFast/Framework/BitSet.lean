import Mathlib.Data.Finset.BooleanAlgebra
import Mathlib.Data.Fintype.Basic

/-! # Bit vectors as sets of positions

    A bit vector stands for the set of the positions at which it has a one.
    The bitwise operations are the operations of sets: or is union, and is
    intersection, and with the complement is difference.  A test of the form
    `m &&& n = 0` asks whether two sets are disjoint. -/

namespace BitSet

variable {w : Nat} (m n : BitVec w)

/-- The positions of the ones. -/
def bits : Finset (Fin w) := Finset.univ.filter fun i => m[i] = true

@[simp] theorem mem_bits (i : Fin w) : i ∈ bits m ↔ m[i] = true := by
  simp [bits]

@[simp] theorem bits_zero : bits (0 : BitVec w) = ∅ := by
  ext i
  simp

theorem bits_or : bits (m ||| n) = bits m ∪ bits n := by
  ext i
  simp

theorem bits_and : bits (m &&& n) = bits m ∩ bits n := by
  ext i
  simp

/-- And with the complement takes the positions of `n` away. -/
theorem bits_and_not : bits (m &&& ~~~n) = bits m \ bits n := by
  ext i
  simp

variable {m n}

/-- Equal sets, equal vectors. -/
theorem bits_inj : bits m = bits n ↔ m = n := by
  constructor
  · intro h
    ext i hi
    have hmem := congrArg (fun s => (⟨i, hi⟩ : Fin w) ∈ s) h
    simp only [mem_bits, Fin.getElem_fin, eq_iff_iff] at hmem
    exact Bool.eq_iff_iff.mpr hmem
  · intro h
    rw [h]

theorem bits_eq_empty : bits m = ∅ ↔ m = 0 := by
  rw [← bits_zero, bits_inj]

theorem and_eq_zero_iff : m &&& n = 0 ↔ Disjoint (bits m) (bits n) := by
  rw [← bits_eq_empty, bits_and, Finset.disjoint_iff_inter_eq_empty]

end BitSet
