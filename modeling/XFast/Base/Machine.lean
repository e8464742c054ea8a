import Mathlib.Algebra.Group.Int.Defs
import Mathlib.Algebra.Group.Nat.Defs
import Mathlib.Data.Int.Basic

/-! # Machine arithmetic and the ways a call ends

    The library is C++ on a 64-bit host.  Lengths and indexes are `size_t`,
    results of system calls are `ssize_t` or `int`.  A `size_t` is a `Nat`
    below `2 ^ 64` whose sums and differences wrap around; an `int` is an
    `Int` whose conversions wrap around at 32 bits.

    A call that does not return normally ends in one of the ways of `Halt`. -/

namespace XFast

/-! ## Section 1: How a call ends -/

/-- The ways a call can end other than by returning. -/
inductive Halt where
  /-- A `std::exception` is thrown. -/
  | exception
  /-- An `assert` fails and the process aborts. -/
  | assertFailed
  /-- Memory outside an object is touched: undefined behaviour. -/
  | memoryFault
  /-- The scripted outcomes are none that the kernel or the user can give. -/
  | infeasible
  /-- The bound on loop iterations or on callback nesting is used up. -/
  | outOfFuel
  deriving DecidableEq, Repr

/-- The C `assert` macro. -/
def cAssert (p : Prop) [Decidable p] : Except Halt Unit :=
  if p then .ok () else .error .assertFailed

@[simp] theorem cAssert_true {p : Prop} [Decidable p] (h : p) : cAssert p = .ok () := by
  simp [cAssert, h]

@[simp] theorem cAssert_false {p : Prop} [Decidable p] (h : ¬ p) :
    cAssert p = .error .assertFailed := by
  simp [cAssert, h]

@[simp] theorem pure_eq_ok {ε α : Type} (a : α) : (pure a : Except ε α) = .ok a := rfl

@[simp] theorem ok_bind {ε α β : Type} (a : α) (f : α → Except ε β) :
    (Except.ok a >>= f) = f a := rfl

@[simp] theorem error_bind {ε α β : Type} (e : ε) (f : α → Except ε β) :
    (Except.error e >>= f) = .error e := rfl

/-- Take a computation apart that returned: each of its steps returned. -/
theorem bind_eq_ok {ε α β : Type} {x : Except ε α} {f : α → Except ε β} {b : β}
    (h : (x >>= f) = .ok b) : ∃ a, x = .ok a ∧ f a = .ok b := by
  cases x with
  | ok a => exact ⟨a, rfl, h⟩
  | error e => cases h

theorem eq_ok_of_toOption {ε α : Type} {x : Except ε α} {a : α} (h : x.toOption = some a) :
    x = .ok a := by
  cases x with
  | ok b =>
    cases h
    rfl
  | error e => cases h

theorem exists_of_isOk {ε α : Type} {x : Except ε α} (h : x.isOk) : ∃ a, x = .ok a := by
  cases x with
  | ok a => exact ⟨a, rfl⟩
  | error e => cases h

/-! ## Section 2: `size_t` -/

/-- Number of `size_t` values. -/
def sizeModulus : Nat := 2 ^ 64

/-- `a + b` on `size_t`. -/
def sizeAdd (a b : Nat) : Nat := (a + b) % sizeModulus

/-- `a - b` on `size_t`. -/
def sizeSub (a b : Nat) : Nat := (a + (sizeModulus - b % sizeModulus)) % sizeModulus

/-- Conversion of an `int` or `ssize_t` to `size_t`. -/
def toSize (n : Int) : Nat := (n % (sizeModulus : Int)).toNat

theorem sizeAdd_of_lt {a b : Nat} (h : a + b < sizeModulus) : sizeAdd a b = a + b :=
  Nat.mod_eq_of_lt h

theorem sizeSub_of_le {a b : Nat} (hb : b ≤ a) (ha : a < sizeModulus) :
    sizeSub a b = a - b := by
  have hbm : b % sizeModulus = b := Nat.mod_eq_of_lt (by omega)
  have hsum : a + (sizeModulus - b) = (a - b) + sizeModulus := by omega
  unfold sizeSub
  rw [hbm, hsum, Nat.add_mod_right]
  exact Nat.mod_eq_of_lt (by omega)

theorem toSize_of_nonneg {n : Int} (h0 : 0 ≤ n) (h : n < (sizeModulus : Int)) :
    toSize n = n.toNat := by
  unfold toSize
  rw [Int.emod_eq_of_lt h0 h]

/-- A negative `int` wraps around. -/
theorem toSize_neg {n : Int} (hlo : -(2 ^ 31) ≤ n) (hneg : n < 0) :
    (toSize n : Int) = 2 ^ 64 + n := by
  have hmod : (sizeModulus : Int) = 2 ^ 64 := by decide
  unfold toSize
  rw [hmod]
  omega

/-- So it becomes a huge `size_t`. -/
theorem le_toSize_of_neg {n : Int} (hlo : -(2 ^ 31) ≤ n) (hneg : n < 0) :
    2 ^ 63 ≤ toSize n := by
  have hsize := toSize_neg hlo hneg
  omega

/-! ## Section 3: `int` and `int64_t` -/

/-- The value that a 64-bit signed integer holds, where it wraps around. -/
def toInt64 (n : Int) : Int := Int.bmod n (2 ^ 64)

theorem toInt64_of_range {n : Int} (hlo : -(2 ^ 63) ≤ n) (hhi : n < 2 ^ 63) :
    toInt64 n = n := by
  unfold toInt64
  rw [Int.bmod_def]
  split <;> omega

/-- Conversion of a wider integer to a 32-bit `int`. -/
def toInt32 (n : Int) : Int := Int.bmod n (2 ^ 32)

theorem toInt32_of_range {n : Int} (hlo : -(2 ^ 31) ≤ n) (hhi : n < 2 ^ 31) :
    toInt32 n = n := by
  unfold toInt32
  rw [Int.bmod_def]
  split <;> omega

theorem toInt32_lt (n : Int) : toInt32 n < 2 ^ 31 := by
  unfold toInt32
  rw [Int.bmod_def]
  split <;> omega

theorem le_toInt32 (n : Int) : -(2 ^ 31) ≤ toInt32 n := by
  unfold toInt32
  rw [Int.bmod_def]
  split <;> omega

/-- A sum of conversions is the conversion of the sum. -/
theorem toInt32_toInt32_add (a b : Int) : toInt32 (toInt32 a + b) = toInt32 (a + b) :=
  Int.bmod_add_bmod ..

/-- The conversion of a natural number does not exceed it. -/
theorem toInt32_le {n : Int} (h : 0 ≤ n) : toInt32 n ≤ n := by
  unfold toInt32
  rw [Int.bmod_def]
  split <;> omega

end XFast
