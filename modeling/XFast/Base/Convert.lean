import XFast.Base.Machine
import XFast.Framework.Numeral

/-! # xUtil: integers and their texts

    Model of `tostr` and `strto` of `base/util.h` and `base/util.cpp` for the
    integer types that `tostr` is specialised for.  `strto1` goes through
    `atoi`, `strtoul` and their like for the types that it is specialised for;
    `bool` and `unsigned char` go through an `istringstream`, which leaves the
    variable as it is when it finds nothing but white space.

    The functions of the C library stop at the null byte at the end of
    `c_str()`; one inside the string is no digit either, and stops them too. -/

namespace XFast

open Numeral

namespace XUtil

/-! ## Section 1: Types -/

/-- The integer types of `tostr`. -/
inductive IntType where
  | bool
  | char
  | unsignedChar
  | short
  | unsignedShort
  | int
  | unsignedInt
  | long
  | longLong
  | unsignedLong
  deriving DecidableEq, Repr

namespace IntType

def bits : IntType → Nat
  | bool => 1
  | char | unsignedChar => 8
  | short | unsignedShort => 16
  | int | unsignedInt => 32
  | long | longLong | unsignedLong => 64

def signed : IntType → Bool
  | char | short | int | long | longLong => true
  | bool | unsignedChar | unsignedShort | unsignedInt | unsignedLong => false

/-- The values of the type. -/
def Holds (ty : IntType) (t : Int) : Prop :=
  if ty.signed then -(2 ^ (ty.bits - 1)) ≤ t ∧ t < 2 ^ (ty.bits - 1) else 0 ≤ t ∧ t < 2 ^ ty.bits

instance (ty : IntType) (t : Int) : Decidable (ty.Holds t) := by
  unfold Holds
  infer_instance

/-- The conversion of an integer to the type. -/
def cast (ty : IntType) (n : Int) : Int :=
  if ty.signed then n.bmod (2 ^ ty.bits) else n % 2 ^ ty.bits

/-! ## Section 2: The model -/

/-- `string(buf)`, after `snprintf(buf, size, ..)`. -/
def printed (size : Nat) (s : List Char) : List Char := (s.take (size - 1)).takeWhile (· ≠ '\x00')

/-- What `%c` prints. -/
def byteChar (t : Int) : Char := Char.ofNat (t % 256).toNat

def tostr : IntType → Int → List Char
  | bool, t => if t ≠ 0 then ['1'] else ['0']
  | char, t | unsignedChar, t => printed 2 [byteChar t]
  | short, t | unsignedShort, t | int, t | unsignedInt, t => printed 16 (numeral t)
  | long, t | longLong, t | unsignedLong, t => printed 32 (numeral t)

/-- `strtol` in base 10, and `strtoll`. -/
def strtol (s : List Char) : Int := max (-(2 ^ 63)) (min (integer s) (2 ^ 63 - 1))

def atoi (s : List Char) : Int := cast int (strtol s)

def strtoul (s : List Char) : Int :=
  if 2 ^ 64 ≤ (integer s).natAbs then 2 ^ 64 - 1 else integer s % 2 ^ 64

/-- `sBuffer >> t` for an `unsigned char`. -/
def extractChar (s : List Char) : Option Int := (s.dropWhile isSpace).head?.map fun c => c.toNat

/-- `sBuffer >> t` for a `bool`. -/
def extractBool (s : List Char) : Option Int :=
  if s.dropWhile isSpace = [] then none else some (if integer s = 0 then 0 else 1)

/-- The specialisations of `strto1`. -/
def parsed (ty : IntType) (f : List Char → Int) (sStr : List Char) : Option Int :=
  some (if sStr = [] then 0 else cast ty (f sStr))

/-- `strto1`; no value where the result is a variable that was never set. -/
def strto : IntType → List Char → Option Int
  | bool, sStr => extractBool (if sStr = [] then ['0'] else sStr)
  | char, sStr => parsed char (fun s => (s.head?.getD '\x00').toNat) sStr
  | unsignedChar, sStr => extractChar (if sStr = [] then ['0'] else sStr)
  | short, sStr => parsed short atoi sStr
  | unsignedShort, sStr => parsed unsignedShort strtoul sStr
  | int, sStr => parsed int atoi sStr
  | unsignedInt, sStr => parsed unsignedInt strtoul sStr
  | long, sStr => parsed long strtol sStr
  | longLong, sStr => parsed longLong strtol sStr
  | unsignedLong, sStr => parsed unsignedLong strtoul sStr

/-- `strto<T>(sStr, sDefault)`. -/
def strtoOr (ty : IntType) (sStr sDefault : List Char) : Option Int :=
  ty.strto (if sStr ≠ [] then sStr else sDefault)

/-! ## Section 3: What is printed is read back -/

variable {ty : IntType} {t : Int}

theorem cast_of_holds (h : ty.Holds t) : cast ty t = t := by
  cases ty <;> simp only [Holds, cast, bits, signed, Bool.false_eq_true, if_true, if_false] at h ⊢
  case bool | unsignedChar | unsignedShort | unsignedInt | unsignedLong =>
    exact Int.emod_eq_of_lt h.1 h.2
  all_goals
    rw [Int.bmod_def]
    split <;> omega

/-- No type has more than twenty characters. -/
theorem printed_numeral {size k : Nat} (hk : 0 < k) (h : t.natAbs < 10 ^ k) (hsize : k + 2 ≤ size) :
    printed size (numeral t) = numeral t := by
  have hlength := length_numeral_le hk h
  have hnul : ∀ c ∈ numeral t, (decide (c ≠ '\x00')) = true := by
    intro c hc
    have hdigit : c = '-' ∨ c.isDigit := by
      unfold numeral at hc
      split at hc
      · exact (List.mem_cons.mp hc).imp_right fun hmem => isDigit_of_mem hmem
      · exact Or.inr (isDigit_of_mem hc)
    refine decide_eq_true ?_
    rintro rfl
    rcases hdigit with heq | hdigit
    · exact absurd heq (by decide)
    · exact absurd hdigit (by decide)
  unfold printed
  rw [List.take_of_length_le (by omega), List.takeWhile_eq_self_iff.mpr hnul]

theorem strtol_numeral (hlo : -(2 ^ 63) ≤ t) (hhi : t < 2 ^ 63) : strtol (numeral t) = t := by
  unfold strtol
  rw [integer_numeral]
  omega

theorem strtoul_numeral (hlo : 0 ≤ t) (hhi : t < 2 ^ 64) : strtoul (numeral t) = t := by
  unfold strtoul
  rw [integer_numeral, if_neg (by omega), Int.emod_eq_of_lt hlo hhi]

theorem parsed_numeral {f : List Char → Int} (h : ty.Holds t) (hf : f (numeral t) = t) :
    parsed ty f (numeral t) = some t := by
  unfold parsed
  rw [if_neg (numeral_ne_nil t), hf, cast_of_holds h]

theorem atoi_numeral (hlo : -(2 ^ 31) ≤ t) (hhi : t < 2 ^ 31) : atoi (numeral t) = t := by
  unfold atoi
  rw [strtol_numeral (by omega) (by omega)]
  have hholds : int.Holds t := ⟨hlo, hhi⟩
  exact cast_of_holds hholds

theorem toNat_byteChar (t : Int) : ((byteChar t).toNat : Int) = t % 256 := by
  have hbytes : ∀ n : Fin 256, (Char.ofNat n.val).toNat = n.val := by decide +kernel
  have hlt : (t % 256).toNat < 256 := by omega
  unfold byteChar
  rw [hbytes ⟨_, hlt⟩]
  show ((t % 256).toNat : Int) = t % 256
  omega

theorem printed_byteChar (t : Int) :
    printed 2 [byteChar t] = if t % 256 = 0 then [] else [byteChar t] := by
  have hnul : byteChar t = '\x00' ↔ t % 256 = 0 := by
    rw [← Char.toNat_inj, ← Int.natCast_inj, toNat_byteChar]
    exact Iff.rfl
  unfold printed
  simp only [List.take_succ_cons, Nat.add_one_sub_one, List.takeWhile_cons, ne_eq, hnul]
  by_cases h : t % 256 = 0 <;> simp [h]

theorem strto_tostr_char (h : char.Holds t) : char.strto (char.tostr t) = some t := by
  unfold strto tostr
  dsimp only
  rw [printed_byteChar]
  have hcast : cast char t = t := cast_of_holds h
  by_cases hzero : t % 256 = 0
  · have ht : t = 0 := by
      obtain ⟨hlo, hhi⟩ : -(2 ^ 7) ≤ t ∧ t < 2 ^ 7 := h
      omega
    rw [if_pos hzero, ht]
    rfl
  · rw [if_neg hzero]
    unfold parsed
    rw [if_neg (List.cons_ne_nil _ _)]
    dsimp only [List.head?_cons, Option.getD_some]
    rw [toNat_byteChar]
    have hemod : cast char (t % 256) = cast char t := Int.emod_bmod ..
    rw [hemod, hcast]

theorem strto_tostr_unsignedChar (h : unsignedChar.Holds t) :
    unsignedChar.strto (unsignedChar.tostr t) = some t ↔ ¬(t = 0 ∨ isSpace (byteChar t)) := by
  obtain ⟨hlo, hhi⟩ : 0 ≤ t ∧ t < 2 ^ 8 := h
  have hmod : t % 256 = t := Int.emod_eq_of_lt hlo hhi
  unfold strto tostr
  dsimp only
  rw [printed_byteChar, hmod]
  by_cases hzero : t = 0
  · -- the empty string is taken for "0"
    subst hzero
    rw [if_pos rfl, if_pos rfl]
    exact iff_of_false (by decide) fun hlost => hlost (Or.inl rfl)
  · rw [if_neg hzero, if_neg (List.cons_ne_nil _ _)]
    unfold extractChar
    by_cases hspace : isSpace (byteChar t)
    · rw [List.dropWhile_cons_of_pos hspace]
      simp [hspace]
    · rw [List.dropWhile_cons_of_neg hspace]
      have hread : ((byteChar t).toNat : Int) = t := (toNat_byteChar t).trans hmod
      simp [hspace, hzero, hread]

/-- What `tostr` prints is read back by `strto`, except for an `unsigned char`
    that is null or white space. -/
theorem strto_tostr (h : ty.Holds t) : ty.strto (ty.tostr t) = some t ↔
    ¬(ty = unsignedChar ∧ (t = 0 ∨ isSpace (byteChar t))) := by
  have hread : ty ≠ unsignedChar → ty.strto (ty.tostr t) = some t := by
    intro hne
    cases ty with
    | unsignedChar => exact absurd rfl hne
    | char => exact strto_tostr_char h
    | bool =>
      obtain ⟨hlo, hhi⟩ : 0 ≤ t ∧ t < 2 ^ 1 := h
      obtain rfl | rfl : t = 0 ∨ t = 1 := by omega
      all_goals decide
    | short =>
      have hrange : -(2 ^ 15) ≤ t ∧ t < 2 ^ 15 := h
      show parsed short atoi (printed 16 (numeral t)) = some t
      rw [printed_numeral (k := 10) (by decide) (by omega) (by decide)]
      exact parsed_numeral h (atoi_numeral (by omega) (by omega))
    | unsignedShort =>
      have hrange : 0 ≤ t ∧ t < 2 ^ 16 := h
      show parsed unsignedShort strtoul (printed 16 (numeral t)) = some t
      rw [printed_numeral (k := 10) (by decide) (by omega) (by decide)]
      exact parsed_numeral h (strtoul_numeral (by omega) (by omega))
    | int =>
      have hrange : -(2 ^ 31) ≤ t ∧ t < 2 ^ 31 := h
      show parsed int atoi (printed 16 (numeral t)) = some t
      rw [printed_numeral (k := 10) (by decide) (by omega) (by decide)]
      exact parsed_numeral h (atoi_numeral (by omega) (by omega))
    | unsignedInt =>
      have hrange : 0 ≤ t ∧ t < 2 ^ 32 := h
      show parsed unsignedInt strtoul (printed 16 (numeral t)) = some t
      rw [printed_numeral (k := 10) (by decide) (by omega) (by decide)]
      exact parsed_numeral h (strtoul_numeral (by omega) (by omega))
    | long =>
      have hrange : -(2 ^ 63) ≤ t ∧ t < 2 ^ 63 := h
      show parsed long strtol (printed 32 (numeral t)) = some t
      rw [printed_numeral (k := 20) (by decide) (by omega) (by decide)]
      exact parsed_numeral h (strtol_numeral (by omega) (by omega))
    | longLong =>
      have hrange : -(2 ^ 63) ≤ t ∧ t < 2 ^ 63 := h
      show parsed longLong strtol (printed 32 (numeral t)) = some t
      rw [printed_numeral (k := 20) (by decide) (by omega) (by decide)]
      exact parsed_numeral h (strtol_numeral (by omega) (by omega))
    | unsignedLong =>
      have hrange : 0 ≤ t ∧ t < 2 ^ 64 := h
      show parsed unsignedLong strtoul (printed 32 (numeral t)) = some t
      rw [printed_numeral (k := 20) (by decide) (by omega) (by decide)]
      exact parsed_numeral h (strtoul_numeral (by omega) (by omega))
  by_cases hty : ty = unsignedChar
  · subst hty
    rw [strto_tostr_unsignedChar h]
    simp
  · exact iff_of_true (hread hty) fun hlost => hty hlost.1

theorem strto_tostr_min : long.strto (long.tostr (-(2 ^ 63))) = some (-(2 ^ 63)) :=
  (strto_tostr (by decide)).mpr (by decide)

end IntType

end XUtil

end XFast
