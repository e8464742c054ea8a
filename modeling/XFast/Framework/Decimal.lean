import Mathlib.Data.Nat.Digits.Lemmas
import Mathlib.Data.Rat.Defs
import Mathlib.Tactic.FieldSimp
import Mathlib.Tactic.Ring
import XFast.Framework.Separator

/-! # Decimal texts and the numbers they denote

    * `value`: the number with some digits before the point and some behind.
      Digits appended behind the point change it unless they are all zero.
    * `denotes`: the number that a text denotes, with a sign and a point or
      without them. -/

namespace Decimal

open Separator

abbrev Digit : Type := Fin 10

/-! ## Section 1: Digits and values -/

/-- The natural number with these digits. -/
def natValue (ds : List Digit) : Nat := Nat.ofDigits 10 (ds.reverse.map Fin.val)

/-- The number with these digits before and behind the point. -/
def value (whole fraction : List Digit) : ℚ :=
  (natValue (whole ++ fraction) : ℚ) / 10 ^ fraction.length

theorem natValue_append (xs ys : List Digit) :
    natValue (xs ++ ys) = natValue xs * 10 ^ ys.length + natValue ys := by
  unfold natValue
  rw [List.reverse_append, List.map_append, Nat.ofDigits_append, List.length_map,
    List.length_reverse, Nat.add_comm, Nat.mul_comm]

theorem natValue_eq_zero {ds : List Digit} : natValue ds = 0 ↔ ∀ d ∈ ds, d = 0 := by
  constructor
  · intro h d hd
    have hmem : d.val ∈ ds.reverse.map Fin.val :=
      List.mem_map.mpr ⟨d, List.mem_reverse.mpr hd, rfl⟩
    exact Fin.ext (Nat.digits_zero_of_eq_zero (by decide) h d.val hmem)
  · intro h
    have hzeros : ds.reverse.map Fin.val = List.replicate ds.length 0 := by
      rw [List.eq_replicate_iff]
      refine ⟨by simp, ?_⟩
      intro n hn
      obtain ⟨d, hd, rfl⟩ := List.mem_map.mp hn
      rw [h d (List.mem_reverse.mp hd)]
      rfl
    unfold natValue
    rw [hzeros, Nat.ofDigits_replicate_zero]

theorem value_nil (whole : List Digit) : value whole [] = natValue whole := by
  unfold value
  simp

/-- Digits appended behind the point change the value unless they are zero. -/
theorem value_append_eq {whole fraction more : List Digit} :
    value whole fraction = value whole (fraction ++ more) ↔ ∀ d ∈ more, d = 0 := by
  have hfraction : (10 : ℚ) ^ fraction.length ≠ 0 := by positivity
  have hmore : (10 : ℚ) ^ more.length ≠ 0 := by positivity
  unfold value
  rw [← List.append_assoc, natValue_append (whole ++ fraction), List.length_append, pow_add,
    ← natValue_eq_zero]
  push_cast
  rw [div_eq_div_iff hfraction (mul_ne_zero hfraction hmore)]
  constructor
  · intro h
    have hzero : (natValue more : ℚ) * 10 ^ fraction.length = 0 := by linarith
    exact_mod_cast (mul_eq_zero.mp hzero).resolve_right hfraction
  · intro h
    rw [h]
    push_cast
    ring

/-- So do digits appended before the point, when the number is not zero. -/
theorem value_eq_longer {whole more fraction : List Digit} (h : natValue whole ≠ 0) :
    value whole [] = value (whole ++ more) fraction ↔ more = [] ∧ ∀ d ∈ fraction, d = 0 := by
  have hfraction : (10 : ℚ) ^ fraction.length ≠ 0 := by positivity
  have hcross : value whole [] = value (whole ++ more) fraction ↔
      natValue whole * 10 ^ fraction.length = natValue (whole ++ more ++ fraction) := by
    rw [value_nil]
    unfold value
    rw [eq_div_iff hfraction]
    exact_mod_cast Iff.rfl
  rw [hcross, natValue_append (whole ++ more) fraction, natValue_append whole more]
  constructor
  · intro heq
    have hmore : more = [] := by
      by_contra hne
      have hten : 10 ≤ 10 ^ more.length :=
        Nat.le_self_pow (List.length_pos_iff.mpr hne).ne' 10
      have hbig : natValue whole * 10 * 10 ^ fraction.length ≤
          (natValue whole * 10 ^ more.length + natValue more) * 10 ^ fraction.length :=
        Nat.mul_le_mul_right _
          (Nat.le_trans (Nat.mul_le_mul_left _ hten) (Nat.le_add_right _ _))
      have hpos : 0 < natValue whole * 10 ^ fraction.length :=
        Nat.mul_pos (Nat.pos_of_ne_zero h) (Nat.pow_pos (by decide))
      have hten' : natValue whole * 10 * 10 ^ fraction.length =
          10 * (natValue whole * 10 ^ fraction.length) := by ring
      omega
    subst hmore
    refine ⟨rfl, natValue_eq_zero.mp ?_⟩
    have hnil : natValue [] = 0 := rfl
    rw [hnil, List.length_nil, pow_zero, Nat.mul_one, Nat.add_zero] at heq
    omega
  · rintro ⟨rfl, hzero⟩
    rw [natValue_eq_zero.mpr hzero]
    have hnil : natValue [] = 0 := rfl
    rw [hnil, List.length_nil, pow_zero, Nat.mul_one, Nat.add_zero, Nat.add_zero]

theorem value_eq_zero {whole fraction : List Digit} :
    value whole fraction = 0 ↔ (∀ d ∈ whole, d = 0) ∧ ∀ d ∈ fraction, d = 0 := by
  have hfraction : (10 : ℚ) ^ fraction.length ≠ 0 := by positivity
  unfold value
  rw [div_eq_zero_iff, or_iff_left hfraction, Nat.cast_eq_zero, natValue_eq_zero,
    List.forall_mem_append]

/-- A list of digits is a list that does not end in zero, and zeros. -/
theorem trailing_zeros (ds : List Digit) : ∃ (front : List Digit) (n : Nat),
    ds = front ++ List.replicate n 0 ∧ front.getLast? ≠ some 0 := by
  induction ds using List.reverseRecOn with
  | nil => exact ⟨[], 0, rfl, by simp⟩
  | append_singleton ds d ih =>
    by_cases hd : d = 0
    · obtain ⟨front, n, rfl, hlast⟩ := ih
      refine ⟨front, n + 1, ?_, hlast⟩
      rw [hd, List.replicate_succ', List.append_assoc]
    · refine ⟨ds ++ [d], 0, (List.append_nil _).symm, ?_⟩
      rw [List.getLast?_concat]
      exact fun h => hd (Option.some.inj h)

/-! ## Section 2: Texts -/

def digitChar (d : Digit) : Char := Char.ofNat ('0'.toNat + d.val)

def readDigit (c : Char) : Option Digit :=
  if h : '0'.toNat ≤ c.toNat ∧ c.toNat < '0'.toNat + 10 then
    some ⟨c.toNat - '0'.toNat, by omega⟩
  else none

/-- The text of some digits. -/
def text (ds : List Digit) : List Char := ds.map digitChar

/-- The digits of a text that consists of digits. -/
def readDigits : List Char → Option (List Digit)
  | [] => some []
  | c :: s => do
      let d ← readDigit c
      let ds ← readDigits s
      return d :: ds

/-- The number that a text without a sign denotes. -/
def unsigned (s : List Char) : Option ℚ := do
  let whole ← readDigits (before '.' s)
  let fraction ← readDigits (after '.' s)
  if whole = [] then none else some (value whole fraction)

/-- The number that a text denotes. -/
def denotes : List Char → Option ℚ
  | '-' :: s => (unsigned s).map (- ·)
  | s => unsigned s

/-- A text with its sign. -/
def signed (negative : Bool) (s : List Char) : List Char := if negative then '-' :: s else s

theorem readDigit_digitChar : ∀ d : Digit, readDigit (digitChar d) = some d := by decide

theorem digitChar_ne_point : ∀ d : Digit, digitChar d ≠ '.' := by decide

theorem digitChar_ne_minus : ∀ d : Digit, digitChar d ≠ '-' := by decide

theorem digitChar_eq_zero : ∀ d : Digit, digitChar d = '0' ↔ d = 0 := by decide

@[simp] theorem text_append (xs ys : List Digit) : text (xs ++ ys) = text xs ++ text ys :=
  List.map_append

@[simp] theorem text_zeros (n : Nat) : text (List.replicate n 0) = List.replicate n '0' :=
  List.map_replicate

@[simp] theorem length_text (ds : List Digit) : (text ds).length = ds.length := List.length_map _

theorem point_notMem_text (ds : List Digit) : '.' ∉ text ds := by
  intro h
  obtain ⟨d, -, hd⟩ := List.mem_map.mp h
  exact digitChar_ne_point d hd

@[simp] theorem readDigits_text (ds : List Digit) : readDigits (text ds) = some ds := by
  induction ds with
  | nil => rfl
  | cons d ds ih =>
    show (readDigit (digitChar d)).bind (fun e => (readDigits (text ds)).bind fun es =>
      some (e :: es)) = some (d :: ds)
    rw [readDigit_digitChar, ih]
    rfl

theorem unsigned_whole {whole : List Digit} (h : whole ≠ []) :
    unsigned (text whole) = some (value whole []) := by
  unfold unsigned
  rw [before_of_notMem (point_notMem_text whole), after_of_notMem (point_notMem_text whole),
    readDigits_text]
  simp [readDigits, h]

theorem unsigned_point {whole : List Digit} (h : whole ≠ []) (fraction : List Digit) :
    unsigned (text whole ++ '.' :: text fraction) = some (value whole fraction) := by
  unfold unsigned
  rw [before_append (point_notMem_text whole), after_append (point_notMem_text whole),
    readDigits_text, readDigits_text]
  simp [h]

/-- Two texts with the same sign denote the same if they do without it. -/
theorem denotes_signed (negative : Bool) {s : List Char} (h : s.head? ≠ some '-') :
    denotes (signed negative s) = (unsigned s).map fun q => if negative then -q else q := by
  cases negative with
  | true => rfl
  | false =>
    have hself : (unsigned s).map (fun q => q) = unsigned s := by simp
    show denotes s = (unsigned s).map (fun q => q)
    rw [hself]
    unfold denotes
    split
    · simp at h
    · rfl

theorem signed_inj (negative : Bool) {p q : ℚ} :
    ((if negative then -p else p) = if negative then -q else q) ↔ p = q := by
  cases negative with
  | true => exact neg_inj
  | false => exact Iff.rfl

end Decimal
