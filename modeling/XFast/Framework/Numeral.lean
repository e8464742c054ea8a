import Mathlib.Algebra.Group.Nat.Defs
import Mathlib.Data.List.TakeWhile

/-! # Decimal numerals

    The numeral of a natural number is `Nat.toDigits 10`; of an integer, the
    same with a sign.  Reading takes the digits at the beginning of a text.

    * `leading_toDigits_append`: a numeral is read back, whatever stands
      behind it, as long as that is no digit.
    * `toDigits_ofDigitChars`: digits without a zero in front are the numeral
      of the number that they denote, so every number has one numeral.
    * `integer_numeral`: the same for integers. -/

namespace Numeral

/-! ## Section 1: Natural numbers -/

/-- The number that the digits at the beginning of a text denote. -/
def leading (s : List Char) : Nat := Nat.ofDigitChars 10 (s.takeWhile Char.isDigit) 0

/-- Digits, and no zero in front of another digit. -/
def IsNumeral (s : List Char) : Prop :=
  s ≠ [] ∧ s.all Char.isDigit ∧ (s.head? = some '0' → s = ['0'])

instance : DecidablePred IsNumeral := fun _ => inferInstanceAs (Decidable (_ ∧ _))

theorem isDigit_of_mem {n : Nat} {c : Char} (h : c ∈ Nat.toDigits 10 n) : c.isDigit :=
  Nat.isDigit_of_mem_toDigits (by decide) (by decide) h

theorem takeWhile_toDigits_append (n : Nat) {rest : List Char}
    (h : ∀ c ∈ rest.head?, ¬c.isDigit) :
    (Nat.toDigits 10 n ++ rest).takeWhile Char.isDigit = Nat.toDigits 10 n := by
  rw [List.takeWhile_append_of_pos fun c hc => isDigit_of_mem hc]
  cases rest with
  | nil => exact List.append_nil _
  | cons c rest =>
    rw [List.takeWhile_cons_of_neg (h c rfl)]
    exact List.append_nil _

theorem leading_toDigits_append (n : Nat) {rest : List Char} (h : ∀ c ∈ rest.head?, ¬c.isDigit) :
    leading (Nat.toDigits 10 n ++ rest) = n := by
  unfold leading
  rw [takeWhile_toDigits_append n h, Nat.ofDigitChars_ten_toDigits]

theorem leading_toDigits (n : Nat) : leading (Nat.toDigits 10 n) = n := by
  have hnone : ∀ c ∈ ([] : List Char).head?, ¬c.isDigit := nofun
  have hall := leading_toDigits_append n hnone
  rw [List.append_nil] at hall
  exact hall

theorem toDigits_injective {m n : Nat} (h : Nat.toDigits 10 m = Nat.toDigits 10 n) : m = n := by
  have hread := congrArg leading h
  rw [leading_toDigits, leading_toDigits] at hread
  exact hread

theorem digitChar_of_isDigit {c : Char} (h : c.isDigit) :
    c.toNat - '0'.toNat < 10 ∧ Nat.digitChar (c.toNat - '0'.toNat) = c := by
  have hrange : 48 ≤ c.toNat ∧ c.toNat ≤ 57 := by
    simpa [Char.isDigit, UInt32.le_iff_toNat_le] using h
  have hlt : c.toNat - 48 < 10 := by omega
  refine ⟨hlt, Char.toNat_inj.mp ?_⟩
  show (Nat.digitChar (c.toNat - 48)).toNat = c.toNat
  rw [Nat.toNat_digitChar_of_lt_ten hlt]
  omega

/-- Digits behind a numeral that is not zero make a numeral. -/
theorem toDigits_append_digits {s : List Char} (h : ∀ c ∈ s, c.isDigit) : ∀ {n : Nat}, 0 < n →
    Nat.toDigits 10 (Nat.ofDigitChars 10 s n) = Nat.toDigits 10 n ++ s := by
  induction s with
  | nil =>
    intro n _
    rw [Nat.ofDigitChars_nil, List.append_nil]
  | cons c s ih =>
    intro n hn
    obtain ⟨hlt, hchar⟩ := digitChar_of_isDigit (h c List.mem_cons_self)
    have hrest := ih (fun d hd => h d (List.mem_cons_of_mem c hd))
      (n := 10 * n + (c.toNat - '0'.toNat)) (by omega)
    rw [Nat.ofDigitChars_cons, hrest, ← Nat.toDigits_append_toDigits (by decide) hn hlt,
      Nat.toDigits_of_lt_base hlt, hchar, List.append_assoc, List.singleton_append]

theorem toDigits_ofDigitChars {s : List Char} (h : IsNumeral s) :
    Nat.toDigits 10 (Nat.ofDigitChars 10 s 0) = s := by
  obtain ⟨hne, hall, hzero⟩ := h
  have hdigits : ∀ c ∈ s, c.isDigit := List.all_eq_true.mp hall
  cases s with
  | nil => exact absurd rfl hne
  | cons c s =>
    obtain ⟨hlt, hchar⟩ := digitChar_of_isDigit (hdigits c List.mem_cons_self)
    rw [Nat.ofDigitChars_cons, Nat.mul_zero, Nat.zero_add]
    by_cases hpos : 0 < c.toNat - '0'.toNat
    · rw [toDigits_append_digits (fun d hd => hdigits d (List.mem_cons_of_mem c hd)) hpos,
        Nat.toDigits_of_lt_base hlt, hchar, List.singleton_append]
    · -- a zero stands alone
      have hc : c = '0' := by
        rw [← hchar, Nat.eq_zero_of_not_pos hpos]
        rfl
      subst hc
      rw [(List.cons.inj (hzero rfl)).2]
      rfl

theorem head_toDigits {n : Nat} (h : (Nat.toDigits 10 n).head? = some '0') : n = 0 := by
  induction n using Nat.strongRecOn with
  | ind n ih =>
    by_cases hlt : n < 10
    · rw [Nat.toDigits_of_lt_base hlt] at h
      have hchar : Nat.digitChar n = '0' := Option.some.inj h
      have hvalue := Nat.toNat_digitChar_of_lt_ten hlt
      rw [hchar] at hvalue
      have h48 : '0'.toNat = 48 := rfl
      omega
    · have hsplit := Nat.toDigits_of_base_le (b := 10) (by decide) (Nat.le_of_not_lt hlt)
      have hhead : (Nat.toDigits 10 (n / 10)).head? = some '0' := by
        cases heq : Nat.toDigits 10 (n / 10) with
        | nil => exact absurd heq Nat.toDigits_ne_nil
        | cons c s =>
          rw [hsplit, heq] at h
          exact h
      have hzero := ih (n / 10) (by omega) hhead
      omega

theorem isNumeral_toDigits (n : Nat) : IsNumeral (Nat.toDigits 10 n) := by
  refine ⟨Nat.toDigits_ne_nil, List.all_eq_true.mpr fun c hc => isDigit_of_mem hc, fun h => ?_⟩
  rw [head_toDigits h]
  rfl

/-- The numerals are the texts that are read as a number and written again. -/
theorem isNumeral_iff {s : List Char} : IsNumeral s ↔ Nat.toDigits 10 (leading s) = s := by
  constructor
  · intro h
    unfold leading
    rw [List.takeWhile_eq_self_iff.mpr (List.all_eq_true.mp h.2.1)]
    exact toDigits_ofDigitChars h
  · intro h
    rw [← h]
    exact isNumeral_toDigits _

/-! ## Section 2: Integers -/

/-- The C function `isspace`. -/
def isSpace (c : Char) : Bool := decide (c.toNat = 32 ∨ 9 ≤ c.toNat ∧ c.toNat ≤ 13)

/-- What `%d` prints. -/
def numeral (v : Int) : List Char :=
  if v < 0 then '-' :: Nat.toDigits 10 v.natAbs else Nat.toDigits 10 v.natAbs

/-- The integer at the beginning of a text, behind white space: a sign, which
    may be missing, and digits. -/
def integer (s : List Char) : Int :=
  match s.dropWhile isSpace with
  | '-' :: t => -(leading t : Int)
  | '+' :: t => leading t
  | t => leading t

theorem not_isSpace_of_isDigit {c : Char} (h : c.isDigit) : ¬isSpace c := by
  have hrange : 48 ≤ c.toNat ∧ c.toNat ≤ 57 := by
    simpa [Char.isDigit, UInt32.le_iff_toNat_le] using h
  simp only [isSpace, decide_eq_true_eq]
  omega

/-- The first digit of a numeral. -/
theorem toDigits_eq_cons (n : Nat) : ∃ c s, Nat.toDigits 10 n = c :: s ∧ c.isDigit := by
  cases heq : Nat.toDigits 10 n with
  | nil => exact absurd heq Nat.toDigits_ne_nil
  | cons c s => exact ⟨c, s, rfl, isDigit_of_mem (heq ▸ List.mem_cons_self)⟩

theorem dropWhile_numeral_append (v : Int) (rest : List Char) :
    (numeral v ++ rest).dropWhile isSpace = numeral v ++ rest := by
  unfold numeral
  split
  · exact List.dropWhile_cons_of_neg (by decide)
  · obtain ⟨c, s, heq, hdigit⟩ := toDigits_eq_cons v.natAbs
    rw [heq]
    exact List.dropWhile_cons_of_neg (not_isSpace_of_isDigit hdigit)

theorem integer_numeral_append (v : Int) {rest : List Char} (h : ∀ c ∈ rest.head?, ¬c.isDigit) :
    integer (numeral v ++ rest) = v := by
  unfold integer
  rw [dropWhile_numeral_append]
  unfold numeral
  by_cases hneg : v < 0
  · rw [if_pos hneg, List.cons_append]
    show -(leading (Nat.toDigits 10 v.natAbs ++ rest) : Int) = v
    rw [leading_toDigits_append _ h]
    omega
  · rw [if_neg hneg]
    have hread := leading_toDigits_append v.natAbs h
    obtain ⟨c, s, heq, hdigit⟩ := toDigits_eq_cons v.natAbs
    rw [heq, List.cons_append] at hread ⊢
    split
    case h_1 t hminus =>
      rw [(List.cons.inj hminus).1] at hdigit
      exact absurd hdigit (by decide)
    case h_2 t hplus =>
      rw [(List.cons.inj hplus).1] at hdigit
      exact absurd hdigit (by decide)
    case h_3 =>
      rw [hread]
      omega

theorem integer_numeral (v : Int) : integer (numeral v) = v := by
  have hnone : ∀ c ∈ ([] : List Char).head?, ¬c.isDigit := nofun
  have hall := integer_numeral_append v hnone
  rw [List.append_nil] at hall
  exact hall

theorem numeral_ne_nil (v : Int) : numeral v ≠ [] := by
  unfold numeral
  split
  · exact List.cons_ne_nil _ _
  · exact Nat.toDigits_ne_nil

theorem length_numeral_le {v : Int} {k : Nat} (hk : 0 < k) (h : v.natAbs < 10 ^ k) :
    (numeral v).length ≤ k + 1 := by
  have hdigits := (Nat.length_toDigits_le_iff (b := 10) (by decide) hk).mpr h
  unfold numeral
  split
  · rw [List.length_cons]
    omega
  · omega

end Numeral
