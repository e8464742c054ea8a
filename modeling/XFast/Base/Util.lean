import XFast.Base.Machine
import XFast.Framework.Decimal

/-! # xUtil: the text of a double

    Model of `tostr<double>` in `base/util.cpp`.  The number is printed with
    five digits behind the point, into a buffer of 32 bytes, and then a loop
    from the end takes away zeros, and the point if nothing is left behind it.

    The loop looks for the point only next to a zero.  When the point is no
    longer in the buffer, the zeros that it takes away are those of the integer
    part. -/

namespace XFast

open Decimal

namespace XUtil

/-! ## Section 1: The model -/

/-- What `%.5f` makes of a finite double. -/
structure DoubleText where
  negative : Bool
  whole : List Digit
  fraction : List Digit
  whole_ne : whole ≠ []
  fraction_length : fraction.length = 5

def DoubleText.text (t : DoubleText) : List Char :=
  signed t.negative (Decimal.text t.whole ++ '.' :: Decimal.text t.fraction)

/-- What is in `buf` after `snprintf(buf, 32, ...)`, up to the null byte. -/
def snprintf (t : List Char) : List Char := t.take 31

/-- The loop over `pos`, with `bFlag`; what it leaves of both. -/
def trimLoop (s : List Char) : (pos : Nat) → (bFlag : Bool) → Int × Bool
  | 0, bFlag => (0, bFlag)
  | pos + 1, bFlag =>
      if s[pos + 1]? = some '0' then
        if s[pos]? = some '.' then ((pos + 1 : Nat) - 2, true)
        else trimLoop s pos true
      else ((pos + 1 : Nat), bFlag)

/-- `s` without the zeros at its end. -/
def trim (s : List Char) : List Char :=
  let left := trimLoop s (toInt32 (sizeSub s.length 1)).toNat false
  if left.2 then s.take (toSize (left.1 + 1)) else s

def tostr (t : List Char) : List Char := trim (snprintf t)

/-! ## Section 2: The loop -/

theorem trimLoop_zeros {front : List Char} {c : Char} {r : Nat} (hc : c ≠ '0' ∨ front = [])
    (hpoint : c ≠ '.' ∨ r = 0) : ∀ n ≤ r, ∀ bFlag,
      trimLoop (front ++ c :: List.replicate r '0') (front.length + n) bFlag =
        ((front.length : Int), bFlag || decide (0 < n))
  | 0, _, bFlag => by
      rw [Nat.add_zero]
      cases hlen : front.length with
      | zero =>
        unfold trimLoop
        simp
      | succ k =>
        have hnot : c ≠ '0' := by
          refine hc.resolve_right ?_
          rintro rfl
          cases hlen
        have hget : (front ++ c :: List.replicate r '0')[k + 1]? = some c := by
          rw [← hlen, List.getElem?_append_right (Nat.le_refl _), Nat.sub_self]
          rfl
        unfold trimLoop
        rw [hget, if_neg (fun h => hnot (Option.some.inj h))]
        simp
  | n + 1, hn, bFlag => by
      have hget : (front ++ c :: List.replicate r '0')[front.length + n + 1]? = some '0' := by
        rw [List.getElem?_append_right (by omega), Nat.add_assoc, Nat.add_sub_cancel_left,
          List.getElem?_cons_succ, List.getElem?_replicate_of_lt (by omega)]
      have hbefore : (front ++ c :: List.replicate r '0')[front.length + n]? ≠ some '.' := by
        rw [List.getElem?_append_right (by omega), Nat.add_sub_cancel_left]
        cases n with
        | zero =>
          have hnot : c ≠ '.' := hpoint.resolve_right (by omega)
          exact fun h => hnot (Option.some.inj h)
        | succ m =>
          rw [List.getElem?_cons_succ, List.getElem?_replicate_of_lt (by omega)]
          decide
      rw [← Nat.add_assoc]
      unfold trimLoop
      rw [if_pos hget, if_neg hbefore, trimLoop_zeros hc hpoint n (by omega) true]
      simp

theorem trimLoop_point (front : List Char) (r : Nat) : ∀ n ≤ r, ∀ bFlag,
    trimLoop (front ++ '.' :: List.replicate (r + 1) '0') (front.length + n + 1) bFlag =
      ((front.length : Int) - 1, true)
  | n, hn, bFlag => by
      have hget : (front ++ '.' :: List.replicate (r + 1) '0')[front.length + n + 1]? =
          some '0' := by
        rw [List.getElem?_append_right (by omega), Nat.add_assoc, Nat.add_sub_cancel_left,
          List.getElem?_cons_succ, List.getElem?_replicate_of_lt (by omega)]
      unfold trimLoop
      rw [if_pos hget, List.getElem?_append_right (by omega), Nat.add_sub_cancel_left]
      cases n with
      | zero =>
        rw [List.getElem?_cons_zero, if_pos rfl]
        simp only [Prod.mk.injEq, and_true]
        omega
      | succ m =>
        have hbefore : ('.' :: List.replicate (r + 1) '0')[m + 1]? ≠ some '.' := by
          rw [List.getElem?_cons_succ, List.getElem?_replicate_of_lt (by omega)]
          decide
        rw [if_neg hbefore]
        exact trimLoop_point front r m (by omega) true

/-- The loop starts at the last character. -/
theorem start_eq {s : List Char} (h0 : 0 < s.length) (h : s.length ≤ 31) :
    (toInt32 (sizeSub s.length 1)).toNat = s.length - 1 := by
  have hmod : s.length < sizeModulus := Nat.lt_of_le_of_lt h (by decide)
  rw [sizeSub_of_le h0 hmod, toInt32_of_range (by omega) (by omega)]
  omega

theorem trim_of_loop {s : List Char} (h0 : 0 < s.length) (h : s.length ≤ 31) {pos : Int}
    {bFlag : Bool} (hloop : trimLoop s (s.length - 1) false = (pos, bFlag)) :
    trim s = if bFlag then s.take (toSize (pos + 1)) else s := by
  unfold trim
  rw [start_eq h0 h, hloop]

theorem toSize_length {s : List Char} (h : s.length ≤ 31) : toSize (s.length : Int) = s.length := by
  have hmod : (sizeModulus : Int) = 2 ^ 64 := by decide
  rw [toSize_of_nonneg (by omega) (by omega)]
  rfl

/-- Zeros behind another character, which is no point, are taken away; behind
    the first character whatever it is. -/
theorem trim_zeros {front : List Char} {c : Char} {r : Nat} (hc : c ≠ '0' ∨ front = [])
    (hpoint : c ≠ '.' ∨ r = 0) (h : (front ++ c :: List.replicate r '0').length ≤ 31) :
    trim (front ++ c :: List.replicate r '0') = front ++ [c] := by
  have hsplit : front ++ c :: List.replicate r '0' =
      (front ++ [c]) ++ List.replicate r '0' := by simp
  have hlen : (front ++ c :: List.replicate r '0').length = front.length + r + 1 := by
    simp
    omega
  have hfront : (front ++ [c]).length = front.length + 1 := by simp
  have hloop : trimLoop (front ++ c :: List.replicate r '0')
      ((front ++ c :: List.replicate r '0').length - 1) false =
        ((front.length : Int), decide (0 < r)) := by
    rw [hlen, Nat.add_sub_cancel, trimLoop_zeros hc hpoint r (Nat.le_refl r) false,
      Bool.false_or]
  rw [trim_of_loop (by omega) h hloop]
  cases r with
  | zero => simp
  | succ r =>
    have hsize := toSize_length (s := front ++ [c]) (by omega)
    rw [hfront] at hsize
    push_cast at hsize
    rw [if_pos (by simp), hsize, hsplit, ← hfront]
    exact List.take_left

/-- With nothing but zeros behind the point, the point goes too. -/
theorem trim_point {front : List Char} {r : Nat}
    (h : (front ++ '.' :: List.replicate (r + 1) '0').length ≤ 31) :
    trim (front ++ '.' :: List.replicate (r + 1) '0') = front := by
  have hlen : (front ++ '.' :: List.replicate (r + 1) '0').length = front.length + r + 2 := by
    simp
    omega
  have hstart : front.length + r + 2 - 1 = front.length + r + 1 := by omega
  have hloop : trimLoop (front ++ '.' :: List.replicate (r + 1) '0')
      ((front ++ '.' :: List.replicate (r + 1) '0').length - 1) false =
        ((front.length : Int) - 1, true) := by
    rw [hlen, hstart, trimLoop_point front r r (Nat.le_refl r) false]
  rw [trim_of_loop (by omega) h hloop, if_pos rfl, Int.sub_add_cancel,
    toSize_length (s := front) (by omega)]
  exact List.take_left

/-! ## Section 3: What is in the buffer -/

namespace DoubleText

/-- The sign and the digits before the point. -/
def lead (t : DoubleText) : List Char := signed t.negative (Decimal.text t.whole)

def leadLength (t : DoubleText) : Nat := (if t.negative then 1 else 0) + t.whole.length

theorem signed_append (negative : Bool) (s u : List Char) :
    signed negative (s ++ u) = signed negative s ++ u := by
  cases negative <;> rfl

theorem length_signed (negative : Bool) (s : List Char) :
    (signed negative s).length = (if negative then 1 else 0) + s.length := by
  cases negative with
  | true => exact Nat.add_comm _ _
  | false => exact (Nat.zero_add _).symm

theorem text_eq (t : DoubleText) : t.text = t.lead ++ '.' :: Decimal.text t.fraction :=
  signed_append _ _ _

theorem length_lead (t : DoubleText) : t.lead.length = t.leadLength := by
  unfold lead leadLength
  rw [length_signed, length_text]

/-- The point is in the buffer, with the digits for which there is room. -/
theorem snprintf_short {t : DoubleText} (h : t.leadLength ≤ 30) :
    snprintf t.text = t.lead ++ '.' :: Decimal.text (t.fraction.take (30 - t.leadLength)) := by
  have hroom : 31 - t.lead.length = (30 - t.leadLength) + 1 := by
    rw [length_lead]
    omega
  unfold snprintf
  rw [text_eq, List.take_append, hroom, List.take_succ_cons, List.take_of_length_le]
  · unfold Decimal.text
    rw [List.map_take]
  · rw [length_lead]
    omega

/-- Only digits before the point are in the buffer. -/
theorem snprintf_long {t : DoubleText} (h : 31 ≤ t.leadLength) :
    snprintf t.text = signed t.negative
      (Decimal.text (t.whole.take (31 - if t.negative then 1 else 0))) := by
  unfold snprintf
  rw [text_eq, List.take_append_of_le_length (by rw [length_lead]; exact h)]
  unfold lead Decimal.text
  rw [List.map_take]
  cases t.negative with
  | true => rfl
  | false => rfl

/-! ## Section 4: What the text denotes -/

theorem head_text (ds : List Digit) (s : List Char) (h : ds ≠ []) :
    (Decimal.text ds ++ s).head? ≠ some '-' := by
  cases ds with
  | nil => exact absurd rfl h
  | cons d ds => exact fun heq => digitChar_ne_minus d (Option.some.inj heq)

/-- The number with the sign of the text. -/
def withSign (t : DoubleText) (q : ℚ) : ℚ := if t.negative then -q else q

theorem denotes_whole (t : DoubleText) {ds : List Digit} (h : ds ≠ []) :
    denotes (signed t.negative (Decimal.text ds)) = some (t.withSign (value ds [])) := by
  have hhead := head_text ds [] h
  rw [List.append_nil] at hhead
  rw [denotes_signed _ hhead, unsigned_whole h]
  rfl

theorem denotes_point (t : DoubleText) {ds : List Digit} (h : ds ≠ []) (fraction : List Digit) :
    denotes (signed t.negative (Decimal.text ds) ++ '.' :: Decimal.text fraction) =
      some (t.withSign (value ds fraction)) := by
  rw [← signed_append, denotes_signed _ (head_text ds _ h), unsigned_point h]
  rfl

theorem denotes_text (t : DoubleText) :
    denotes t.text = some (t.withSign (value t.whole t.fraction)) := by
  rw [text_eq]
  exact t.denotes_point t.whole_ne t.fraction

theorem withSign_inj (t : DoubleText) {p q : ℚ} :
    some (t.withSign p) = some (t.withSign q) ↔ p = q := by
  rw [Option.some_inj]
  exact signed_inj t.negative

/-- A text of digits ends in a digit. -/
theorem getLast_signed (negative : Bool) (ds : List Digit) (d : Digit) :
    (signed negative (Decimal.text (ds ++ [d]))).getLast? = some (digitChar d) := by
  have hsplit : signed negative (Decimal.text (ds ++ [d])) =
      signed negative (Decimal.text ds) ++ [digitChar d] := by
    rw [text_append, signed_append]
    rfl
  rw [hsplit, List.getLast?_concat]

theorem point_notMem_signed (negative : Bool) (ds : List Digit) :
    '.' ∉ signed negative (Decimal.text ds) := by
  cases negative with
  | true => simpa [signed] using point_notMem_text ds
  | false => exact point_notMem_text ds

/-- The text is what the loop should make of a text: it denotes `q`, and has
    nothing at its end that it can do without. -/
structure Trimmed (s : List Char) (q : Option ℚ) : Prop where
  value : denotes s = q
  zero : '.' ∈ s → s.getLast? ≠ some '0'
  point : s.getLast? ≠ some '.'

theorem trimmed_whole (t : DoubleText) {ds : List Digit} (h : ds ≠ []) (q : Option ℚ) :
    Trimmed (signed t.negative (Decimal.text ds)) q ↔ some (t.withSign (value ds [])) = q := by
  have hden := t.denotes_whole h
  constructor
  · intro htrimmed
    exact hden.symm.trans htrimmed.value
  · intro hq
    refine ⟨hden.trans hq, fun hmem => absurd hmem (point_notMem_signed _ _), ?_⟩
    rw [← List.dropLast_append_getLast h, getLast_signed]
    exact fun heq => digitChar_ne_point _ (Option.some.inj heq)

/-- What the loop makes of a text in which the point is. -/
theorem tostr_short {t : DoubleText} (h : t.leadLength ≤ 29) {front : List Digit} {r : Nat}
    (hkept : t.fraction.take (30 - t.leadLength) = front ++ List.replicate r 0)
    (hlast : front.getLast? ≠ some 0) :
    tostr t.text = if front = [] then t.lead else t.lead ++ '.' :: Decimal.text front := by
  have hprinted : snprintf t.text =
      t.lead ++ '.' :: (Decimal.text front ++ List.replicate r '0') := by
    rw [snprintf_short (by omega), hkept, text_append, text_zeros]
  have hlength : (snprintf t.text).length ≤ 31 := List.length_take_le _ _
  unfold tostr
  rw [hprinted] at hlength ⊢
  rcases List.eq_nil_or_concat front with rfl | ⟨rest, d, rfl⟩
  · have hpos : 0 < r := by
      have hlen := congrArg List.length hkept
      rw [List.length_take, t.fraction_length, List.nil_append, List.length_replicate] at hlen
      omega
    obtain ⟨k, rfl⟩ := Nat.exists_eq_succ_of_ne_zero (Nat.pos_iff_ne_zero.mp hpos)
    rw [if_pos rfl]
    exact trim_point hlength
  · rw [List.concat_eq_append, List.getLast?_concat] at hlast
    have hd : digitChar d ≠ '0' := fun heq => hlast (congrArg some ((digitChar_eq_zero d).mp heq))
    have hsplit : t.lead ++ '.' :: (Decimal.text (rest.concat d) ++ List.replicate r '0') =
        (t.lead ++ '.' :: Decimal.text rest) ++ digitChar d :: List.replicate r '0' := by
      simp [Decimal.text]
    rw [hsplit] at hlength ⊢
    rw [trim_zeros (.inl hd) (.inl (digitChar_ne_point d)) hlength, if_neg (by simp)]
    simp [Decimal.text]

/-- With the point in the buffer, the value is kept if the digits for which
    there is no room are zeros. -/
theorem trimmed_short {t : DoubleText} (h : t.leadLength ≤ 29) :
    Trimmed (tostr t.text) (denotes t.text) ↔
      ∀ d ∈ t.fraction.drop (30 - t.leadLength), d = 0 := by
  obtain ⟨front, r, hkept, hlast⟩ := trailing_zeros (t.fraction.take (30 - t.leadLength))
  have hfraction : t.fraction =
      front ++ (List.replicate r 0 ++ t.fraction.drop (30 - t.leadLength)) := by
    rw [← List.append_assoc, ← hkept, List.take_append_drop]
  have hvalue : value t.whole front = value t.whole t.fraction ↔
      ∀ d ∈ t.fraction.drop (30 - t.leadLength), d = 0 := by
    conv_lhs => rw [hfraction]
    rw [value_append_eq, List.forall_mem_append]
    exact and_iff_right fun d hd => List.eq_of_mem_replicate hd
  rw [← hvalue, t.denotes_text, tostr_short h hkept hlast]
  by_cases hfront : front = []
  · subst hfront
    rw [if_pos rfl]
    exact (t.trimmed_whole t.whole_ne _).trans t.withSign_inj
  · rw [if_neg hfront]
    have hden : denotes (t.lead ++ '.' :: Decimal.text front) =
        some (t.withSign (value t.whole front)) := t.denotes_point t.whole_ne front
    have hend : (t.lead ++ '.' :: Decimal.text front).getLast? =
        some (digitChar (front.getLast hfront)) := by
      have hsplit : t.lead ++ '.' :: Decimal.text front =
          (t.lead ++ '.' :: Decimal.text front.dropLast) ++ [digitChar (front.getLast hfront)] := by
        conv_lhs => rw [← List.dropLast_append_getLast hfront]
        simp [Decimal.text]
      rw [hsplit, List.getLast?_concat]
    rw [List.getLast?_eq_some_getLast hfront] at hlast
    constructor
    · intro htrimmed
      exact t.withSign_inj.mp (hden.symm.trans htrimmed.value)
    · intro heq
      refine ⟨hden.trans (t.withSign_inj.mpr heq), fun _ => ?_, ?_⟩
      · rw [hend]
        exact fun hzero =>
          hlast (congrArg some ((digitChar_eq_zero _).mp (Option.some.inj hzero)))
      · rw [hend]
        exact fun hpoint => digitChar_ne_point _ (Option.some.inj hpoint)

/-- With the point at the end of the buffer, it stays there. -/
theorem not_trimmed_point {t : DoubleText} (h : t.leadLength = 30) (q : Option ℚ) :
    ¬ Trimmed (tostr t.text) q := by
  intro htrimmed
  have hprinted : snprintf t.text = t.lead ++ '.' :: List.replicate 0 '0' := by
    rw [snprintf_short (Nat.le_of_eq h), h]
    rfl
  have hlength : (snprintf t.text).length ≤ 31 := List.length_take_le _ _
  apply htrimmed.point
  unfold tostr
  rw [hprinted] at hlength ⊢
  rw [trim_zeros (.inl (by decide)) (.inr rfl) hlength, List.getLast?_concat]

/-- So many digits before the point the buffer holds at most. -/
def room (t : DoubleText) : Nat := 31 - if t.negative then 1 else 0

/-- With zeros in the place of all the digits in the buffer, the last digit
    before the point is not another one just behind them. -/
theorem not_last_of_zeros {t : DoubleText} {r : Nat}
    (hzeros : t.whole.take t.room = List.replicate r 0) :
    ¬ (t.leadLength = 31 ∧ t.whole.getLast? ≠ some 0) := by
  rintro ⟨hlength, hlast⟩
  have hall : t.whole.take t.room = t.whole := by
    apply List.take_of_length_le
    unfold leadLength at hlength
    unfold room
    omega
  rw [hall] at hzeros
  have hzero : ∀ d ∈ t.whole, d = 0 := by
    rw [hzeros]
    exact fun d hd => List.eq_of_mem_replicate hd
  apply hlast
  rw [List.getLast?_eq_some_getLast t.whole_ne]
  exact congrArg some (hzero _ (List.getLast_mem t.whole_ne))

/-- A digit that is not zero is the last one in the buffer: nothing is cut off
    or taken away behind it exactly if the number is just as long and ends in
    another digit than zero. -/
theorem nothing_lost_iff {t : DoubleText} (h : 31 ≤ t.leadLength) {rest : List Digit} {d : Digit}
    {r : Nat} (hd : d ≠ 0)
    (hwhole : t.whole = rest ++ [d] ++ (List.replicate r 0 ++ t.whole.drop t.room)) :
    List.replicate r 0 ++ t.whole.drop t.room = [] ↔
      t.leadLength = 31 ∧ t.whole.getLast? ≠ some 0 := by
  rw [List.append_eq_nil_iff, List.replicate_eq_nil_iff, List.drop_eq_nil_iff]
  constructor
  · rintro ⟨rfl, hshort⟩
    refine ⟨?_, ?_⟩
    · have hsign : (if t.negative then 1 else 0) ≤ 1 := by split <;> decide
      unfold room at hshort
      unfold leadLength at h ⊢
      omega
    · rw [List.drop_eq_nil_iff.mpr hshort] at hwhole
      rw [hwhole]
      simpa using hd
  · rintro ⟨hlen, hend⟩
    have hshort : t.whole.length ≤ t.room := by
      unfold leadLength at hlen
      unfold room
      omega
    refine ⟨?_, hshort⟩
    rw [List.drop_eq_nil_iff.mpr hshort, List.append_nil] at hwhole
    cases r with
    | zero => rfl
    | succ k =>
      rw [List.replicate_succ', ← List.append_assoc] at hwhole
      rw [hwhole, List.getLast?_concat] at hend
      exact absurd rfl hend

/-- The digits in the buffer are zeros: one of them is left, or none behind a
    sign. -/
theorem trimmed_long_zeros {t : DoubleText} (h : 31 ≤ t.leadLength) {r : Nat}
    (hkept : t.whole.take t.room = List.replicate r 0)
    (hlength : (signed t.negative (List.replicate r '0')).length ≤ 31) :
    Trimmed (trim (signed t.negative (List.replicate r '0'))) (denotes t.text) ↔
      (∀ d ∈ t.fraction, d = 0) ∧ ((t.leadLength = 31 ∧ t.whole.getLast? ≠ some 0) ∨
        (t.negative = false ∧ ∀ d ∈ t.whole, d = 0)) := by
  have hno := not_last_of_zeros hkept
  have hr : r = t.room := by
    have hlen := congrArg List.length hkept
    rw [List.length_take, List.length_replicate] at hlen
    unfold leadLength at h
    unfold room at hlen ⊢
    omega
  rw [t.denotes_text]
  cases hneg : t.negative with
  | true =>
    have hminus : signed true (List.replicate r '0') = [] ++ '-' :: List.replicate r '0' := rfl
    rw [hneg, hminus] at hlength
    rw [hminus, trim_zeros (.inr rfl) (.inl (by decide)) hlength]
    constructor
    · intro htrimmed
      have hvalue := htrimmed.value
      cases hvalue
    · rintro ⟨-, hlong | ⟨hsign, -⟩⟩
      · exact absurd hlong hno
      · cases hsign
  | false =>
    obtain ⟨k, rfl⟩ : ∃ k, r = k + 1 := by
      refine ⟨30, ?_⟩
      unfold room at hr
      rw [hneg] at hr
      exact hr
    have hzero : signed false (List.replicate (k + 1) '0') = [] ++ '0' :: List.replicate k '0' :=
      rfl
    rw [hneg, hzero] at hlength
    rw [hzero, trim_zeros (.inr rfl) (.inl (by decide)) hlength]
    have hone := t.trimmed_whole (List.cons_ne_nil (0 : Digit) [])
      (some (t.withSign (value t.whole t.fraction)))
    have hvalue : value [0] [] = 0 := value_eq_zero.mpr ⟨by decide, by decide⟩
    rw [hneg, hvalue, t.withSign_inj, eq_comm (a := (0 : ℚ)), value_eq_zero] at hone
    refine hone.trans ?_
    constructor
    · exact fun hall => ⟨hall.2, .inr ⟨rfl, hall.1⟩⟩
    · rintro ⟨hfraction, hlong | ⟨-, hall⟩⟩
      · exact absurd hlong hno
      · exact ⟨hall, hfraction⟩

/-- A digit in the buffer is not zero, and the loop stops there. -/
theorem trimmed_long_digit {t : DoubleText} (h : 31 ≤ t.leadLength) {rest : List Digit}
    {d : Digit} {r : Nat} (hd : d ≠ 0)
    (hwhole : t.whole = rest ++ [d] ++ (List.replicate r 0 ++ t.whole.drop t.room))
    (hlength : (signed t.negative
      (Decimal.text (rest ++ [d]) ++ List.replicate r '0')).length ≤ 31) :
    Trimmed (trim (signed t.negative (Decimal.text (rest ++ [d]) ++ List.replicate r '0')))
        (denotes t.text) ↔
      (∀ d ∈ t.fraction, d = 0) ∧ ((t.leadLength = 31 ∧ t.whole.getLast? ≠ some 0) ∨
        (t.negative = false ∧ ∀ d ∈ t.whole, d = 0)) := by
  have hsplit : signed t.negative (Decimal.text (rest ++ [d]) ++ List.replicate r '0') =
      signed t.negative (Decimal.text rest) ++ digitChar d :: List.replicate r '0' := by
    rw [text_append, List.append_assoc, signed_append]
    rfl
  have hfront : signed t.negative (Decimal.text rest) ++ [digitChar d] =
      signed t.negative (Decimal.text (rest ++ [d])) := by
    rw [text_append, signed_append]
    rfl
  rw [hsplit] at hlength ⊢
  rw [t.denotes_text, trim_zeros (.inl fun heq => hd ((digitChar_eq_zero d).mp heq))
    (.inl (digitChar_ne_point d)) hlength, hfront, t.trimmed_whole (by simp) _, t.withSign_inj]
  have hnonzero : natValue (rest ++ [d]) ≠ 0 := by
    rw [Ne, natValue_eq_zero]
    exact fun hall => hd (hall d (List.mem_append_right _ (List.mem_singleton.mpr rfl)))
  have hmem : d ∈ t.whole := by
    rw [hwhole]
    simp
  conv_lhs => rw [hwhole]
  rw [value_eq_longer hnonzero, nothing_lost_iff h hd hwhole, and_comm]
  constructor
  · exact fun hall => ⟨hall.1, .inl hall.2⟩
  · rintro ⟨hfraction, hlong | ⟨-, hall⟩⟩
    · exact ⟨hfraction, hlong⟩
    · exact absurd (hall d hmem) hd

/-- With the point out of the buffer, the value is kept only if nothing is
    cut off or taken away, or if everything is zero, and has no sign. -/
theorem trimmed_long {t : DoubleText} (h : 31 ≤ t.leadLength) :
    Trimmed (tostr t.text) (denotes t.text) ↔
      (∀ d ∈ t.fraction, d = 0) ∧ ((t.leadLength = 31 ∧ t.whole.getLast? ≠ some 0) ∨
        (t.negative = false ∧ ∀ d ∈ t.whole, d = 0)) := by
  obtain ⟨front, r, hkept, hlast⟩ := trailing_zeros (t.whole.take t.room)
  have hwhole : t.whole = front ++ (List.replicate r 0 ++ t.whole.drop t.room) := by
    rw [← List.append_assoc, ← hkept, List.take_append_drop]
  have hprinted : snprintf t.text =
      signed t.negative (Decimal.text front ++ List.replicate r '0') := by
    have hroom := snprintf_long h
    unfold room at hkept
    rw [hroom, hkept, text_append, text_zeros]
  have hlength : (snprintf t.text).length ≤ 31 := List.length_take_le _ _
  unfold tostr
  rw [hprinted] at hlength ⊢
  rcases List.eq_nil_or_concat front with rfl | ⟨rest, d, rfl⟩
  · exact trimmed_long_zeros h hkept hlength
  · rw [List.concat_eq_append] at hwhole hlast hlength ⊢
    rw [List.getLast?_concat] at hlast
    exact trimmed_long_digit h (fun heq => hlast (congrArg some heq)) hwhole hlength

/-! ## Section 5: When the value is kept -/

/-- There is room for the point, and what is cut off behind it is zero; or the
    point and all that follows it are cut off, but nothing else is lost. -/
def Keeps (t : DoubleText) : Prop :=
  (t.leadLength ≤ 29 ∧ ∀ d ∈ t.fraction.drop (30 - t.leadLength), d = 0) ∨
  (31 ≤ t.leadLength ∧ (∀ d ∈ t.fraction, d = 0) ∧
    ((t.leadLength = 31 ∧ t.whole.getLast? ≠ some 0) ∨
      (t.negative = false ∧ ∀ d ∈ t.whole, d = 0)))

instance (t : DoubleText) : Decidable t.Keeps := inferInstanceAs (Decidable (_ ∨ _))

/-- `tostr` takes away zeros that the number does without, and no others,
    exactly for these texts. -/
theorem tostr_trimmed_iff (t : DoubleText) :
    Trimmed (tostr t.text) (denotes t.text) ↔ t.Keeps := by
  unfold Keeps
  rcases Nat.lt_trichotomy t.leadLength 30 with hshort | heq | hlong
  · rw [trimmed_short (by omega)]
    constructor
    · exact fun hall => .inl ⟨by omega, hall⟩
    · rintro (hall | ⟨hlen, -⟩)
      · exact hall.2
      · omega
  · constructor
    · exact fun htrimmed => absurd htrimmed (not_trimmed_point heq _)
    · rintro (⟨hlen, -⟩ | ⟨hlen, -⟩)
      · omega
      · omega
  · rw [trimmed_long (by omega)]
    constructor
    · exact fun hall => .inr ⟨by omega, hall⟩
    · rintro (⟨hlen, -⟩ | ⟨-, hall⟩)
      · omega
      · exact hall

/-- The text of `2 ^ 103`. -/
def pow103 : DoubleText where
  negative := false
  whole := [1, 0, 1, 4, 1, 2, 0, 4, 8, 0, 1, 8, 2, 5, 8, 3, 5, 2, 1, 1, 9, 7, 3, 6, 2, 5, 6, 4, 3,
    0, 0, 8]
  fraction := [0, 0, 0, 0, 0]
  whole_ne := by decide
  fraction_length := rfl

/-- `tostr` of `2 ^ 103` gives the first 29 of its 32 digits. -/
theorem tostr_pow103 : tostr pow103.text = Decimal.text (pow103.whole.take 29) ∧
    ¬ Trimmed (tostr pow103.text) (denotes pow103.text) := by
  have htostr : tostr pow103.text = Decimal.text (pow103.whole.take 29) := by decide +kernel
  refine ⟨htostr, ?_⟩
  rw [htostr]
  intro htrimmed
  have hvalue := htrimmed.value
  revert hvalue
  decide +kernel

end DoubleText

end XUtil

end XFast
