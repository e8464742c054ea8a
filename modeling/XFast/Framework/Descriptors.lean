import Mathlib.Data.List.Nodup
import Mathlib.Data.List.Perm.Basic
import Mathlib.Data.List.Range

/-! # Tables of open descriptors

    A process refers to the objects of the kernel by numbers.  A number names
    an object while it is open; once it is closed, it may be given to another.
    So a close that comes twice either hits no object or a wrong one.  The
    table keeps the objects apart by the order of their creation, whatever
    numbers they have.

    * `Sound`: numbers name different objects, and every object is open or has
      been closed, exactly once.
    * `Accounts`: what a piece of code leaves of the objects that it creates. -/

namespace Descriptors

variable {Number : Type}

/-- The open numbers with their objects; how many objects have been created;
    the objects that have been closed; and the closes of numbers that were not
    open. -/
structure Table (Number : Type) where
  entries : List (Number × Nat)
  created : Nat
  closed : List Nat
  stray : List Number
  deriving DecidableEq, Repr

namespace Table

def IsOpen (t : Table Number) (n : Number) : Prop := n ∈ t.entries.map Prod.fst

/-- Numbers name different objects; every object is open or has been closed,
    exactly once. -/
structure Sound (t : Table Number) : Prop where
  numbers : (t.entries.map Prod.fst).Nodup
  objects : (t.entries.map Prod.snd ++ t.closed).Perm (List.range t.created)

/-- A new object gets the number `n`. -/
def acquire (t : Table Number) (n : Number) : Table Number :=
  { t with entries := t.entries ++ [(n, t.created)], created := t.created + 1 }

/-- So many objects are created and closed again. -/
def spend (t : Table Number) (count : Nat) : Table Number :=
  { t with created := t.created + count, closed := t.closed ++ List.range' t.created count }

/-- Of the objects created between `t` and `t'`, the kept ones are open and the
    others have been closed, each of them once; nothing else was closed. -/
structure Accounts (t t' : Table Number) (kept : List (Number × Nat)) : Prop where
  entries : t'.entries = t.entries ++ kept
  created : t.created ≤ t'.created
  closed : ∃ closes, t'.closed = t.closed ++ closes ∧
    (closes ++ kept.map Prod.snd).Perm (List.range' t.created (t'.created - t.created))
  stray : t'.stray = t.stray

section close

variable [DecidableEq Number]

instance (t : Table Number) (n : Number) : Decidable (t.IsOpen n) :=
  inferInstanceAs (Decidable (n ∈ t.entries.map Prod.fst))

/-- Close whatever has the number `n`. -/
def close (t : Table Number) (n : Number) : Table Number :=
  match t.entries.find? (·.1 = n) with
  | none => { t with stray := t.stray ++ [n] }
  | some e =>
      { t with entries := t.entries.filter (·.1 ≠ n), closed := t.closed ++ [e.2] }

/-- The object that has the number. -/
def objectOf (t : Table Number) (n : Number) : Option Nat :=
  (t.entries.find? (·.1 = n)).map Prod.snd

theorem Sound.find_eq {t : Table Number} (h : t.Sound) {n : Number} {o : Nat}
    (hmem : (n, o) ∈ t.entries) : t.entries.find? (·.1 = n) = some (n, o) := by
  cases hfind : t.entries.find? (·.1 = n) with
  | none =>
    have hne := List.find?_eq_none.mp hfind (n, o) hmem
    simp at hne
  | some e =>
    have hnumber : e.1 = n := by simpa using List.find?_some hfind
    have he : e ∈ t.entries := List.mem_of_find?_eq_some hfind
    exact congrArg some (List.inj_on_of_nodup_map h.numbers he hmem hnumber)

theorem Sound.objectOf_eq {t : Table Number} (h : t.Sound) {n : Number} {o : Nat}
    (hmem : (n, o) ∈ t.entries) : t.objectOf n = some o := by
  unfold objectOf
  rw [h.find_eq hmem, Option.map_some]

theorem Sound.close_eq {t : Table Number} (h : t.Sound) {n : Number} {o : Nat}
    (hmem : (n, o) ∈ t.entries) :
    t.close n =
      { t with entries := t.entries.filter (·.1 ≠ n), closed := t.closed ++ [o] } := by
  unfold close
  rw [h.find_eq hmem]

/-- A close takes the number away, and is stray if it was not open. -/
theorem isOpen_close {t : Table Number} {n m : Number} :
    (t.close n).IsOpen m ↔ t.IsOpen m ∧ m ≠ n := by
  unfold close IsOpen
  cases hfind : t.entries.find? (·.1 = n) with
  | none =>
    have hnot : n ∉ t.entries.map Prod.fst := by
      intro hmem
      obtain ⟨e, he, rfl⟩ := List.mem_map.mp hmem
      simpa using List.find?_eq_none.mp hfind e he
    exact ⟨fun hm => ⟨hm, fun heq => hnot (heq ▸ hm)⟩, And.left⟩
  | some e =>
    simp only [List.mem_map, List.mem_filter, decide_eq_true_eq]
    constructor
    · rintro ⟨e', ⟨he', hne⟩, rfl⟩
      exact ⟨⟨e', he', rfl⟩, hne⟩
    · rintro ⟨⟨e', he', rfl⟩, hne⟩
      exact ⟨e', ⟨he', hne⟩, rfl⟩

theorem stray_close {t : Table Number} {n : Number} :
    (t.close n).stray = if t.IsOpen n then t.stray else t.stray ++ [n] := by
  unfold close
  cases hfind : t.entries.find? (·.1 = n) with
  | none =>
    have hnot : ¬t.IsOpen n := by
      intro hmem
      obtain ⟨e, he, rfl⟩ := List.mem_map.mp hmem
      simpa using List.find?_eq_none.mp hfind e he
    rw [if_neg hnot]
  | some e =>
    have hnumber : e.1 = n := by simpa using List.find?_some hfind
    have hopen : t.IsOpen n := List.mem_map.mpr ⟨e, List.mem_of_find?_eq_some hfind, hnumber⟩
    rw [if_pos hopen]

theorem created_close {t : Table Number} {n : Number} : (t.close n).created = t.created := by
  unfold close
  split <;> rfl

/-- A new object that is closed at once. -/
theorem close_acquire {t : Table Number} {n : Number} (hfree : ¬ t.IsOpen n) :
    (t.acquire n).close n = t.spend 1 := by
  have hother : ∀ e ∈ t.entries, e.1 ≠ n := by
    intro e he heq
    exact hfree (List.mem_map.mpr ⟨e, he, heq⟩)
  have hfind : (t.entries ++ [(n, t.created)]).find? (·.1 = n) = some (n, t.created) := by
    rw [List.find?_append, List.find?_eq_none.mpr (by simpa using hother)]
    simp
  have hrest : (t.entries ++ [(n, t.created)]).filter (·.1 ≠ n) = t.entries := by
    rw [List.filter_append, List.filter_eq_self.mpr (by simpa using hother)]
    simp
  unfold close acquire spend
  dsimp only
  rw [hfind, hrest]
  rfl

theorem Sound.filter_split {t : Table Number} (h : t.Sound) {front rest : List (Number × Nat)}
    {n : Number} {o : Nat} (hsplit : t.entries = front ++ (n, o) :: rest) :
    t.entries.filter (·.1 ≠ n) = front ++ rest := by
  have hnodup := h.numbers
  rw [hsplit, List.map_append, List.map_cons, List.nodup_middle] at hnodup
  have hother : ∀ e ∈ front ++ rest, e.1 ≠ n := by
    intro e he heq
    have hmem : n ∈ front.map Prod.fst ++ rest.map Prod.fst := by
      rw [← List.map_append]
      exact List.mem_map.mpr ⟨e, he, heq⟩
    exact (List.nodup_cons.mp hnodup).1 hmem
  have hkeep : (front ++ rest).filter (·.1 ≠ n) = front ++ rest :=
    List.filter_eq_self.mpr (by simpa using hother)
  rw [List.filter_append] at hkeep
  rw [hsplit, List.filter_append, List.filter_cons_of_neg (by simp)]
  exact hkeep

/-- A close of an open number closes the object that has it. -/
theorem Sound.close {t : Table Number} (h : t.Sound) {n : Number} {o : Nat}
    (hmem : (n, o) ∈ t.entries) : (t.close n).Sound := by
  obtain ⟨front, rest, hsplit⟩ := List.append_of_mem hmem
  rw [h.close_eq hmem, h.filter_split hsplit]
  obtain ⟨hnumbers, hobjects⟩ := h
  rw [hsplit, List.map_append, List.map_cons] at hnumbers hobjects
  constructor
  · rw [List.nodup_middle] at hnumbers
    rw [List.map_append]
    exact (List.nodup_cons.mp hnumbers).2
  · rw [List.append_assoc, List.cons_append] at hobjects
    rw [List.map_append, List.append_assoc]
    refine List.Perm.trans ?_ hobjects
    apply List.Perm.append_left
    rw [← List.append_assoc]
    exact List.perm_append_comm

/-- Whatever is closed, the table stays sound. -/
theorem Sound.close_any {t : Table Number} (h : t.Sound) (n : Number) : (t.close n).Sound := by
  by_cases hopen : t.IsOpen n
  · obtain ⟨e, he, rfl⟩ := List.mem_map.mp hopen
    exact h.close he
  · have hstray : t.close n = { t with stray := t.stray ++ [n] } := by
      unfold Table.close
      cases hfind : t.entries.find? (·.1 = n) with
      | none => rfl
      | some e =>
        have hnumber : e.1 = n := by simpa using List.find?_some hfind
        exact absurd (List.mem_map.mpr ⟨e, List.mem_of_find?_eq_some hfind, hnumber⟩) hopen
    rw [hstray]
    exact ⟨h.numbers, h.objects⟩

end close

theorem isOpen_acquire {t : Table Number} {n m : Number} :
    (t.acquire n).IsOpen m ↔ t.IsOpen m ∨ m = n := by
  unfold IsOpen acquire
  rw [List.map_append, List.mem_append]
  exact or_congr Iff.rfl List.mem_singleton

@[simp] theorem spend_zero (t : Table Number) : t.spend 0 = t := by
  unfold spend
  simp

theorem spend_spend (t : Table Number) (m n : Nat) : (t.spend m).spend n = t.spend (m + n) := by
  unfold spend
  dsimp only
  rw [List.append_assoc, List.range'_append_1, Nat.add_assoc]

@[simp] theorem isOpen_spend (t : Table Number) (count : Nat) (n : Number) :
    (t.spend count).IsOpen n ↔ t.IsOpen n := Iff.rfl

/-- The kernel gives a number that is free. -/
theorem Sound.acquire {t : Table Number} (h : t.Sound) {n : Number} (hfree : ¬ t.IsOpen n) :
    (t.acquire n).Sound where
  numbers := by
    show ((t.entries ++ [(n, t.created)]).map Prod.fst).Nodup
    rw [List.map_append]
    apply List.Nodup.append h.numbers (List.nodup_singleton n)
    intro m hm hmn
    rw [List.mem_singleton.mp hmn] at hm
    exact hfree hm
  objects := by
    show ((t.entries ++ [(n, t.created)]).map Prod.snd ++ t.closed).Perm
      (List.range (t.created + 1))
    rw [List.map_append, List.append_assoc, List.range_succ]
    have hlast : ([(n, t.created)].map Prod.snd ++ t.closed).Perm (t.closed ++ [t.created]) :=
      List.perm_append_comm
    exact (hlast.append_left _).trans
      (((List.append_assoc _ _ _).symm ▸ h.objects.append_right [t.created]))

theorem accounts_spend (t : Table Number) (count : Nat) : Accounts t (t.spend count) [] where
  entries := (List.append_nil _).symm
  created := Nat.le_add_right _ _
  closed := by
    refine ⟨List.range' t.created count, rfl, ?_⟩
    show (List.range' t.created count ++ []).Perm
      (List.range' t.created (t.created + count - t.created))
    rw [List.append_nil, Nat.add_sub_cancel_left]
  stray := rfl

/-- What has been created and closed on the way does not matter. -/
theorem Sound.of_accounts {t t' : Table Number} (h : t.Sound) (haccounts : Accounts t t' []) :
    t'.Sound := by
  obtain ⟨hentries, hcreated, ⟨closes, hclosed, hperm⟩, -⟩ := haccounts
  rw [List.append_nil] at hentries
  rw [List.map_nil, List.append_nil] at hperm
  constructor
  · rw [hentries]
    exact h.numbers
  · have hrange : List.range t'.created =
        List.range t.created ++ List.range' t.created (t'.created - t.created) := by
      have happend : List.range' 0 t.created ++
          List.range' (0 + t.created) (t'.created - t.created) =
          List.range' 0 (t.created + (t'.created - t.created)) := List.range'_append_1
      rw [Nat.zero_add, Nat.add_sub_cancel' hcreated] at happend
      rw [List.range_eq_range', List.range_eq_range', happend]
    rw [hentries, hclosed, hrange, ← List.append_assoc]
    exact h.objects.append hperm

theorem accounts_acquire (t : Table Number) (count : Nat) (n : Number) :
    Accounts t ((t.spend count).acquire n) [(n, t.created + count)] where
  entries := rfl
  created := by
    show t.created ≤ t.created + count + 1
    omega
  closed := by
    refine ⟨List.range' t.created count, rfl, ?_⟩
    have hcount : t.created + count + 1 - t.created = count + 1 := by omega
    show (List.range' t.created count ++ [t.created + count]).Perm
      (List.range' t.created (t.created + count + 1 - t.created))
    rw [hcount, List.range'_1_concat]
  stray := rfl

end Table

end Descriptors
