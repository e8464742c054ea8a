import Mathlib.Data.List.Nodup
import Mathlib.Data.List.TakeWhile
import Mathlib.Data.Tree.Basic

/-! # Ordered sets as search trees

    An ordered set is a binary tree that is searched by comparing keys along
    a path from the root.  What a reader of the set sees is the list of its
    keys from left to right.

    * `keys_insert`: an insertion puts the new key somewhere into the list,
      or leaves the list as it is, whether or not the list is sorted.
    * `pairwise_insert`: into a sorted list it goes where it keeps it sorted.
    * `erase_eq_iff`: an erasure takes away exactly the key that was meant if
      and only if the descent finds it and the keys beside it are in order.
    * `mem_takeWhile_iff`: reading a list up to the first key that fails a
      test finds every key that passes it exactly if no key that fails it
      stands in front of one that passes it. -/

namespace SearchTree

variable {α : Type} {lt : α → α → Prop}

/-! ## Section 1: Keys and insertion -/

/-- The keys of the tree, from left to right. -/
def keys : BinaryTree α → List α
  | .nil => []
  | .node x l r => keys l ++ x :: keys r

/-- Insertion by descent; a key equivalent to one on the path is not inserted. -/
def insert (lt : α → α → Prop) [DecidableRel lt] (k : α) : BinaryTree α → BinaryTree α
  | .nil => .node k .nil .nil
  | .node x l r =>
      if lt k x then .node x (insert lt k l) r
      else if lt x k then .node x l (insert lt k r)
      else .node x l r

/-- The keys in front of the lower bound of `k`: where the descent that goes
    left at keys not less than `k` ends. -/
def before (lt : α → α → Prop) [DecidableRel lt] (k : α) : BinaryTree α → List α
  | .nil => []
  | .node x l r => if lt x k then keys l ++ x :: before lt k r else before lt k l

/-- The keys from the upper bound of `k` on: where the descent that goes left
    at keys greater than `k` ends. -/
def after (lt : α → α → Prop) [DecidableRel lt] (k : α) : BinaryTree α → List α
  | .nil => []
  | .node x l r => if lt k x then after lt k l ++ x :: keys r else after lt k r

/-- Erasure of a key: everything between the two bounds goes.  The keys that
    are left, from left to right. -/
def erase (lt : α → α → Prop) [DecidableRel lt] (k : α) (t : BinaryTree α) : List α :=
  before lt k t ++ after lt k t

variable [DecidableRel lt]

/-- The list of keys with the new key somewhere in it, or unchanged. -/
theorem keys_insert (lt : α → α → Prop) [DecidableRel lt] (k : α) (t : BinaryTree α) :
    keys (insert lt k t) = keys t ∨
      ∃ before after, keys t = before ++ after ∧ keys (insert lt k t) = before ++ k :: after := by
  induction t with
  | nil => exact Or.inr ⟨[], [], rfl, rfl⟩
  | node x l r ihl ihr =>
    by_cases hk : lt k x
    · simp only [insert, if_pos hk, keys]
      rcases ihl with hsame | ⟨before, after, hold, hnew⟩
      · left
        rw [hsame]
      · right
        refine ⟨before, after ++ x :: keys r, ?_, ?_⟩
        · rw [hold, List.append_assoc]
        · rw [hnew, List.append_assoc]
          rfl
    · by_cases hx : lt x k
      · simp only [insert, if_neg hk, if_pos hx, keys]
        rcases ihr with hsame | ⟨before, after, hold, hnew⟩
        · left
          rw [hsame]
        · right
          refine ⟨keys l ++ x :: before, after, ?_, ?_⟩
          · rw [hold, List.append_assoc]
            rfl
          · rw [hnew, List.append_assoc]
            rfl
      · left
        simp only [insert, if_neg hk, if_neg hx]

/-- A key that is less or greater than each of the others is inserted. -/
theorem keys_insert_of_ne {k : α} {t : BinaryTree α} (h : ∀ x ∈ keys t, lt k x ∨ lt x k) :
    ∃ before after, keys t = before ++ after ∧ keys (insert lt k t) = before ++ k :: after := by
  induction t with
  | nil => exact ⟨[], [], rfl, rfl⟩
  | node x l r ihl ihr =>
    simp only [keys, List.mem_append, List.mem_cons] at h
    by_cases hk : lt k x
    · obtain ⟨before, after, hold, hnew⟩ := ihl fun y hy => h y (Or.inl hy)
      refine ⟨before, after ++ x :: keys r, ?_, ?_⟩
      · rw [keys, hold, List.append_assoc]
      · simp only [insert, if_pos hk, keys, hnew, List.append_assoc, List.cons_append]
    · have hx : lt x k := (h x (Or.inr (Or.inl rfl))).resolve_left hk
      obtain ⟨before, after, hold, hnew⟩ := ihr fun y hy => h y (Or.inr (Or.inr hy))
      refine ⟨keys l ++ x :: before, after, ?_, ?_⟩
      · rw [keys, hold, List.append_assoc, List.cons_append]
      · simp only [insert, if_neg hk, if_pos hx, keys, hnew, List.append_assoc, List.cons_append]

theorem eq_or_mem_of_mem_insert {k y : α} {t : BinaryTree α} (h : y ∈ keys (insert lt k t)) :
    y = k ∨ y ∈ keys t := by
  rcases keys_insert lt k t with hsame | ⟨before, after, hold, hnew⟩
  · rw [hsame] at h
    exact Or.inr h
  · rw [hnew] at h
    rw [hold]
    simp only [List.mem_append, List.mem_cons] at h ⊢
    tauto

/-- The keys of a sorted tree stay sorted. -/
theorem pairwise_insert (htrans : ∀ a b c, lt a b → lt b c → lt a c) (k : α) (t : BinaryTree α)
    (h : (keys t).Pairwise lt) : (keys (insert lt k t)).Pairwise lt := by
  induction t with
  | nil => exact List.pairwise_singleton lt k
  | node x l r ihl ihr =>
    simp only [keys, List.pairwise_append, List.pairwise_cons, List.forall_mem_cons] at h
    obtain ⟨hl, ⟨hxr, hr⟩, hlr⟩ := h
    by_cases hk : lt k x
    · simp only [insert, if_pos hk, keys, List.pairwise_append, List.pairwise_cons,
        List.forall_mem_cons]
      refine ⟨ihl hl, ⟨hxr, hr⟩, ?_⟩
      intro a ha
      rcases eq_or_mem_of_mem_insert ha with rfl | hold
      · exact ⟨hk, fun b hb => htrans a x b hk (hxr b hb)⟩
      · exact hlr a hold
    · by_cases hx : lt x k
      · simp only [insert, if_neg hk, if_pos hx, keys, List.pairwise_append, List.pairwise_cons,
          List.forall_mem_cons]
        refine ⟨hl, ⟨?_, ihr hr⟩, ?_⟩
        · intro b hb
          rcases eq_or_mem_of_mem_insert hb with rfl | hold
          · exact hx
          · exact hxr b hold
        · intro a ha
          obtain ⟨hax, har⟩ := hlr a ha
          refine ⟨hax, ?_⟩
          intro b hb
          rcases eq_or_mem_of_mem_insert hb with rfl | hold
          · exact htrans a x b hax hx
          · exact har b hold
      · simp only [insert, if_neg hk, if_neg hx, keys, List.pairwise_append, List.pairwise_cons,
          List.forall_mem_cons]
        exact ⟨hl, ⟨hxr, hr⟩, hlr⟩

/-- A function of the keys that tells the old keys apart and gives the new one
    a new value tells all keys apart afterwards. -/
theorem nodup_map_insert {β : Type} {f : α → β} {k : α} {t : BinaryTree α}
    (h : ((keys t).map f).Nodup) (hk : f k ∉ (keys t).map f) :
    ((keys (insert lt k t)).map f).Nodup := by
  rcases keys_insert lt k t with hsame | ⟨before, after, hold, hnew⟩
  · rw [hsame]
    exact h
  · rw [hold, List.map_append] at h hk
    rw [hnew, List.map_append, List.map_cons, List.nodup_middle, List.nodup_cons]
    exact ⟨hk, h⟩

/-! ## Section 2: Erasure -/

/-- The keys met when going right from the root. -/
def rightSpine : BinaryTree α → List α
  | .nil => []
  | .node x _ r => x :: rightSpine r

/-- The keys met when going left from the root. -/
def leftSpine : BinaryTree α → List α
  | .nil => []
  | .node x l _ => x :: leftSpine l

/-- The descent for `k` ends at a key that is neither less nor greater; the
    keys on the inner spines of its two subtrees are less and greater. -/
def InPlace (lt : α → α → Prop) [DecidableRel lt] (k : α) : BinaryTree α → Prop
  | .nil => False
  | .node x l r =>
      if lt k x then InPlace lt k l
      else if lt x k then InPlace lt k r
      else (∀ y ∈ rightSpine l, lt y k) ∧ ∀ y ∈ leftSpine r, lt k y

instance InPlace.decidable (k : α) : ∀ t, Decidable (InPlace lt k t)
  | .nil => isFalse id
  | .node x l r =>
      have := InPlace.decidable k l
      have := InPlace.decidable k r
      inferInstanceAs (Decidable (if lt k x then _ else if lt x k then _ else _ ∧ _))

variable {k : α} {t : BinaryTree α}

theorem before_prefix_keys (k : α) (t : BinaryTree α) : before lt k t <+: keys t := by
  induction t with
  | nil => exact List.prefix_refl _
  | node x l r ihl ihr =>
    by_cases hx : lt x k
    · simp only [before, if_pos hx, keys]
      obtain ⟨rest, hrest⟩ := ihr
      exact ⟨rest, by rw [List.append_assoc, List.cons_append, hrest]⟩
    · simp only [before, if_neg hx, keys]
      exact ihl.trans (List.prefix_append _ _)

theorem after_suffix_keys (k : α) (t : BinaryTree α) : after lt k t <:+ keys t := by
  induction t with
  | nil => exact List.suffix_refl _
  | node x l r ihl ihr =>
    by_cases hx : lt k x
    · simp only [after, if_pos hx, keys]
      obtain ⟨rest, hrest⟩ := ihl
      exact ⟨rest, by rw [← List.append_assoc, hrest]⟩
    · simp only [after, if_neg hx, keys]
      exact ihr.trans ((List.suffix_cons _ _).trans (List.suffix_append _ _))

/-- All keys are in front of the lower bound exactly if those on the right
    spine are less. -/
theorem before_eq_keys_iff (k : α) (t : BinaryTree α) :
    before lt k t = keys t ↔ ∀ x ∈ rightSpine t, lt x k := by
  induction t with
  | nil => simp [before, keys, rightSpine]
  | node x l r ihl ihr =>
    simp only [rightSpine, List.forall_mem_cons, ← ihr]
    by_cases hx : lt x k
    · simp only [before, hx, if_true, keys, List.append_cancel_left_eq, List.cons.injEq, true_and]
    · simp only [before, hx, if_false, keys, false_and, iff_false]
      intro heq
      have hlen : (before lt k l).length ≤ (keys l).length := (before_prefix_keys k l).length_le
      rw [heq, List.length_append, List.length_cons] at hlen
      omega

theorem after_eq_keys_iff (k : α) (t : BinaryTree α) :
    after lt k t = keys t ↔ ∀ x ∈ leftSpine t, lt k x := by
  induction t with
  | nil => simp [after, keys, leftSpine]
  | node x l r ihl ihr =>
    simp only [leftSpine, List.forall_mem_cons, ← ihl]
    by_cases hx : lt k x
    · simp only [after, hx, if_true, keys, List.append_cancel_right_eq, true_and]
    · simp only [after, hx, if_false, keys, false_and, iff_false]
      intro heq
      have hlen : (after lt k r).length ≤ (keys r).length := (after_suffix_keys k r).length_le
      rw [heq, List.length_append, List.length_cons] at hlen
      omega

/-- The erasure at a node, along the descent of `k`. -/
theorem erase_node (hasymm : ∀ x y, lt x y → ¬ lt y x) (k x : α) (l r : BinaryTree α) :
    erase lt k (.node x l r) =
      if lt k x then erase lt k l ++ x :: keys r
      else if lt x k then keys l ++ x :: erase lt k r
      else before lt k l ++ after lt k r := by
  unfold erase
  by_cases hk : lt k x
  · simp only [before, after, if_pos hk, if_neg (hasymm k x hk), List.append_assoc]
  · by_cases hx : lt x k
    · simp only [before, after, if_neg hk, if_pos hx, List.append_assoc, List.cons_append]
    · simp only [before, after, if_neg hk, if_neg hx]

theorem erase_sublist (hasymm : ∀ x y, lt x y → ¬ lt y x) (k : α) (t : BinaryTree α) :
    (erase lt k t).Sublist (keys t) := by
  induction t with
  | nil => exact List.Sublist.refl _
  | node x l r ihl ihr =>
    rw [erase_node hasymm]
    split
    · exact ihl.append (List.Sublist.refl _)
    · split
      · exact (List.Sublist.refl _).append (ihr.cons_cons x)
      · exact (before_prefix_keys k l).sublist.append ((after_suffix_keys k r).sublist.cons x)

/-- The descent for `k` ends at a key that is neither less nor greater. -/
def Found (lt : α → α → Prop) [DecidableRel lt] (k : α) : BinaryTree α → Prop
  | .nil => False
  | .node x l r => if lt k x then Found lt k l else if lt x k then Found lt k r else True

instance Found.decidable (k : α) : ∀ t, Decidable (Found lt k t)
  | .nil => isFalse id
  | .node x l r =>
      have := Found.decidable k l
      have := Found.decidable k r
      inferInstanceAs (Decidable (if lt k x then _ else if lt x k then _ else True))

theorem Found.exists_same (h : Found lt k t) : ∃ x ∈ keys t, ¬ lt k x ∧ ¬ lt x k := by
  induction t with
  | nil => exact h.elim
  | node x l r ihl ihr =>
    rw [Found] at h
    split at h
    · obtain ⟨y, hy, hsame⟩ := ihl h
      exact ⟨y, List.mem_append_left _ hy, hsame⟩
    · rename_i hk
      split at h
      · obtain ⟨y, hy, hsame⟩ := ihr h
        exact ⟨y, List.mem_append_right _ (List.mem_cons_of_mem _ hy), hsame⟩
      · rename_i hx
        exact ⟨x, List.mem_append_right _ List.mem_cons_self, hk, hx⟩

/-- Where the descent finds nothing, nothing is erased. -/
theorem erase_of_not_found (hasymm : ∀ x y, lt x y → ¬ lt y x) (h : ¬ Found lt k t) :
    erase lt k t = keys t := by
  induction t with
  | nil => rfl
  | node x l r ihl ihr =>
    rw [Found] at h
    rw [erase_node hasymm, keys]
    split at h
    · rename_i hk
      rw [if_pos hk, ihl h]
    · rename_i hk
      split at h
      · rename_i hx
        rw [if_neg hk, if_pos hx, ihr h]
      · exact absurd trivial h

/-- A key that is not there is not found. -/
theorem not_found_of_not_mem (hsame : ∀ x ∈ keys t, ¬ lt k x → ¬ lt x k → x = k)
    (hk : k ∉ keys t) : ¬ Found lt k t := by
  intro hfound
  obtain ⟨x, hx, hkx, hxk⟩ := hfound.exists_same
  exact hk (hsame x hx hkx hxk ▸ hx)

/-- A key that is found is erased. -/
theorem not_mem_erase_of_found (hasymm : ∀ x y, lt x y → ¬ lt y x)
    (hsame : ∀ x ∈ keys t, ¬ lt k x → ¬ lt x k → x = k) (hnodup : (keys t).Nodup)
    (h : Found lt k t) : k ∉ erase lt k t := by
  induction t with
  | nil => exact h.elim
  | node x l r ihl ihr =>
    obtain ⟨hl, hxr, hdisjoint⟩ := List.nodup_append.mp hnodup
    obtain ⟨hnotr, hr⟩ := List.nodup_cons.mp hxr
    have hsamel : ∀ y ∈ keys l, ¬ lt k y → ¬ lt y k → y = k := fun y hy =>
      hsame y (List.mem_append_left _ hy)
    have hsamer : ∀ y ∈ keys r, ¬ lt k y → ¬ lt y k → y = k := fun y hy =>
      hsame y (List.mem_append_right _ (List.mem_cons_of_mem _ hy))
    rw [Found] at h
    rw [erase_node hasymm]
    split at h
    · rename_i hk
      obtain ⟨y, hy, hky, hyk⟩ := h.exists_same
      have hkl : k ∈ keys l := hsamel y hy hky hyk ▸ hy
      rw [if_pos hk, List.mem_append, not_or]
      exact ⟨ihl hsamel hl h, fun hmem => hdisjoint k hkl k hmem rfl⟩
    · rename_i hk
      split at h
      · rename_i hx
        obtain ⟨y, hy, hky, hyk⟩ := h.exists_same
        have hkr : k ∈ keys r := hsamer y hy hky hyk ▸ hy
        rw [if_neg hk, if_pos hx, List.mem_append, List.mem_cons, not_or, not_or]
        exact ⟨fun hmem => hdisjoint k hmem k (List.mem_cons_of_mem _ hkr) rfl,
          fun heq => hnotr (heq ▸ hkr), ihr hsamer hr h⟩
      · rename_i hx
        have hxk : x = k := hsame x (List.mem_append_right _ List.mem_cons_self) hk hx
        rw [if_neg hk, if_neg hx, List.mem_append, not_or]
        refine ⟨fun hmem => ?_, fun hmem => ?_⟩
        · exact hdisjoint k ((before_prefix_keys k l).subset hmem) x List.mem_cons_self hxk.symm
        · exact hnotr (hxk ▸ (after_suffix_keys k r).subset hmem)

/-- Below a key that is `k` itself both bounds are right next to it exactly if
    the inner spines are in order. -/
theorem before_append_after_iff (k : α) (l r : BinaryTree α) :
    before lt k l ++ after lt k r = keys l ++ keys r ↔
      (∀ y ∈ rightSpine l, lt y k) ∧ ∀ y ∈ leftSpine r, lt k y := by
  rw [← before_eq_keys_iff, ← after_eq_keys_iff]
  constructor
  · intro heq
    have hlen := congrArg List.length heq
    have hbefore : (before lt k l).length ≤ (keys l).length := (before_prefix_keys k l).length_le
    have hafter : (after lt k r).length ≤ (keys r).length := (after_suffix_keys k r).length_le
    simp only [List.length_append] at hlen
    exact ⟨(before_prefix_keys k l).eq_of_length (by omega), (after_suffix_keys k r).eq_of_length (by omega)⟩
  · intro h
    rw [h.1, h.2]

theorem erase_ne_self [DecidableEq α] {xs : List α} (hk : k ∈ xs) : xs ≠ xs.erase k := by
  intro heq
  have hlen := List.length_erase_of_mem hk
  have hpos := List.length_pos_of_mem hk
  rw [← heq] at hlen
  omega

theorem InPlace.found (h : InPlace lt k t) : Found lt k t := by
  induction t with
  | nil => exact h
  | node x l r ihl ihr =>
    rw [InPlace] at h
    rw [Found]
    split at h
    · rename_i hk
      rw [if_pos hk]
      exact ihl h
    · rename_i hk
      split at h
      · rename_i hx
        rw [if_neg hk, if_pos hx]
        exact ihr h
      · rename_i hx
        rw [if_neg hk, if_neg hx]
        trivial

/-- Induction along the descent: the erasure takes `k` away and nothing else
    exactly if `k` is in place. -/
theorem erase_eq_iff [DecidableEq α] (hasymm : ∀ x y, lt x y → ¬ lt y x)
    (hsame : ∀ x ∈ keys t, ¬ lt k x → ¬ lt x k → x = k) (hnodup : (keys t).Nodup) :
    (k ∈ keys t ∧ erase lt k t = (keys t).erase k) ↔ InPlace lt k t := by
  induction t with
  | nil => simp [keys, InPlace]
  | node x l r ihl ihr =>
    obtain ⟨hl, hxr, hdisjoint⟩ := List.nodup_append.mp hnodup
    obtain ⟨hnotr, hr⟩ := List.nodup_cons.mp hxr
    have hsamel : ∀ y ∈ keys l, ¬ lt k y → ¬ lt y k → y = k := fun y hy =>
      hsame y (List.mem_append_left _ hy)
    have hsamer : ∀ y ∈ keys r, ¬ lt k y → ¬ lt y k → y = k := fun y hy =>
      hsame y (List.mem_append_right _ (List.mem_cons_of_mem _ hy))
    have hirrefl : ∀ y, ¬ lt y y := fun y hy => hasymm y y hy hy
    rw [erase_node hasymm, InPlace, keys]
    by_cases hk : lt k x
    · rw [if_pos hk, if_pos hk, ← ihl hsamel hl]
      by_cases hkl : k ∈ keys l
      · rw [List.erase_append_left _ hkl, List.append_cancel_right_eq]
        simp only [List.mem_append, hkl, true_or, true_and]
      · -- the descent misses `k`, and nothing is erased
        rw [erase_of_not_found hasymm (not_found_of_not_mem hsamel hkl)]
        exact iff_of_false (fun h => erase_ne_self h.1 h.2) (fun h => hkl h.1)
    · by_cases hx : lt x k
      · have hne : x ≠ k := fun heq => hirrefl k (heq ▸ hx)
        rw [if_neg hk, if_pos hx, if_neg hk, if_pos hx, ← ihr hsamer hr]
        by_cases hkr : k ∈ keys r
        · have hkl : k ∉ keys l := fun hkl =>
            hdisjoint k hkl k (List.mem_cons_of_mem _ hkr) rfl
          rw [List.erase_append_right _ hkl, List.erase_cons_tail (by simpa using hne),
            List.append_cancel_left_eq, List.cons.injEq]
          simp only [List.mem_append, List.mem_cons, hkr, or_true, true_and]
        · rw [erase_of_not_found hasymm (not_found_of_not_mem hsamer hkr)]
          exact iff_of_false (fun h => erase_ne_self h.1 h.2) (fun h => hkr h.1)
      · -- the key that is met is `k` itself
        have hxk : x = k := hsame x (List.mem_append_right _ List.mem_cons_self) hk hx
        have hkl : k ∉ keys l := fun hkl => hdisjoint k hkl x List.mem_cons_self hxk.symm
        rw [if_neg hk, if_neg hx, if_neg hk, if_neg hx, hxk, List.erase_append_right _ hkl,
          List.erase_cons_head, before_append_after_iff]
        simp only [List.mem_append, List.mem_cons, true_or, or_true, true_and]

theorem rightSpine_subset (t : BinaryTree α) : rightSpine t ⊆ keys t := by
  induction t with
  | nil => exact List.Subset.refl _
  | node x l r _ ihr =>
    apply List.Subset.trans _ (List.subset_append_right _ _)
    exact List.cons_subset_cons x ihr

theorem leftSpine_subset (t : BinaryTree α) : leftSpine t ⊆ keys t := by
  induction t with
  | nil => exact List.Subset.refl _
  | node x l r ihl _ =>
    apply List.cons_subset.mpr
    exact ⟨List.mem_append_right _ List.mem_cons_self,
      List.Subset.trans ihl (List.subset_append_left _ _)⟩

/-- In a sorted tree every key is in place. -/
theorem inPlace_of_pairwise (hasymm : ∀ x y, lt x y → ¬ lt y x) (h : (keys t).Pairwise lt)
    (hk : k ∈ keys t) : InPlace lt k t := by
  induction t with
  | nil => exact absurd hk List.not_mem_nil
  | node x l r ihl ihr =>
    simp only [keys, List.pairwise_append, List.pairwise_cons, List.forall_mem_cons] at h
    obtain ⟨hl, ⟨hxr, hr⟩, hlr⟩ := h
    rw [InPlace]
    rcases List.mem_append.mp hk with hkl | hkr
    · rw [if_pos (hlr k hkl).1]
      exact ihl hl hkl
    · rcases List.mem_cons.mp hkr with rfl | hkr
      · have hirrefl : ¬ lt k k := fun hkk => hasymm k k hkk hkk
        rw [if_neg hirrefl, if_neg hirrefl]
        exact ⟨fun y hy => (hlr y (rightSpine_subset l hy)).1,
          fun y hy => hxr y (leftSpine_subset r hy)⟩
      · rw [if_neg (hasymm x k (hxr k hkr)), if_pos (hxr k hkr)]
        exact ihr hr hkr

/-! ## Section 3: Reading from the left -/

/-- No key that fails the test stands in front of one that passes it. -/
theorem mem_takeWhile_iff {p : α → Bool} {l : List α} (hl : l.Nodup) :
    (∀ x ∈ l, p x → x ∈ l.takeWhile p) ↔ l.Pairwise (fun x y => p y → p x) := by
  induction l with
  | nil => simp
  | cons x l ih =>
    obtain ⟨hx, hl⟩ := List.nodup_cons.mp hl
    by_cases hp : p x
    · rw [List.takeWhile_cons_of_pos hp, List.pairwise_cons, ← ih hl]
      constructor
      · intro h
        refine ⟨fun _ _ _ => hp, ?_⟩
        intro y hy hpy
        rcases List.mem_cons.mp (h y (List.mem_cons_of_mem _ hy) hpy) with rfl | htake
        · exact absurd hy hx
        · exact htake
      · intro h y hy hpy
        rcases List.mem_cons.mp hy with rfl | hmem
        · exact List.mem_cons_self
        · exact List.mem_cons_of_mem _ (h.2 y hmem hpy)
    · rw [List.takeWhile_cons_of_neg hp, List.pairwise_cons]
      constructor
      · intro h
        -- nothing is read, so nothing in the list passes
        have hnone : ∀ y ∈ l, ¬ p y := by
          intro y hy hpy
          exact absurd (h y (List.mem_cons_of_mem _ hy) hpy) List.not_mem_nil
        refine ⟨fun y hy hpy => absurd hpy (hnone y hy), ?_⟩
        exact List.pairwise_iff_forall_sublist.mpr fun hsub hpy =>
          absurd hpy (hnone _ (hsub.subset (by simp)))
      · intro h y hy hpy
        rcases List.mem_cons.mp hy with rfl | hmem
        · exact absurd hpy hp
        · exact absurd (h.1 y hmem hpy) hp

end SearchTree
