import Mathlib.Data.Finmap
import Mathlib.Data.List.Induction

/-! # Merged lists, and the maps that lists of bindings make

    * `Interleaves`: a list is two lists merged, each in its own order.  A
      property that tells the two apart gets them back.
    * `insertAll`: bindings entered in a map one after the other, so that the
      last one for a key wins.  Bindings of a finite map, entered in any order,
      make the map. -/

namespace Interleaving

variable {α β : Type}

/-! ## Section 1: Merged lists -/

/-- `merged` consists of `left` and `right`, each in its order. -/
inductive Interleaves : (left right merged : List α) → Prop where
  | nil : Interleaves [] [] []
  | left {a : α} {left right merged : List α} (h : Interleaves left right merged) :
      Interleaves (a :: left) right (a :: merged)
  | right {b : α} {left right merged : List α} (h : Interleaves left right merged) :
      Interleaves left (b :: right) (b :: merged)

namespace Interleaves

variable {left right merged : List α} {p : α → Prop} [DecidablePred p]

theorem filter_left (h : Interleaves left right merged) (hleft : ∀ a ∈ left, p a)
    (hright : ∀ b ∈ right, ¬ p b) : merged.filter p = left := by
  induction h with
  | nil => rfl
  | left _ ih =>
    rw [List.forall_mem_cons] at hleft
    rw [List.filter_cons_of_pos (by simpa using hleft.1), ih hleft.2 hright]
  | right _ ih =>
    rw [List.forall_mem_cons] at hright
    rw [List.filter_cons_of_neg (by simpa using hright.1), ih hleft hright.2]

theorem swap (h : Interleaves left right merged) : Interleaves right left merged := by
  induction h with
  | nil => exact .nil
  | left _ ih => exact .right ih
  | right _ ih => exact .left ih

theorem filter_right (h : Interleaves left right merged) (hleft : ∀ a ∈ left, p a)
    (hright : ∀ b ∈ right, ¬ p b) : merged.filter (¬ p ·) = right :=
  h.swap.filter_left hright fun a ha hnot => hnot (hleft a ha)

end Interleaves

/-! ## Section 2: Bindings entered one after the other -/

/-- Finite maps from `α` to `β`. -/
abbrev Dict (α β : Type) : Type := Finmap fun _ : α => β

namespace Dict

variable [DecidableEq α]

/-- Enter the bindings in order. -/
def insertAll (m : Dict α β) (bindings : List (α × β)) : Dict α β :=
  bindings.foldl (fun m b => Finmap.insert b.1 b.2 m) m

/-- The bindings are those of the map, in some order. -/
structure Lists (bindings : List (α × β)) (m : Dict α β) : Prop where
  keys : (bindings.map Prod.fst).Nodup
  lookup : ∀ k v, m.lookup k = some v ↔ (k, v) ∈ bindings

theorem lookup_insertAll (k : α) (v : β) : ∀ (bindings : List (α × β)) (m : Dict α β),
    (bindings.map Prod.fst).Nodup → ((insertAll m bindings).lookup k = some v ↔
      (k, v) ∈ bindings ∨ (k ∉ bindings.map Prod.fst ∧ m.lookup k = some v))
  | [], m, _ => by simp [insertAll]
  | (a, b) :: bindings, m, hnodup => by
      rw [List.map_cons, List.nodup_cons] at hnodup
      show (insertAll (Finmap.insert a b m) bindings).lookup k = some v ↔ _
      rw [lookup_insertAll k v bindings _ hnodup.2]
      by_cases hk : k = a
      · subst hk
        have hother : (k, v) ∉ bindings := fun h => hnodup.1 (List.mem_map.mpr ⟨_, h, rfl⟩)
        rw [Finmap.lookup_insert]
        simp [hother, hnodup.1, eq_comm]
      · rw [Finmap.lookup_insert_of_ne m hk]
        simp [hk]

/-- The bindings of a map make the map. -/
theorem insertAll_lists {bindings : List (α × β)} {m : Dict α β} (h : Lists bindings m) :
    insertAll ∅ bindings = m := by
  apply Finmap.ext_lookup
  intro k
  apply Option.ext
  intro v
  rw [lookup_insertAll k v bindings ∅ h.keys, Finmap.lookup_empty, h.lookup]
  simp

/-- Bindings of different keys, entered in any order, make a map that the
    bindings in any other order list. -/
theorem lists_insertAll {bindings entered : List (α × β)}
    (hkeys : (bindings.map Prod.fst).Nodup) (hperm : entered.Perm bindings) :
    Lists bindings (insertAll ∅ entered) := by
  have hentered : (entered.map Prod.fst).Nodup := (hperm.map Prod.fst).nodup_iff.mpr hkeys
  refine ⟨hkeys, fun k v => ?_⟩
  rw [lookup_insertAll k v entered ∅ hentered, Finmap.lookup_empty, hperm.mem_iff]
  simp

/-- The last binding of a key wins. -/
theorem lookup_insertAll_last (k : α) (bindings : List (α × β)) (m : Dict α β) :
    (insertAll m bindings).lookup k =
      ((bindings.reverse.find? (·.1 = k)).map Prod.snd).or (m.lookup k) := by
  induction bindings using List.reverseRecOn with
  | nil => rfl
  | append_singleton bindings b ih =>
    have hsplit : insertAll m (bindings ++ [b]) =
        Finmap.insert b.1 b.2 (insertAll m bindings) := List.foldl_append
    rw [hsplit, List.reverse_append, List.reverse_singleton, List.singleton_append]
    by_cases hk : b.1 = k
    · subst hk
      rw [Finmap.lookup_insert, List.find?_cons_of_pos (by simp)]
      rfl
    · rw [Finmap.lookup_insert_of_ne _ (Ne.symm hk), List.find?_cons_of_neg (by simpa using hk), ih]

end Dict

end Interleaving
