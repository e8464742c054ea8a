import XFast.Base.Machine
import XFast.Framework.Interleaving
import XFast.Framework.Separator

/-! # xOption: the options of a command line

    Model of `base/option.cpp`.  A word that begins with `--` and is longer
    than that is an option, and is split at its first `=`; every other word is
    kept as it is.  When an option has no `=`, `parse` takes `npos - 2`
    characters for its name, which are more than any string has. -/

namespace XFast

open Interleaving Separator

/-! ## Section 1: Strings -/

/-- `std::string::max_size()`. -/
def maxSize : Nat := 2 ^ 63 - 1

/-- A `std::string`. -/
abbrev Word : Type := { s : List Char // s.length ≤ maxSize }

namespace Word

/-- `std::string::npos`. -/
def npos : Nat := sizeModulus - 1

def empty : Word := ⟨[], Nat.zero_le _⟩

def length (s : Word) : Nat := s.1.length

def find (s : Word) (c : Char) : Nat :=
  match s.1.findIdx? (· = c) with
  | some pos => pos
  | none => npos

/-- `substr(pos, n)`, which throws when `pos` is behind the end. -/
def substr (s : Word) (pos n : Nat) : Except Halt Word :=
  if s.length < pos then .error .exception
  else .ok ⟨(s.1.drop pos).take n, by
    rw [List.length_take, List.length_drop]
    have := s.2
    omega⟩

end Word

/-! ## Section 2: The parser -/

structure XOption where
  _mParam : Dict Word Word
  _vSingle : List Word
  deriving DecidableEq

namespace XOption

open Word

/-- A new `xOption`. -/
def fresh : XOption := ⟨∅, []⟩

def parse (o : XOption) (s : Word) : Except Halt XOption :=
  let pos := s.find '='
  if pos ≠ npos then do
    let name ← s.substr 2 (sizeSub pos 2)
    let value ← s.substr (sizeAdd pos 1) npos
    return { o with _mParam := Finmap.insert name value o._mParam }
  else do
    let name ← s.substr 2 (sizeSub pos 2)
    return { o with _mParam := Finmap.insert name empty o._mParam }

/-- `v[i].length() > 2 && v[i].substr(0,2) == "--"`. -/
def isOption (s : Word) : Except Halt Bool :=
  if s.length > 2 then do
    let start ← s.substr 0 2
    return decide (start.1 = ['-', '-'])
  else
    return false

/-- The second loop of `decode`. -/
def decodeWords (o : XOption) : List Word → Except Halt XOption
  | [] => return o
  | s :: v => do
      let option ← isOption s
      if option then do
        let o' ← parse o s
        decodeWords o' v
      else
        decodeWords { o with _vSingle := o._vSingle ++ [s] } v

def decode (o : XOption) (argv : List Word) : Except Halt XOption :=
  decodeWords { o with _mParam := ∅ } argv.tail

/-! ## Section 3: What a command line says -/

/-- The word begins with `--` and is longer than that. -/
def IsOption (s : Word) : Prop := 2 < s.length ∧ s.1.take 2 = ['-', '-']

instance : DecidablePred IsOption := fun _ => inferInstanceAs (Decidable (_ ∧ _))

/-- What stands between the `--` and the first `=`, or the end. -/
def nameOf (s : Word) : Word :=
  ⟨before '=' (s.1.drop 2), by
    have hname := length_before_le '=' (s.1.drop 2)
    have hrest := List.length_drop (l := s.1) (i := 2)
    have := s.2
    omega⟩

/-- What stands behind the first `=`; nothing, if there is none. -/
def valueOf (s : Word) : Word :=
  ⟨after '=' (s.1.drop 2), by
    have hvalue := length_after_le '=' (s.1.drop 2)
    have hrest := List.length_drop (l := s.1) (i := 2)
    have := s.2
    omega⟩

/-- The bindings that the options of a list of words make, in order. -/
def bindings (words : List Word) : List (Word × Word) :=
  (words.filter IsOption).map fun s => (nameOf s, valueOf s)

/-- The word is `--name=value`. -/
def Renders (b : Word × Word) (s : Word) : Prop := s.1 = '-' :: '-' :: (b.1.1 ++ '=' :: b.2.1)

/-! ## Section 4: The parser says the same -/

theorem isOption_eq (s : Word) : isOption s = .ok (decide (IsOption s)) := by
  unfold isOption IsOption substr
  by_cases hlong : s.length > 2
  · rw [if_pos hlong, if_neg (Nat.not_lt_zero _)]
    simp [hlong]
  · rw [if_neg hlong]
    simp [hlong]

theorem substr_of_le {s : Word} {pos n : Nat} {t : Word} (hpos : pos ≤ s.length)
    (ht : t.1 = (s.1.drop pos).take n) : s.substr pos n = .ok t := by
  unfold substr
  rw [if_neg (Nat.not_lt.mpr hpos)]
  exact congrArg Except.ok (Subtype.ext ht.symm)

/-- Every length fits in `npos - 2`. -/
theorem maxSize_le : maxSize ≤ sizeSub npos 2 := by decide

/-- The `--` of an option holds no `=`. -/
theorem find_option {s : Word} (hs : IsOption s) :
    s.find '=' = match (s.1.drop 2).findIdx? (· = '=') with
      | some i => i + 2
      | none => npos := by
  have hsplit : s.1 = '-' :: '-' :: s.1.drop 2 := by
    have h := List.take_append_drop 2 s.1
    rw [hs.2] at h
    exact h.symm
  unfold find
  rw [hsplit, List.findIdx?_cons, List.findIdx?_cons]
  cases h : (s.1.drop 2).findIdx? (· = '=') <;> simp [h]

theorem parse_eq (o : XOption) {s : Word} (hs : IsOption s) :
    parse o s = .ok { o with _mParam := Finmap.insert (nameOf s) (valueOf s) o._mParam } := by
  have hlong : 2 ≤ s.length := Nat.le_of_lt hs.1
  have hrest : (s.1.drop 2).length = s.length - 2 := List.length_drop
  have hmax : s.length ≤ maxSize := s.2
  have hbig : maxSize + 2 < npos := by decide
  have hmod : npos < sizeModulus := by decide
  unfold parse
  rw [find_option hs]
  cases h : (s.1.drop 2).findIdx? (· = '=') with
  | some i =>
    -- the index counts from the third character on
    obtain ⟨hi, hname, hvalue⟩ := split_of_findIdx h
    have hname' : s.substr 2 (sizeSub (i + 2) 2) = .ok (nameOf s) := by
      rw [sizeSub_of_le (Nat.le_add_left 2 i) (by omega), Nat.add_sub_cancel]
      exact substr_of_le hlong hname
    have hvalue' : s.substr (sizeAdd (i + 2) 1) npos = .ok (valueOf s) := by
      rw [sizeAdd_of_lt (by omega)]
      refine substr_of_le (by omega) (hvalue.trans ?_)
      rw [List.drop_drop, List.take_of_length_le]
      · congr 1
        omega
      · rw [List.length_drop]
        show s.length - (i + 2 + 1) ≤ npos
        omega
    have hfound : i + 2 ≠ npos := by omega
    dsimp only
    rw [if_pos hfound, hname', hvalue']
    rfl
  | none =>
    -- `substr` is given `npos - 2`, which is more than what is left
    have hnone := notMem_of_findIdx h
    have hname' : s.substr 2 (sizeSub npos 2) = .ok (nameOf s) := by
      refine substr_of_le hlong ((before_of_notMem hnone).trans ?_)
      rw [List.take_of_length_le]
      have hfits := maxSize_le
      omega
    have hempty : empty = valueOf s := Subtype.ext (after_of_notMem hnone).symm
    dsimp only
    rw [if_neg (fun hne => hne rfl), hname', hempty]
    rfl

theorem bindings_cons_of_pos {s : Word} (hs : IsOption s) (v : List Word) :
    bindings (s :: v) = (nameOf s, valueOf s) :: bindings v := by
  unfold bindings
  rw [List.filter_cons_of_pos (by simpa using hs), List.map_cons]

theorem bindings_cons_of_neg {s : Word} (hs : ¬ IsOption s) (v : List Word) :
    bindings (s :: v) = bindings v := by
  unfold bindings
  rw [List.filter_cons_of_neg (by simpa using hs)]

theorem decodeWords_eq : ∀ (v : List Word) (o : XOption),
    decodeWords o v = .ok ⟨o._mParam.insertAll (bindings v), o._vSingle ++ v.filter (¬ IsOption ·)⟩
  | [], o => by
      simp only [List.filter_nil, List.append_nil]
      rfl
  | s :: v, o => by
      unfold decodeWords
      rw [isOption_eq, ok_bind]
      by_cases hs : IsOption s
      · simp only [hs, decide_true, if_true]
        rw [parse_eq o hs, ok_bind, decodeWords_eq v, bindings_cons_of_pos hs,
          List.filter_cons_of_neg (by simpa using hs)]
        rfl
      · simp only [hs, decide_false, Bool.false_eq_true, if_false]
        rw [decodeWords_eq v, bindings_cons_of_neg hs,
          List.filter_cons_of_pos (by simpa using hs), List.append_assoc]
        rfl

theorem decode_eq (o : XOption) (argv : List Word) :
    decode o argv = .ok ⟨Dict.insertAll ∅ (bindings argv.tail),
      o._vSingle ++ argv.tail.filter (¬ IsOption ·)⟩ :=
  decodeWords_eq argv.tail _

/-! ## Section 5: A rendered map is read back -/

theorem Renders.read {b : Word × Word} {s : Word} (h : Renders b s) (hname : '=' ∉ b.1.1) :
    IsOption s ∧ (nameOf s, valueOf s) = b := by
  unfold Renders at h
  have hdrop : s.1.drop 2 = b.1.1 ++ '=' :: b.2.1 := by
    rw [h]
    rfl
  have hone : nameOf s = b.1 := by
    apply Subtype.ext
    show before '=' (s.1.drop 2) = b.1.1
    rw [hdrop]
    exact before_append hname b.2.1
  have htwo : valueOf s = b.2 := by
    apply Subtype.ext
    show after '=' (s.1.drop 2) = b.2.1
    rw [hdrop]
    exact after_append hname b.2.1
  refine ⟨⟨?_, ?_⟩, Prod.ext hone htwo⟩
  · unfold Word.length
    rw [h, List.length_cons, List.length_cons, List.length_append, List.length_cons]
    omega
  · rw [h]
    rfl

/-- Words that render bindings are options and make these bindings. -/
theorem bindings_of_renders {bs : List (Word × Word)} {opts : List Word}
    (h : List.Forall₂ Renders bs opts) (hname : ∀ b ∈ bs, '=' ∉ b.1.1) :
    (∀ s ∈ opts, IsOption s) ∧ opts.map (fun s => (nameOf s, valueOf s)) = bs := by
  induction h with
  | nil => exact ⟨fun s hs => absurd hs List.not_mem_nil, rfl⟩
  | cons hrenders _ ih =>
    rw [List.forall_mem_cons] at hname
    obtain ⟨hoption, hread⟩ := hrenders.read hname.1
    obtain ⟨hoptions, hreads⟩ := ih hname.2
    exact ⟨List.forall_mem_cons.mpr ⟨hoption, hoptions⟩, congrArg₂ List.cons hread hreads⟩

/-- On a new `xOption`, the words of a map, in any order and between words that
    are no options, give the map and the other words; and whatever the words
    are, `decode` enters the options in order and keeps the others. -/
theorem decode_inverts_rendering :
    (∀ (m : Dict Word Word) (bs : List (Word × Word)) (opts s words : List Word) (program : Word),
      (∀ name ∈ m, '=' ∉ name.1) → (∀ w ∈ s, ¬ IsOption w) → Dict.Lists bs m →
      List.Forall₂ Renders bs opts → Interleaves opts s words →
      decode fresh (program :: words) = .ok ⟨m, s⟩) ∧
    ∀ argv, decode fresh argv =
      .ok ⟨Dict.insertAll ∅ (bindings argv.tail), argv.tail.filter (¬ IsOption ·)⟩ := by
  refine ⟨?_, fun argv => decode_eq fresh argv⟩
  intro m bs opts s words program hkeys hs hbs hrenders hmerged
  have hnames : ∀ b ∈ bs, '=' ∉ b.1.1 := by
    intro b hb
    exact hkeys b.1 (Finmap.mem_of_lookup_eq_some ((hbs.lookup b.1 b.2).mpr hb))
  obtain ⟨hoptions, hread⟩ := bindings_of_renders hrenders hnames
  have hbindings : bindings words = bs := by
    unfold bindings
    rw [hmerged.filter_left hoptions hs, hread]
  rw [decode_eq]
  show Except.ok (XOption.mk (Dict.insertAll ∅ (bindings words))
    ([] ++ words.filter (¬ IsOption ·))) = _
  rw [hbindings, Dict.insertAll_lists hbs, hmerged.filter_right hoptions hs, List.nil_append]

/-- `--k=a=b` and `--j=` among the words `--` and `k`, of a map in which `j` was
    entered first. -/
theorem decode_inverts_rendering_two :
    decode fresh [⟨['x'], by decide⟩, ⟨['-', '-'], by decide⟩,
        ⟨['-', '-', 'k', '=', 'a', '=', 'b'], by decide⟩, ⟨['k'], by decide⟩,
        ⟨['-', '-', 'j', '='], by decide⟩] =
      .ok ⟨Dict.insertAll ∅ [(⟨['j'], by decide⟩, Word.empty),
          (⟨['k'], by decide⟩, ⟨['a', '=', 'b'], by decide⟩)],
        [⟨['-', '-'], by decide⟩, ⟨['k'], by decide⟩]⟩ := by
  refine decode_inverts_rendering.1 _
    [(⟨['k'], by decide⟩, ⟨['a', '=', 'b'], by decide⟩), (⟨['j'], by decide⟩, Word.empty)]
    [⟨['-', '-', 'k', '=', 'a', '=', 'b'], by decide⟩, ⟨['-', '-', 'j', '='], by decide⟩] _ _ _
    ?_ ?_ (Dict.lists_insertAll (by decide) (List.Perm.swap _ _ []))
    (.cons rfl (.cons rfl .nil)) (.right (.left (.right (.left .nil))))
  · intro name hname
    simp only [Dict.insertAll, List.foldl_cons, List.foldl_nil, Finmap.mem_insert] at hname
    rcases hname with rfl | rfl | hname
    · decide
    · decide
    · exact absurd hname Finmap.notMem_empty
  · decide

end XOption

end XFast
