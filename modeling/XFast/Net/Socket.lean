import Mathlib.Logic.Equiv.Basic
import XFast.Framework.Descriptors
import XFast.Framework.Steps
import XFast.Net.SockApi

/-! # Who closes a socket

    An `xSocket` closes its descriptor when it is destroyed.  It cannot be
    copied; a move leaves the other one without a descriptor, and `release`
    hands the number to the caller.  A caller may also have a number from
    `accept` or `connect`, wrap it in an `xSocket`, or close it himself.

    The kernel gives a number that was closed to the next socket, so a number
    that is closed twice may hit the socket of somebody else. -/

namespace XFast

open Steps Descriptors SockApi

/-! ## Section 1: The objects -/

/-- What the kernel answers to `createSocket`. -/
inductive SocketAnswer where
  | opened (n : Fd)
  /-- `socket` succeeds and `setReuseAddr` fails. -/
  | refused (n : Fd)
  | failed
  deriving DecidableEq, Repr

/-- The descriptors of the process, the `fd_` of each `xSocket`, and the
    numbers that callers hold.  `next` has not been used for an object. -/
structure Sockets where
  table : Table Fd
  objects : Nat → Option Fd
  next : Nat
  hands : List Fd

inductive SocketStep where
  /-- `xSocket(int fd)`, and `xSocket()` with `INVALID_SOCK`. -/
  | construct (fd : Fd)
  | create (i : Nat) (answer : SocketAnswer)
  /-- `xSocket(std::move(rth))`. -/
  | moveConstruct (rth : Nat)
  /-- `operator=(xSocket&& rth)`. -/
  | moveAssign (i rth : Nat)
  | release (i : Nat)
  /-- `~xSocket()`. -/
  | destroy (i : Nat)
  /-- `accept` or `connect` gives the caller a number. -/
  | accept (n : Fd)
  /-- The caller calls `::close`. -/
  | close (n : Fd)
  deriving DecidableEq, Repr

namespace Sockets

def initial : Sockets := ⟨⟨[], 0, [], []⟩, fun _ => none, 0, []⟩

/-- The kernel gives numbers that are not open. -/
def Free (s : Sockets) (n : Fd) : Prop := 0 ≤ n ∧ ¬s.table.IsOpen n

instance (s : Sockets) (n : Fd) : Decidable (s.Free n) := inferInstanceAs (Decidable (_ ∧ _))

def setFd (s : Sockets) (i : Nat) (fd_ : Option Fd) : Sockets :=
  { s with objects := Function.update s.objects i fd_ }

def construct (s : Sockets) (fd : Fd) : Sockets :=
  { s with
    objects := Function.update s.objects s.next (some fd)
    next := s.next + 1
    hands := s.hands.erase fd }

/-- `fd_ = xSockApi::createSocket(..)`, whatever `fd_` was; it throws when the
    result is invalid. -/
def create (s : Sockets) (i : Nat) : SocketAnswer → Sockets
  | .opened n => ({ s with table := s.table.acquire n }).setFd i (some n)
  | .refused n => ({ s with table := (s.table.acquire n).close n }).setFd i (some INVALID_SOCK)
  | .failed => s.setFd i (some INVALID_SOCK)

/-- `fd_ = INVALID_SOCK`, and the swap. -/
def moveConstruct (s : Sockets) (rth : Nat) (fd : Fd) : Sockets :=
  { (s.setFd rth (some INVALID_SOCK)).setFd s.next (some fd) with next := s.next + 1 }

/-- `if (fd_ != INVALID_SOCK) { ::close(fd_); .. }`. -/
def closeFd (s : Sockets) (i : Nat) (fd_ : Fd) (left : Option Fd) : Sockets :=
  if fd_ = INVALID_SOCK then s.setFd i left
  else ({ s with table := s.table.close fd_ }).setFd i left

/-- The socket is closed, and then the two are swapped. -/
def moveAssign (s : Sockets) (i rth : Nat) (fd_ : Fd) : Sockets :=
  let s := s.closeFd i fd_ (some INVALID_SOCK)
  (s.setFd i (s.objects rth)).setFd rth (s.objects i)

def release (s : Sockets) (i : Nat) (fd_ : Fd) : Sockets :=
  { s.setFd i (some INVALID_SOCK) with
    hands := if fd_ = INVALID_SOCK then s.hands else fd_ :: s.hands }

def step (s : Sockets) : SocketStep → Option Sockets
  | .construct fd => some (s.construct fd)
  | .create i answer =>
      match s.objects i, answer with
      | some _, .opened n => if s.Free n then some (s.create i answer) else none
      | some _, .refused n => if s.Free n then some (s.create i answer) else none
      | some _, .failed => some (s.create i answer)
      | none, _ => none
  | .moveConstruct rth => (s.objects rth).map (s.moveConstruct rth)
  | .moveAssign i rth =>
      match s.objects i, s.objects rth with
      | some fd_, some _ => some (s.moveAssign i rth fd_)
      | _, _ => none
  | .release i => (s.objects i).map (s.release i)
  | .destroy i => (s.objects i).map fun fd_ => s.closeFd i fd_ none
  | .accept n =>
      if s.Free n then some { s with table := s.table.acquire n, hands := n :: s.hands } else none
  | .close n => some { s with table := s.table.close n, hands := s.hands.erase n }

/-- A caller wraps and closes only what he holds, and `create` is called on a
    socket that has no descriptor. -/
def Careful (s : Sockets) : SocketStep → Prop
  | .construct fd => fd = INVALID_SOCK ∨ fd ∈ s.hands
  | .create i _ => s.objects i = some INVALID_SOCK
  | .close n => n ∈ s.hands
  | _ => True

instance (s : Sockets) : ∀ l, Decidable (s.Careful l)
  | .construct _ => inferInstanceAs (Decidable (_ ∨ _))
  | .create _ _ => inferInstanceAs (Decidable (_ = _))
  | .close _ => inferInstanceAs (Decidable (_ ∈ _))
  | .moveConstruct _ | .moveAssign _ _ | .release _ | .destroy _ | .accept _ => isTrue trivial

/-! ## Section 2: Owners -/

/-- What holds whatever the callers do. -/
structure Inv (s : Sockets) : Prop where
  sound : s.table.Sound
  invalid : ¬s.table.IsOpen INVALID_SOCK
  hands : INVALID_SOCK ∉ s.hands
  fresh : ∀ i, s.next ≤ i → s.objects i = none

/-- Every open descriptor has one owner, an `xSocket` or a caller, and what is
    owned is open; nothing else has been closed. -/
structure Balanced (s : Sockets) : Prop where
  opened : ∀ n, s.table.IsOpen n → n ∈ s.hands ∨ ∃ i, s.objects i = some n
  held : ∀ n ∈ s.hands, s.table.IsOpen n
  owned : ∀ i n, n ≠ INVALID_SOCK → s.objects i = some n → s.table.IsOpen n ∧ n ∉ s.hands
  alone : ∀ i j n, n ≠ INVALID_SOCK → s.objects i = some n → s.objects j = some n → i = j
  nodup : s.hands.Nodup
  stray : s.table.stray = []

theorem inv_initial : initial.Inv where
  sound := ⟨List.nodup_nil, List.Perm.refl _⟩
  invalid h := by cases h
  hands h := by cases h
  fresh _ _ := rfl

theorem balanced_initial : initial.Balanced where
  opened _ h := by cases h
  held _ h := by cases h
  owned _ _ _ h := by cases h
  alone _ _ _ _ h := by cases h
  nodup := List.nodup_nil
  stray := rfl

variable {s s' : Sockets} {i j : Nat} {n : Fd}

theorem Inv.ne_invalid (h : s.Inv) (hopen : s.table.IsOpen n) : n ≠ INVALID_SOCK := by
  rintro rfl
  exact h.invalid hopen

/-- Descriptors change their objects, and nothing else. -/
theorem Balanced.permute (h : s.Balanced) (hinv : s.Inv) (f : Equiv.Perm Nat)
    (hopen : ∀ n, s'.table.IsOpen n ↔ s.table.IsOpen n) (hstray : s'.table.stray = s.table.stray)
    (hhands : s'.hands = s.hands)
    (hobjects : ∀ i n, n ≠ INVALID_SOCK → (s'.objects i = some n ↔ s.objects (f i) = some n)) :
    s'.Balanced where
  opened n hn := by
    rw [hopen] at hn
    rw [hhands]
    refine (h.opened n hn).imp_right fun ⟨i, hi⟩ => ⟨f.symm i, ?_⟩
    rw [hobjects _ _ (hinv.ne_invalid hn), Equiv.apply_symm_apply]
    exact hi
  held n hn := by
    rw [hhands] at hn
    rw [hopen]
    exact h.held n hn
  owned i n hn hi := by
    rw [hopen, hhands]
    exact h.owned _ n hn ((hobjects i n hn).mp hi)
  alone i j n hn hi hj :=
    f.injective (h.alone _ _ n hn ((hobjects i n hn).mp hi) ((hobjects j n hn).mp hj))
  nodup := by rw [hhands]; exact h.nodup
  stray := by rw [hstray]; exact h.stray

/-- The owner closes a descriptor, and has it no more. -/
theorem Balanced.closeOwned (h : s.Balanced) (hinv : s.Inv) (hn : n ≠ INVALID_SOCK)
    (hi : s.objects i = some n) (htable : s'.table = s.table.close n)
    (hhands : s'.hands = s.hands)
    (hobjects : ∀ j m, m ≠ INVALID_SOCK → (s'.objects j = some m ↔ s.objects j = some m ∧ j ≠ i)) :
    s'.Balanced := by
  obtain ⟨hopen, hhand⟩ := h.owned i n hn hi
  refine ⟨fun m hm => ?_, fun m hm => ?_, fun j m hm hj => ?_, fun j k m hm hj hk => ?_, ?_, ?_⟩
  · rw [htable, Table.isOpen_close] at hm
    rw [hhands]
    refine (h.opened m hm.1).imp_right fun ⟨j, hj⟩ => ⟨j, ?_⟩
    rw [hobjects j m (hinv.ne_invalid hm.1)]
    refine ⟨hj, ?_⟩
    rintro rfl
    rw [hi] at hj
    exact hm.2 (Option.some.inj hj).symm
  · rw [hhands] at hm
    rw [htable, Table.isOpen_close]
    refine ⟨h.held m hm, ?_⟩
    rintro rfl
    exact hhand hm
  · obtain ⟨hj, hne⟩ := (hobjects j m hm).mp hj
    obtain ⟨hopen', hhand'⟩ := h.owned j m hm hj
    rw [htable, hhands, Table.isOpen_close]
    refine ⟨⟨hopen', ?_⟩, hhand'⟩
    rintro rfl
    exact hne (h.alone j i m hm hj hi)
  · exact h.alone j k m hm ((hobjects j m hm).mp hj).1 ((hobjects k m hm).mp hk).1
  · rw [hhands]
    exact h.nodup
  · rw [htable, Table.stray_close, if_pos hopen]
    exact h.stray

/-- A number that nobody has becomes that of an object without one. -/
theorem Balanced.gain (h : s.Balanced) (hinv : s.Inv) (hfree : ¬s.table.IsOpen n)
    (hi : ∀ m, s.objects i = some m → m = INVALID_SOCK) (htable : s'.table = s.table.acquire n)
    (hhands : s'.hands = s.hands) (hobjects : s'.objects = Function.update s.objects i (some n)) :
    s'.Balanced := by
  have hother : ∀ j m, m ≠ INVALID_SOCK → s.objects j = some m → j ≠ i := by
    rintro j m hm hj rfl
    exact hm (hi m hj)
  have hcases : ∀ j m, s'.objects j = some m → (j = i ∧ m = n) ∨ (j ≠ i ∧ s.objects j = some m) := by
    intro j m hj
    rw [hobjects] at hj
    by_cases heq : j = i
    · subst heq
      rw [Function.update_self] at hj
      exact Or.inl ⟨rfl, (Option.some.inj hj).symm⟩
    · rw [Function.update_of_ne heq] at hj
      exact Or.inr ⟨heq, hj⟩
  refine ⟨fun m hm => ?_, fun m hm => ?_, fun j m hm hj => ?_, fun j k m hm hj hk => ?_, ?_, ?_⟩
  · rw [htable, Table.isOpen_acquire] at hm
    rw [hhands, hobjects]
    rcases hm with hold | rfl
    · refine (h.opened m hold).imp_right fun ⟨j, hj⟩ => ⟨j, ?_⟩
      rw [Function.update_of_ne (hother j m (hinv.ne_invalid hold) hj)]
      exact hj
    · exact Or.inr ⟨i, Function.update_self ..⟩
  · rw [hhands] at hm
    rw [htable, Table.isOpen_acquire]
    exact Or.inl (h.held m hm)
  · rw [htable, hhands, Table.isOpen_acquire]
    rcases hcases j m hj with ⟨-, rfl⟩ | ⟨-, hold⟩
    · exact ⟨Or.inr rfl, fun hhand => hfree (h.held m hhand)⟩
    · exact ⟨Or.inl (h.owned j m hm hold).1, (h.owned j m hm hold).2⟩
  · rcases hcases j m hj with ⟨rfl, rfl⟩ | ⟨-, hj⟩
    · rcases hcases k m hk with ⟨rfl, -⟩ | ⟨-, hk⟩
      · rfl
      · exact absurd (h.owned k m hm hk).1 hfree
    · rcases hcases k m hk with ⟨-, rfl⟩ | ⟨-, hk⟩
      · exact absurd (h.owned j m hm hj).1 hfree
      · exact h.alone j k m hm hj hk
  · rw [hhands]
    exact h.nodup
  · rw [htable]
    exact h.stray

/-- A caller's number becomes that of a new object. -/
theorem Balanced.construct (h : s.Balanced) (hinv : s.Inv) (hn : n ∈ s.hands) :
    (s.construct n).Balanced := by
  have hnew : s.objects s.next = none := hinv.fresh s.next (Nat.le_refl _)
  have hcases : ∀ j m, (s.construct n).objects j = some m →
      (j = s.next ∧ m = n) ∨ s.objects j = some m := by
    intro j m hj
    by_cases heq : j = s.next
    · subst heq
      refine Or.inl ⟨rfl, ?_⟩
      have hself : (s.construct n).objects s.next = some n := Function.update_self ..
      rw [hself] at hj
      exact (Option.some.inj hj).symm
    · have hsame : (s.construct n).objects j = s.objects j := Function.update_of_ne heq ..
      exact Or.inr (hsame ▸ hj)
  have hkept : ∀ j m, s.objects j = some m → (s.construct n).objects j = some m := by
    intro j m hj
    have hne : j ≠ s.next := by
      rintro rfl
      rw [hnew] at hj
      cases hj
    exact (Function.update_of_ne hne ..).trans hj
  have herase : ∀ m, m ∈ s.hands.erase n ↔ m ≠ n ∧ m ∈ s.hands := fun m => h.nodup.mem_erase_iff
  refine ⟨fun m hm => ?_, fun m hm => ?_, fun j m hm hj => ?_, fun j k m hm hj hk => ?_, ?_,
    h.stray⟩
  · by_cases heq : m = n
    · subst heq
      exact Or.inr ⟨s.next, Function.update_self ..⟩
    · rcases h.opened m hm with hhand | ⟨j, hj⟩
      · exact Or.inl ((herase m).mpr ⟨heq, hhand⟩)
      · exact Or.inr ⟨j, hkept j m hj⟩
  · exact h.held m (List.mem_of_mem_erase hm)
  · rcases hcases j m hj with ⟨-, rfl⟩ | hold
    · exact ⟨h.held m hn, fun hmem => ((herase m).mp hmem).1 rfl⟩
    · exact ⟨(h.owned j m hm hold).1,
        fun hmem => (h.owned j m hm hold).2 (List.mem_of_mem_erase hmem)⟩
  · rcases hcases j m hj with ⟨rfl, rfl⟩ | holdj
    · rcases hcases k m hk with ⟨rfl, -⟩ | holdk
      · rfl
      · exact absurd hn (h.owned k m hm holdk).2
    · rcases hcases k m hk with ⟨-, rfl⟩ | holdk
      · exact absurd hn (h.owned j m hm holdj).2
      · exact h.alone j k m hm holdj holdk
  · exact h.nodup.erase n

/-- The object gives its number to the caller. -/
theorem Balanced.release (h : s.Balanced) (hinv : s.Inv) (hi : s.objects i = some n) :
    (s.release i n).Balanced := by
  have hself : (s.release i n).objects i = some INVALID_SOCK := Function.update_self ..
  have hother : ∀ j, j ≠ i → (s.release i n).objects j = s.objects j :=
    fun j hne => Function.update_of_ne hne ..
  have hcases : ∀ j m, m ≠ INVALID_SOCK → (s.release i n).objects j = some m →
      j ≠ i ∧ s.objects j = some m := by
    intro j m hm hj
    have hne : j ≠ i := by
      rintro rfl
      rw [hself] at hj
      exact hm (Option.some.inj hj).symm
    exact ⟨hne, (hother j hne) ▸ hj⟩
  by_cases hn : n = INVALID_SOCK
  · have hhands : (s.release i n).hands = s.hands := if_pos hn
    refine h.permute hinv (Equiv.refl Nat) (fun _ => Iff.rfl) rfl hhands fun j m hm => ⟨fun hj => ?_, fun hj => ?_⟩
    · exact (hcases j m hm hj).2
    · have hne : j ≠ i := by
        rintro rfl
        rw [Equiv.refl_apply, hi] at hj
        exact hm ((Option.some.inj hj).symm.trans hn)
      rw [hother j hne]
      exact hj
  · have hhands : (s.release i n).hands = n :: s.hands := if_neg hn
    obtain ⟨hopen, hhand⟩ := h.owned i n hn hi
    refine ⟨fun m hm => ?_, fun m hm => ?_, fun j m hm hj => ?_, fun j k m hm hj hk => ?_, ?_,
      h.stray⟩
    · rw [hhands]
      rcases h.opened m hm with hold | ⟨j, hj⟩
      · exact Or.inl (List.mem_cons_of_mem n hold)
      · by_cases heq : j = i
        · subst heq
          rw [hi] at hj
          exact Or.inl (Option.some.inj hj ▸ List.mem_cons_self)
        · exact Or.inr ⟨j, (hother j heq).trans hj⟩
    · rw [hhands] at hm
      rcases List.mem_cons.mp hm with rfl | hold
      · exact hopen
      · exact h.held m hold
    · obtain ⟨hne, hold⟩ := hcases j m hm hj
      refine ⟨(h.owned j m hm hold).1, ?_⟩
      rw [hhands, List.mem_cons]
      rintro (rfl | hmem)
      · exact hne (h.alone j i m hm hold hi)
      · exact (h.owned j m hm hold).2 hmem
    · exact h.alone j k m hm (hcases j m hm hj).2 (hcases k m hm hk).2
    · rw [hhands]
      exact List.nodup_cons.mpr ⟨hhand, h.nodup⟩

/-- `closeFd` leaves the object without a descriptor. -/
theorem Balanced.closeFd (h : s.Balanced) (hinv : s.Inv) (hi : s.objects i = some n)
    {left : Option Fd} (hleft : ∀ m, left = some m → m = INVALID_SOCK) :
    (s.closeFd i n left).Balanced := by
  have hobjects : ∀ j m, m ≠ INVALID_SOCK →
      (Function.update s.objects i left j = some m ↔ s.objects j = some m ∧ j ≠ i) := by
    intro j m hm
    by_cases heq : j = i
    · subst heq
      rw [Function.update_self]
      exact ⟨fun hj => absurd (hleft m hj) hm, fun hj => absurd rfl hj.2⟩
    · rw [Function.update_of_ne heq]
      exact ⟨fun hj => ⟨hj, heq⟩, And.left⟩
  unfold Sockets.closeFd
  by_cases hn : n = INVALID_SOCK
  · rw [if_pos hn]
    refine h.permute hinv (Equiv.refl Nat) (fun _ => Iff.rfl) rfl rfl fun j m hm => ?_
    refine (hobjects j m hm).trans ⟨And.left, fun hj => ⟨hj, ?_⟩⟩
    rintro rfl
    rw [Equiv.refl_apply, hi] at hj
    exact hm ((Option.some.inj hj).symm.trans hn)
  · rw [if_neg hn]
    exact h.closeOwned hinv hn hi rfl rfl hobjects

theorem Balanced.moveConstruct (h : s.Balanced) (hinv : s.Inv) (hi : s.objects i = some n) :
    (s.moveConstruct i n).Balanced := by
  have hnew : s.objects s.next = none := hinv.fresh s.next (Nat.le_refl _)
  refine h.permute hinv (Equiv.swap i s.next) (fun _ => Iff.rfl) rfl rfl fun j m hm => ?_
  show Function.update (Function.update s.objects i (some INVALID_SOCK)) s.next (some n) j = some m ↔
    s.objects (Equiv.swap i s.next j) = some m
  by_cases hnext : j = s.next
  · subst hnext
    rw [Function.update_self, Equiv.swap_apply_right, hi]
  · rw [Function.update_of_ne hnext]
    by_cases heq : j = i
    · subst heq
      rw [Function.update_self, Equiv.swap_apply_left, hnew]
      refine ⟨fun hj => absurd (Option.some.inj hj).symm hm, fun hj => ?_⟩
      cases hj
    · rw [Function.update_of_ne heq, Equiv.swap_apply_of_ne_of_ne heq hnext]

/-- The two change places, also when they are one. -/
theorem Balanced.swap (h : s.Balanced) (hinv : s.Inv) (i j : Nat) :
    ((s.setFd i (s.objects j)).setFd j (s.objects i)).Balanced := by
  refine h.permute hinv (Equiv.swap i j) (fun _ => Iff.rfl) rfl rfl fun k m _ => ?_
  show Function.update (Function.update s.objects i (s.objects j)) j (s.objects i) k = some m ↔
    s.objects (Equiv.swap i j k) = some m
  by_cases hj : k = j
  · subst hj
    rw [Function.update_self, Equiv.swap_apply_right]
  · rw [Function.update_of_ne hj]
    by_cases hi : k = i
    · subst hi
      rw [Function.update_self, Equiv.swap_apply_left]
    · rw [Function.update_of_ne hi, Equiv.swap_apply_of_ne_of_ne hi hj]

/-- A caller gets a number that nobody has. -/
theorem Balanced.accept (h : s.Balanced) (hfree : ¬s.table.IsOpen n)
    (htable : s'.table = s.table.acquire n) (hhands : s'.hands = n :: s.hands)
    (hobjects : s'.objects = s.objects) : s'.Balanced where
  opened m hm := by
    rw [htable, Table.isOpen_acquire] at hm
    rw [hhands, hobjects]
    rcases hm with hold | rfl
    · exact (h.opened m hold).imp_left (List.mem_cons_of_mem n)
    · exact Or.inl List.mem_cons_self
  held m hm := by
    rw [hhands] at hm
    rw [htable, Table.isOpen_acquire]
    rcases List.mem_cons.mp hm with rfl | hold
    · exact Or.inr rfl
    · exact Or.inl (h.held m hold)
  owned j m hm hj := by
    rw [hobjects] at hj
    obtain ⟨hopen, hhand⟩ := h.owned j m hm hj
    rw [htable, hhands, Table.isOpen_acquire, List.mem_cons]
    refine ⟨Or.inl hopen, ?_⟩
    rintro (rfl | hmem)
    · exact hfree hopen
    · exact hhand hmem
  alone := by rw [hobjects]; exact h.alone
  nodup := by
    rw [hhands]
    exact List.nodup_cons.mpr ⟨fun hmem => hfree (h.held n hmem), h.nodup⟩
  stray := by rw [htable]; exact h.stray

/-- A caller closes a number that he holds. -/
theorem Balanced.closeHeld (h : s.Balanced) (hn : n ∈ s.hands)
    (htable : s'.table = s.table.close n) (hhands : s'.hands = s.hands.erase n)
    (hobjects : s'.objects = s.objects) : s'.Balanced where
  opened m hm := by
    rw [htable, Table.isOpen_close] at hm
    rw [hhands, hobjects]
    exact (h.opened m hm.1).imp_left fun hmem => h.nodup.mem_erase_iff.mpr ⟨hm.2, hmem⟩
  held m hm := by
    rw [hhands] at hm
    obtain ⟨hne, hmem⟩ := h.nodup.mem_erase_iff.mp hm
    rw [htable, Table.isOpen_close]
    exact ⟨h.held m hmem, hne⟩
  owned j m hm hj := by
    rw [hobjects] at hj
    obtain ⟨hopen, hhand⟩ := h.owned j m hm hj
    rw [htable, hhands, Table.isOpen_close]
    refine ⟨⟨hopen, ?_⟩, fun hmem => hhand (List.mem_of_mem_erase hmem)⟩
    rintro rfl
    exact hhand hn
  alone := by rw [hobjects]; exact h.alone
  nodup := by rw [hhands]; exact h.nodup.erase n
  stray := by
    rw [htable, Table.stray_close, if_pos (h.held n hn)]
    exact h.stray

/-! ## Section 3: Steps -/

variable {l : SocketStep}

theorem step_create {answer : SocketAnswer} (h : s.step (.create i answer) = some s') :
    (∃ fd_, s.objects i = some fd_) ∧ s' = s.create i answer ∧
      ∀ n, answer = .opened n ∨ answer = .refused n → s.Free n := by
  simp only [step] at h
  split at h
  case h_1 fd_ n hi =>
    obtain ⟨hfree, heq⟩ := Option.ite_none_right_eq_some.mp h
    refine ⟨⟨fd_, hi⟩, (Option.some.inj heq).symm, ?_⟩
    rintro m (hm | hm) <;> cases hm
    exact hfree
  case h_2 fd_ n hi =>
    obtain ⟨hfree, heq⟩ := Option.ite_none_right_eq_some.mp h
    refine ⟨⟨fd_, hi⟩, (Option.some.inj heq).symm, ?_⟩
    rintro m (hm | hm) <;> cases hm
    exact hfree
  case h_3 fd_ hi =>
    refine ⟨⟨fd_, hi⟩, (Option.some.inj h).symm, ?_⟩
    rintro m (hm | hm) <;> cases hm
  case h_4 => cases h

theorem step_moveAssign {rth : Nat} (h : s.step (.moveAssign i rth) = some s') :
    ∃ fd_ fd_', s.objects i = some fd_ ∧ s.objects rth = some fd_' ∧
      s' = s.moveAssign i rth fd_ := by
  simp only [step] at h
  split at h
  case h_1 fd_ fd_' hi hj => exact ⟨fd_, fd_', hi, hj, (Option.some.inj h).symm⟩
  case h_2 => cases h

theorem Inv.setFd (h : s.Inv) (hi : i < s.next) (fd_ : Option Fd) : (s.setFd i fd_).Inv where
  sound := h.sound
  invalid := h.invalid
  hands := h.hands
  fresh j hj := by
    have hne : j ≠ i := (Nat.lt_of_lt_of_le hi hj).ne'
    exact (Function.update_of_ne hne ..).trans (h.fresh j hj)

theorem Inv.lt_next (h : s.Inv) (hi : s.objects i = some n) : i < s.next := by
  refine Nat.lt_of_not_le fun hle => ?_
  rw [h.fresh i hle] at hi
  cases hi

theorem Inv.acquire (h : s.Inv) (hfree : s.Free n) :
    ({ s with table := s.table.acquire n } : Sockets).Inv where
  sound := h.sound.acquire hfree.2
  invalid hopen := by
    rcases Table.isOpen_acquire.mp hopen with hold | heq
    · exact h.invalid hold
    · exact ne_invalid_of_nonneg hfree.1 heq.symm
  hands := h.hands
  fresh := h.fresh

theorem Inv.close (h : s.Inv) (n : Fd) : ({ s with table := s.table.close n } : Sockets).Inv where
  sound := h.sound.close_any n
  invalid hopen := h.invalid (Table.isOpen_close.mp hopen).1
  hands := h.hands
  fresh := h.fresh

theorem Inv.setHands (h : s.Inv) {hands : List Fd} (hhands : INVALID_SOCK ∉ hands) :
    ({ s with hands := hands } : Sockets).Inv := ⟨h.sound, h.invalid, hhands, h.fresh⟩

/-- A new object. -/
theorem Inv.push (h : s.Inv) (fd : Fd) :
    ({ s.setFd s.next (some fd) with next := s.next + 1 } : Sockets).Inv where
  sound := h.sound
  invalid := h.invalid
  hands := h.hands
  fresh j hj := by
    have hlt : s.next < j := hj
    exact (Function.update_of_ne hlt.ne' ..).trans (h.fresh j hlt.le)

theorem Inv.closeFd (h : s.Inv) (hi : i < s.next) (left : Option Fd) :
    (s.closeFd i n left).Inv := by
  unfold Sockets.closeFd
  split
  · exact h.setFd hi left
  · exact (h.close n).setFd hi left

theorem next_closeFd {left : Option Fd} : (s.closeFd i n left).next = s.next := by
  unfold Sockets.closeFd
  split <;> rfl

theorem inv_step (h : s.Inv) (hstep : s.step l = some s') : s'.Inv := by
  cases l with
  | construct fd =>
    cases hstep
    exact (h.push fd).setHands fun hmem => h.hands (List.mem_of_mem_erase hmem)
  | create i answer =>
    obtain ⟨⟨fd_, hi⟩, rfl, hfree⟩ := step_create hstep
    have hlt := h.lt_next hi
    cases answer with
    | opened n => exact (h.acquire (hfree n (Or.inl rfl))).setFd hlt (some n)
    | refused n =>
      exact ((h.acquire (hfree n (Or.inr rfl))).close n).setFd hlt (some INVALID_SOCK)
    | failed => exact h.setFd hlt (some INVALID_SOCK)
  | moveConstruct rth =>
    obtain ⟨fd_, hi, rfl⟩ := Option.map_eq_some_iff.mp hstep
    exact (h.setFd (h.lt_next hi) (some INVALID_SOCK)).push fd_
  | moveAssign i rth =>
    obtain ⟨fd_, fd_', hi, hj, rfl⟩ := step_moveAssign hstep
    have hclosed : (s.closeFd i fd_ (some INVALID_SOCK)).Inv := h.closeFd (h.lt_next hi) _
    have hlt : i < (s.closeFd i fd_ (some INVALID_SOCK)).next := by
      rw [next_closeFd]
      exact h.lt_next hi
    have hlt' : rth < (s.closeFd i fd_ (some INVALID_SOCK)).next := by
      rw [next_closeFd]
      exact h.lt_next hj
    exact (hclosed.setFd hlt _).setFd hlt' _
  | release i =>
    obtain ⟨fd_, hi, rfl⟩ := Option.map_eq_some_iff.mp hstep
    refine (h.setFd (h.lt_next hi) (some INVALID_SOCK)).setHands ?_
    split
    case isTrue => exact h.hands
    case isFalse hne =>
      rw [List.mem_cons]
      rintro (heq | hmem)
      · exact hne heq.symm
      · exact h.hands hmem
  | destroy i =>
    obtain ⟨fd_, hi, rfl⟩ := Option.map_eq_some_iff.mp hstep
    exact h.closeFd (h.lt_next hi) none
  | accept n =>
    obtain ⟨hfree, heq⟩ := Option.ite_none_right_eq_some.mp hstep
    cases heq
    refine (h.acquire hfree).setHands ?_
    rw [List.mem_cons]
    rintro (heq | hmem)
    · exact ne_invalid_of_nonneg hfree.1 heq.symm
    · exact h.hands hmem
  | close n =>
    cases hstep
    exact (h.close n).setHands fun hmem => h.hands (List.mem_of_mem_erase hmem)

/-- An object that has no descriptor, or is not there, loses none. -/
theorem update_blank {m : Fd} (hi : ∀ m, s.objects i = some m → m = INVALID_SOCK)
    (hm : m ≠ INVALID_SOCK) :
    Function.update s.objects i (some INVALID_SOCK) j = some m ↔ s.objects j = some m := by
  by_cases heq : j = i
  · subst heq
    rw [Function.update_self]
    exact ⟨fun hj => absurd (Option.some.inj hj).symm hm, fun hj => absurd (hi m hj) hm⟩
  · rw [Function.update_of_ne heq]

/-- A caller who is careful keeps one owner for every open descriptor. -/
theorem balanced_step (h : s.Balanced) (hinv : s.Inv) (hcareful : s.Careful l)
    (hstep : s.step l = some s') : s'.Balanced := by
  cases l with
  | construct fd =>
    cases hstep
    rcases hcareful with rfl | hhand
    · have hnew : s.objects s.next = none := hinv.fresh s.next (Nat.le_refl _)
      refine h.permute hinv (Equiv.refl Nat) (fun _ => Iff.rfl) rfl
        (List.erase_of_not_mem hinv.hands) fun j m hm => update_blank (fun m hj => ?_) hm
      rw [hnew] at hj
      cases hj
    · exact h.construct hinv hhand
  | create i answer =>
    obtain ⟨-, rfl, hfree⟩ := step_create hstep
    have hblank : ∀ m, s.objects i = some m → m = INVALID_SOCK := by
      intro m hm
      rw [show s.objects i = some INVALID_SOCK from hcareful] at hm
      exact (Option.some.inj hm).symm
    cases answer with
    | opened n => exact h.gain hinv (hfree n (Or.inl rfl)).2 hblank rfl rfl rfl
    | refused n =>
      -- The new socket is closed again, and nobody has its number.
      have htable : (s.create i (.refused n)).table = s.table.spend 1 :=
        Table.close_acquire (hfree n (Or.inr rfl)).2
      refine h.permute hinv (Equiv.refl Nat) (fun m => ?_) ?_ rfl fun j m hm =>
        update_blank hblank hm
      · rw [htable, Table.isOpen_spend]
      · rw [htable]
        rfl
    | failed =>
      exact h.permute hinv (Equiv.refl Nat) (fun _ => Iff.rfl) rfl rfl fun j m hm =>
        update_blank hblank hm
  | moveConstruct rth =>
    obtain ⟨fd_, hi, rfl⟩ := Option.map_eq_some_iff.mp hstep
    exact h.moveConstruct hinv hi
  | moveAssign i rth =>
    obtain ⟨fd_, fd_', hi, hj, rfl⟩ := step_moveAssign hstep
    have hclosed : (s.closeFd i fd_ (some INVALID_SOCK)).Balanced :=
      h.closeFd hinv hi fun m hm => (Option.some.inj hm).symm
    exact hclosed.swap (hinv.closeFd (hinv.lt_next hi) _) i rth
  | release i =>
    obtain ⟨fd_, hi, rfl⟩ := Option.map_eq_some_iff.mp hstep
    exact h.release hinv hi
  | destroy i =>
    obtain ⟨fd_, hi, rfl⟩ := Option.map_eq_some_iff.mp hstep
    exact h.closeFd hinv hi fun m hm => nomatch hm
  | accept n =>
    obtain ⟨hfree, heq⟩ := Option.ite_none_right_eq_some.mp hstep
    cases heq
    exact h.accept hfree.2 rfl rfl rfl
  | close n =>
    cases hstep
    exact h.closeHeld hcareful rfl rfl rfl

theorem careful_construct {fd : Fd} (h : s.Balanced) (hinv : s.Inv)
    (h' : (s.construct fd).Balanced) : s.Careful (.construct fd) := by
  refine Classical.or_iff_not_imp_left.mpr fun hvalid => Classical.byContradiction fun hhand => ?_
  have hnext : (s.construct fd).objects s.next = some fd := Function.update_self ..
  have hopen : s.table.IsOpen fd := (h'.owned s.next fd hvalid hnext).1
  rcases h.opened fd hopen with hmem | ⟨j, hj⟩
  · exact hhand hmem
  -- Two objects would have the number.
  · have hlt : j < s.next := hinv.lt_next hj
    have hkept : (s.construct fd).objects j = some fd :=
      (Function.update_of_ne hlt.ne ..).trans hj
    exact hlt.ne (h'.alone j s.next fd hvalid hkept hnext)

theorem careful_create {answer : SocketAnswer} (h : s.Balanced)
    (hstep : s.step (.create i answer) = some s') (h' : s'.Balanced) :
    s.Careful (.create i answer) := by
  obtain ⟨⟨fd_, hi⟩, rfl, hfree⟩ := step_create hstep
  show s.objects i = some INVALID_SOCK
  rw [hi]
  refine congrArg some (Classical.byContradiction fun hvalid => ?_)
  obtain ⟨hopen, hhand⟩ := h.owned i fd_ hvalid hi
  have hne : ∀ n, s.Free n → n ≠ fd_ := by
    rintro n hn rfl
    exact hn.2 hopen
  -- The old number stays open, and the object does not have it any more.
  have hopen' : (s.create i answer).table.IsOpen fd_ := by
    cases answer with
    | opened n => exact Table.isOpen_acquire.mpr (Or.inl hopen)
    | refused n =>
      exact Table.isOpen_close.mpr ⟨Table.isOpen_acquire.mpr (Or.inl hopen),
        (hne n (hfree n (Or.inr rfl))).symm⟩
    | failed => exact hopen
  have hself : (s.create i answer).objects i ≠ some fd_ := by
    intro heq
    cases answer with
    | opened n =>
      have hnew : (s.create i (.opened n)).objects i = some n := Function.update_self ..
      exact hne n (hfree n (Or.inl rfl)) (Option.some.inj (hnew.symm.trans heq))
    | refused n =>
      have hnew : (s.create i (.refused n)).objects i = some INVALID_SOCK := Function.update_self ..
      exact hvalid (Option.some.inj (hnew.symm.trans heq)).symm
    | failed =>
      have hnew : (s.create i .failed).objects i = some INVALID_SOCK := Function.update_self ..
      exact hvalid (Option.some.inj (hnew.symm.trans heq)).symm
  have hother : ∀ j, j ≠ i → (s.create i answer).objects j = s.objects j := by
    intro j hj
    cases answer <;> exact Function.update_of_ne hj ..
  have hhands : (s.create i answer).hands = s.hands := by cases answer <;> rfl
  rcases h'.opened fd_ hopen' with hmem | ⟨j, hj⟩
  · exact hhand (hhands ▸ hmem)
  · by_cases heq : j = i
    · exact hself (heq ▸ hj)
    · rw [hother j heq] at hj
      exact heq (h.alone j i fd_ hvalid hj hi)

theorem careful_close (h : s.Balanced) (hinv : s.Inv)
    (hstep : s.step (.close n) = some s') (h' : s'.Balanced) : s.Careful (.close n) := by
  cases hstep
  refine Classical.byContradiction fun hhand => ?_
  by_cases hopen : s.table.IsOpen n
  · obtain ⟨j, hj⟩ := (h.opened n hopen).resolve_left hhand
    have hkept := (h'.owned j n (hinv.ne_invalid hopen) hj).1
    exact (Table.isOpen_close.mp hkept).2 rfl
  · have hstray : (s.table.close n).stray = s.table.stray ++ [n] := by
      rw [Table.stray_close, if_neg hopen]
    have hnone : (s.table.close n).stray = [] := h'.stray
    rw [hstray] at hnone
    exact List.append_ne_nil_of_right_ne_nil _ (List.cons_ne_nil _ _) hnone

/-- One careless step is enough to lose the owner of a descriptor. -/
theorem careful_of_balanced (h : s.Balanced) (hinv : s.Inv) (hstep : s.step l = some s')
    (h' : s'.Balanced) : s.Careful l := by
  cases l with
  | construct fd =>
    cases hstep
    exact careful_construct h hinv h'
  | create i answer => exact careful_create h hstep h'
  | close n => exact careful_close h hinv hstep h'
  | moveConstruct | moveAssign | release | destroy | accept => trivial

/-- When every object is gone and the callers hold nothing, every socket has
    been closed, once. -/
theorem Balanced.all_closed (h : s.Balanced) (hinv : s.Inv) (hhands : s.hands = [])
    (hobjects : ∀ i n, s.objects i = some n → n = INVALID_SOCK) :
    s.table.entries = [] ∧ s.table.closed.Perm (List.range s.table.created) := by
  have hentries : s.table.entries = [] := by
    refine List.eq_nil_iff_forall_not_mem.mpr fun e he => ?_
    have hopen : s.table.IsOpen e.1 := List.mem_map.mpr ⟨e, he, rfl⟩
    rcases h.opened e.1 hopen with hmem | ⟨i, hi⟩
    · rw [hhands] at hmem
      cases hmem
    · exact hinv.ne_invalid hopen (hobjects i e.1 hi)
  have hperm := hinv.sound.objects
  rw [hentries] at hperm
  exact ⟨hentries, hperm⟩

/-- While callers wrap and close only what they hold, and create only where
    there is no descriptor, every open descriptor has one owner; of the steps
    that are possible then exactly these keep it so; and in the end every
    socket has been closed, once. -/
theorem owned_once {ls : List SocketStep} (hgood : AllSteps step Careful initial ls)
    (hrun : run step initial ls = some s) :
    s.Balanced ∧ (∀ l s₁, s.step l = some s₁ → (s.Careful l ↔ s₁.Balanced)) ∧
      (s.hands = [] → (∀ i n, s.objects i = some n → n = INVALID_SOCK) →
        s.table.entries = [] ∧ s.table.closed.Perm (List.range s.table.created)) := by
  have hstep : ∀ s l s', Inv s ∧ Balanced s → Careful s l → step s l = some s' →
      Inv s' ∧ Balanced s' := fun _ _ _ h hcareful hstep =>
    ⟨inv_step h.1 hstep, balanced_step h.2 h.1 hcareful hstep⟩
  obtain ⟨hinv, hbalanced⟩ :=
    run_of_allSteps hstep ls initial s ⟨inv_initial, balanced_initial⟩ hgood hrun
  refine ⟨hbalanced, fun l s₁ hl => ⟨fun hcareful => ?_, fun h₁ => ?_⟩, fun hhands hobjects => ?_⟩
  · exact balanced_step hbalanced hinv hcareful hl
  · exact careful_of_balanced hbalanced hinv hl h₁
  · exact hbalanced.all_closed hinv hhands hobjects

/-- A socket is created, moved, released and wrapped again; another one is
    accepted, wrapped and moved over it. -/
def passedOn : List SocketStep :=
  [.construct INVALID_SOCK, .create 0 (.opened 3), .moveConstruct 0, .release 1, .construct 3,
    .accept 4, .construct 4, .moveAssign 2 3, .destroy 0, .destroy 1, .destroy 2, .destroy 3]

theorem owned_once_passedOn : ∃ s, run step initial passedOn = some s ∧ s.Balanced ∧
    s.table.entries = [] ∧ s.table.closed.Perm (List.range s.table.created) := by
  obtain ⟨s, hs⟩ : ∃ s, run step initial passedOn = some s := ⟨_, rfl⟩
  have hgood : AllSteps step Careful initial passedOn := by decide
  obtain ⟨hbalanced, -, hclosed⟩ := owned_once hgood hs
  have hinv : s.Inv :=
    run_invariant (fun _ _ _ h hstep => inv_step h hstep) passedOn initial s inv_initial hs
  have hnext : s.next = 4 ∧ s.hands = [] ∧ ∀ i < 4, s.objects i = none := by
    cases hs
    decide
  obtain ⟨hnext, hhands, hobjects⟩ := hnext
  refine ⟨s, hs, hbalanced, hclosed hhands fun i n hi => ?_⟩
  rcases Nat.lt_or_ge i 4 with hlt | hge
  · rw [hobjects i hlt] at hi
    cases hi
  · rw [hinv.fresh i (hnext ▸ hge)] at hi
    cases hi

end Sockets

end XFast
