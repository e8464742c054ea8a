import XFast.Net.ConnectionRules

/-! # The length of a send

    `sendMsg` hands the backlog to `writeFd`, whose parameter `count` is an
    `int`; its loop computes in `ssize_t` until `totlen` equals `count`, and
    gives `::write` the difference as a `size_t`.  From 2^31 pending bytes on
    `count` is another number.

    * Negative: the first `::write` is given a length near 2^64.
    * Zero: the loop is left before the first `::write`.
    * Positive: the lengths are right, but the loop is left when `count` bytes
      are written, which are not all.  As long as the kernel takes fewer, this
      does not come up. -/

namespace XFast

open Program

namespace FileApi

/-! ## Section 1: The loop, test by test -/

/-- The values of `totlen` at the loop's test, as far as the outcomes go: how
    many bytes are written when the loop is left or the next `::write` made. -/
def tests (count : Int) : List WriteOutcome → (totlen : Int) → List Int
  | [], totlen => [totlen]
  | o :: outs, totlen =>
      if totlen = count then [totlen]
      else
        match o with
        | .wrote n => totlen :: tests count outs (totlen + n)
        | .fail .EINTR => totlen :: tests count outs totlen
        | _ => [totlen]

/-- The length that `::write` is given. -/
def writeLength (count totlen : Int) : Nat := toSize (count - totlen)

/-- The kernel can answer the calls of the loop so. -/
def Possible (count : Int) : List WriteOutcome → (totlen : Int) → Prop
  | [], _ => True
  | o :: outs, totlen => totlen ≠ count ∧
      match o with
      | .wrote n => 0 < n ∧ n ≤ writeLength count totlen ∧ Possible count outs (totlen + n)
      | .fail .EINTR => Possible count outs totlen
      | _ => outs = []

/-- With `p` bytes pending: every `::write` is given a length between 1 and
    what is not yet written, and the loop's test fails exactly when everything
    is written. -/
structure Undistorted (p : Nat) (outs : List WriteOutcome) : Prop where
  lengths : ∀ totlen ∈ tests (toInt32 p) outs 0, totlen ≠ toInt32 p →
    1 ≤ writeLength (toInt32 p) totlen ∧ (writeLength (toInt32 p) totlen : Int) ≤ p - totlen
  leaves : ∀ totlen ∈ tests (toInt32 p) outs 0, totlen = toInt32 p ↔ totlen = p

/-! ## Section 2: What the tests see -/

/-- The outcomes that a call of `writeFd` has are possible ones. -/
theorem possible_of_writeLoop {count : Int} : ∀ {outs : List WriteOutcome} {mem : List UInt8}
    {totlen : Int} {r : WriteResult}, writeLoop count outs mem totlen = some r →
      Possible count outs totlen := by
  intro outs
  induction outs with
  | nil => exact fun _ => trivial
  | cons o rest ih =>
    intro mem totlen r h
    unfold writeLoop at h
    by_cases hdone : totlen = count
    · rw [if_pos hdone, if_neg (List.cons_ne_nil o rest)] at h
      cases h
    · rw [if_neg hdone] at h
      refine ⟨hdone, ?_⟩
      cases o with
      | wrote n =>
        dsimp only at h
        split at h
        · rename_i hn
          obtain ⟨r', hr', -⟩ := Option.map_eq_some_iff.mp h
          exact ⟨hn.1, hn.2.1, ih hr'⟩
        · cases h
      | zero =>
        dsimp only at h
        split at h
        · assumption
        · cases h
      | fail e =>
        cases e with
        | EINTR =>
          obtain ⟨r', hr', -⟩ := Option.map_eq_some_iff.mp h
          exact ih hr'
        | EAGAIN | other =>
          dsimp only at h
          rw [if_neg (by decide)] at h
          split at h
          · assumption
          · cases h

theorem possible_of_writeFd {outs : List WriteOutcome} {mem : List UInt8} {count : Int}
    {r : WriteResult} (h : writeFd outs mem count = .ok r) : Possible count outs 0 := by
  unfold writeFd at h
  split at h
  · rename_i r' hr'
    exact possible_of_writeLoop hr'
  · cases h

/-- The loop begins with a test. -/
theorem start_mem_tests (count : Int) (outs : List WriteOutcome) (totlen : Int) :
    totlen ∈ tests count outs totlen := by
  cases outs with
  | nil => exact List.mem_singleton.mpr rfl
  | cons o rest =>
    unfold tests
    split
    · exact List.mem_singleton.mpr rfl
    · split
      · exact List.mem_cons_self
      · exact List.mem_cons_self
      · exact List.mem_singleton.mpr rfl

/-- With a `count` that is not too small, the tests go from `totlen` up to all
    that the kernel takes, which is no more than `count`. -/
theorem tests_spec {count : Int} (hcount : count < 2 ^ 63) : ∀ {outs : List WriteOutcome}
    {totlen : Int}, Possible count outs totlen → 0 ≤ totlen → totlen ≤ count →
      totlen + taken outs ≤ count ∧ totlen + taken outs ∈ tests count outs totlen ∧
        ∀ t ∈ tests count outs totlen, totlen ≤ t ∧ t ≤ totlen + taken outs := by
  intro outs
  induction outs with
  | nil =>
    intro totlen _ hpos hle
    simp only [taken, tests, List.mem_singleton]
    exact ⟨by omega, by omega, by omega⟩
  | cons o rest ih =>
    intro totlen h hpos hle
    obtain ⟨hgo, hanswer⟩ := h
    -- an answer that ends the loop: the one test is that of `totlen`
    have hlast : o = .zero ∨ (∃ e, o = .fail e ∧ e ≠ .EINTR) → rest = [] →
        totlen + taken (o :: rest) ≤ count ∧
          totlen + taken (o :: rest) ∈ tests count (o :: rest) totlen ∧
          ∀ t ∈ tests count (o :: rest) totlen, totlen ≤ t ∧ t ≤ totlen + taken (o :: rest) := by
      rintro hend rfl
      have htaken : taken [o] = 0 := by
        rcases hend with rfl | ⟨e, rfl, -⟩
        · rfl
        · rfl
      have htests : tests count [o] totlen = [totlen] := by
        unfold tests
        rw [if_neg hgo]
        rcases hend with rfl | ⟨e, rfl, he⟩
        · rfl
        · cases e with
          | EINTR => exact absurd rfl he
          | EAGAIN | other => rfl
      rw [htaken, htests]
      simp only [List.mem_singleton]
      exact ⟨by omega, by omega, by omega⟩
    cases o with
    | wrote n =>
      -- the kernel takes no more than the length, so the next test is at most `count`
      obtain ⟨hn, hlen, hrest⟩ := hanswer
      have hsize : writeLength count totlen = (count - totlen).toNat :=
        toSize_of_nonneg (by omega) (by
          have hmod : (sizeModulus : Int) = 2 ^ 64 := by decide
          omega)
      rw [hsize] at hlen
      obtain ⟨hbound, hmem, hall⟩ := ih hrest (by omega) (by omega)
      have htests : tests count (.wrote n :: rest) totlen =
          totlen :: tests count rest (totlen + n) := by
        conv_lhs => unfold tests
        rw [if_neg hgo]
      have htaken : totlen + (taken (.wrote n :: rest) : Int) = totlen + n + taken rest := by
        simp only [taken]
        omega
      rw [htests, htaken]
      refine ⟨hbound, List.mem_cons_of_mem _ hmem, ?_⟩
      rw [List.forall_mem_cons]
      refine ⟨⟨Int.le_refl _, by omega⟩, fun t ht => ?_⟩
      have hbetween := hall t ht
      exact ⟨by omega, hbetween.2⟩
    | zero => exact hlast (.inl rfl) hanswer
    | fail e =>
      cases e with
      | EINTR =>
        -- `EINTR` repeats the test
        obtain ⟨hbound, hmem, hall⟩ := ih hanswer hpos hle
        have htests : tests count (.fail .EINTR :: rest) totlen =
            totlen :: tests count rest totlen := by
          conv_lhs => unfold tests
          rw [if_neg hgo]
        rw [htests]
        refine ⟨hbound, List.mem_cons_of_mem _ hmem, ?_⟩
        rw [List.forall_mem_cons]
        exact ⟨⟨Int.le_refl _, by simp only [taken]; omega⟩, hall⟩
      | EAGAIN | other => exact hlast (.inr ⟨_, rfl, by decide⟩) hanswer

/-! ## Section 3: When the length is right -/

/-- A `count` that the kernel does not reach, or that is the number of pending
    bytes, gives the right lengths. -/
theorem undistorted_of_reach {p : Nat} {outs : List WriteOutcome}
    (h : Possible (toInt32 p) outs 0) (hnonneg : 0 ≤ toInt32 p)
    (hreach : toInt32 p = p ∨ (taken outs : Int) < toInt32 p) : Undistorted p outs := by
  have hlt := toInt32_lt p
  have hle : toInt32 p ≤ p := toInt32_le (by omega)
  obtain ⟨hbound, -, hall⟩ := tests_spec (by omega) h (Int.le_refl 0) hnonneg
  have hmod : (sizeModulus : Int) = 2 ^ 64 := by decide
  constructor
  · intro totlen hmem hgo
    have hbetween := hall totlen hmem
    have hsize : (writeLength (toInt32 p) totlen : Int) = toInt32 p - totlen := by
      unfold writeLength
      rw [toSize_of_nonneg (by omega) (by omega)]
      omega
    exact ⟨by omega, by omega⟩
  · intro totlen hmem
    have hbetween := hall totlen hmem
    rcases hreach with heq | hfewer
    · rw [heq]
    · constructor
      · omega
      · omega

theorem undistorted_iff {p : Nat} (hp : p < 2 ^ 63) {outs : List WriteOutcome}
    (h : Possible (toInt32 p) outs 0) :
    Undistorted p outs ↔ p < 2 ^ 31 ∨ (0 < toInt32 p ∧ (taken outs : Int) < toInt32 p) := by
  by_cases hsmall : p < 2 ^ 31
  · have heq : toInt32 p = p := toInt32_of_range (by omega) (by omega)
    have hund := undistorted_of_reach h (by omega) (.inl heq)
    exact ⟨fun _ => .inl hsmall, fun _ => hund⟩
  · have hlt := toInt32_lt p
    have hne : toInt32 p ≠ p := by omega
    rw [or_iff_right hsmall]
    constructor
    · intro hund
      rcases Int.lt_trichotomy (toInt32 p) 0 with hneg | hzero | hpos
      · -- the first `::write`
        have hlength := (hund.lengths 0 (start_mem_tests _ _ _) (by omega)).2
        have hbig : 2 ^ 63 ≤ writeLength (toInt32 p) 0 := by
          unfold writeLength
          rw [Int.sub_zero]
          exact le_toSize_of_neg (le_toInt32 p) hneg
        omega
      · -- the first test
        have hleaves := (hund.leaves 0 (start_mem_tests _ _ _)).mp hzero.symm
        omega
      · obtain ⟨hbound, hmem, -⟩ := tests_spec (by omega) h (Int.le_refl 0) (by omega)
        refine ⟨hpos, ?_⟩
        by_contra hreached
        -- the test after all that the kernel takes
        have hleaves := (hund.leaves _ hmem).mp (by omega)
        omega
    · rintro ⟨hpos, hfewer⟩
      exact undistorted_of_reach h (by omega) (.inr hfewer)

/-- For some answers of the kernel the length is wrong, from 2^31 bytes on. -/
theorem always_undistorted_iff {p : Nat} (hp : p < 2 ^ 63) :
    (∀ outs, Possible (toInt32 p) outs 0 → Undistorted p outs) ↔ p < 2 ^ 31 := by
  constructor
  · intro hall
    by_contra hlarge
    rcases Int.lt_or_le 0 (toInt32 p) with hpos | hneg
    · -- the kernel takes all that it is offered
      have hlt := toInt32_lt p
      have hmod : (sizeModulus : Int) = 2 ^ 64 := by decide
      have hpossible : Possible (toInt32 p) [.wrote (toInt32 p).toNat] 0 := by
        refine ⟨by omega, by omega, ?_, trivial⟩
        unfold writeLength
        rw [toSize_of_nonneg (by omega) (by omega)]
        omega
      rcases (undistorted_iff hp hpossible).mp (hall _ hpossible) with hsmall | ⟨-, hfewer⟩
      · exact hlarge hsmall
      · simp only [taken] at hfewer
        omega
    · have hnone : Possible (toInt32 p) [] 0 := trivial
      rcases (undistorted_iff hp hnone).mp (hall [] hnone) with hsmall | ⟨hpos, -⟩
      · exact hlarge hsmall
      · omega
  · intro hsmall outs h
    exact (undistorted_iff hp h).mpr (.inl hsmall)

end FileApi

namespace XConnection

open FileApi

variable {σ : Type}

/-- The outcomes of `writeFd` in `sendMsg` are possible for the number of
    pending bytes, as an `int`. -/
theorem writeFd_possible (c : ConnId) (w : World σ) :
    wp (XConnection.writeFd c) (fun _ w' => ∃ outs, w.writes = outs :: w'.writes ∧
        Possible (toInt32 (w.conns c).writeBuff_.readableBytes) outs 0)
      (fun e _ => e = .infeasible) w := by
  rw [wp_writeFd]
  cases hw : w.writes with
  | nil => rfl
  | cons outs rest =>
    dsimp only
    cases hr : FileApi.writeFd outs (w.conns c).writeBuff_.peek
        (toInt32 (w.conns c).writeBuff_.readableBytes) with
    | error e => exact eq_of_writeFd_error hr
    | ok r => exact ⟨outs, rfl, possible_of_writeFd hr⟩

/-- The length that `sendMsg` gives to `::write` is right, and the loop goes
    on until everything is written, for fewer than 2^31 pending bytes; and for
    more if their number is a positive `int`, until the kernel has taken as
    many as that `int` says. -/
theorem send_length_iff (b : XBuffer) (hvector : b.readableBytes < 2 ^ 63) :
    (∀ outs, Possible (toInt32 b.readableBytes) outs 0 →
      (FileApi.Undistorted b.readableBytes outs ↔ b.readableBytes < 2 ^ 31 ∨
        (0 < toInt32 b.readableBytes ∧ (taken outs : Int) < toInt32 b.readableBytes))) ∧
    ((∀ outs, Possible (toInt32 b.readableBytes) outs 0 →
      FileApi.Undistorted b.readableBytes outs) ↔ b.readableBytes < 2 ^ 31) :=
  ⟨fun _ h => undistorted_iff hvector h, always_undistorted_iff hvector⟩

/-- A backlog of so many bytes. -/
def backlog (p : Nat) : XBuffer := ⟨List.replicate (4 + p) 0, 4, 4 + p⟩

theorem readableBytes_backlog {p : Nat} (h : 4 + p < sizeModulus) :
    (backlog p).readableBytes = p :=
  (sizeSub_of_le (Nat.le_add_right 4 p) h).trans (Nat.add_sub_cancel_left 4 p)

theorem send_length_iff_five :
    (∀ outs, Possible (toInt32 (5 : Nat)) outs 0 → (FileApi.Undistorted 5 outs ↔
      5 < 2 ^ 31 ∨ (0 < toInt32 (5 : Nat) ∧ (taken outs : Int) < toInt32 (5 : Nat)))) ∧
    ((∀ outs, Possible (toInt32 (5 : Nat)) outs 0 → FileApi.Undistorted 5 outs) ↔
      5 < 2 ^ 31) := by
  have hfive : (backlog 5).readableBytes = 5 := readableBytes_backlog (by decide)
  have h := send_length_iff (backlog 5) (by rw [hfive]; decide)
  rw [hfive] at h
  exact h

/-- With 2^31 bytes pending, the first `::write` is given 2^64 - 2^31; with
    2^32, there is none. -/
theorem send_length_wrapped :
    (backlog (2 ^ 31)).readableBytes = 2 ^ 31 ∧
    writeLength (toInt32 (2 ^ 31 : Nat)) 0 = 2 ^ 64 - 2 ^ 31 ∧
    ¬ FileApi.Undistorted (2 ^ 31) [] ∧
    (backlog (2 ^ 32)).readableBytes = 2 ^ 32 ∧
    toInt32 (2 ^ 32 : Nat) = 0 ∧ ¬ FileApi.Undistorted (2 ^ 32) [] := by
  have hlength : writeLength (toInt32 (2 ^ 31 : Nat)) 0 = 2 ^ 64 - 2 ^ 31 := by decide
  have hcount : toInt32 (2 ^ 32 : Nat) = 0 := by decide
  have hmod : sizeModulus = 2 ^ 64 := rfl
  refine ⟨readableBytes_backlog (by omega), hlength, fun hund => ?_,
    readableBytes_backlog (by omega), hcount, fun hund => ?_⟩
  · have hle := (hund.lengths 0 (start_mem_tests _ _ _) (by decide)).2
    rw [hlength] at hle
    omega
  · have hleaves := (hund.leaves 0 (start_mem_tests _ _ _)).mp hcount.symm
    omega

end XConnection

end XFast
