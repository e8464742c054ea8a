import Mathlib.Data.List.Forall2
import Mathlib.Tactic.Common
import XFast.Base.Machine

/-! # xFileApi: writing to a non-blocking descriptor, and reading from it

    Model of `base/file_api.cpp`.  The outcomes of the `::write` calls that
    one call of `writeFd` makes are given as a list, in order; the model
    follows the loop through this list.  A list that the loop does not
    consume exactly, or in which the kernel takes more than it was offered,
    is not a behaviour of the kernel.  `readFd` is its counterpart. -/

namespace XFast

/-- The `errno` of a failed system call, as far as the code looks at it. -/
inductive Errno where
  | EAGAIN
  | EINTR
  | other
  deriving DecidableEq, Repr

/-- The outcome of one `::write`. -/
inductive WriteOutcome where
  /-- `n` bytes are taken. -/
  | wrote (n : Nat)
  /-- The call returns 0. -/
  | zero
  /-- The call returns -1. -/
  | fail (errno : Errno)
  deriving DecidableEq, Repr

/-- What `writeFd` returns, the value it leaves in `errno` (`none`: as it
    was), and the bytes that the kernel took meanwhile. -/
structure WriteResult where
  ret : Int
  errno : Option Errno
  accepted : List UInt8
  deriving DecidableEq, Repr

namespace FileApi

/-! ## Section 1: The loop -/

/-- The loop of `writeFd`: `mem` is the memory from `buffer` on, `count` and
    `totlen` are the variables of the source. -/
def writeLoop (count : Int) :
    List WriteOutcome → (mem : List UInt8) → (totlen : Int) → Option WriteResult
  | outs, mem, totlen =>
      if totlen = count then
        if outs = [] then some ⟨toInt32 totlen, none, []⟩ else none
      else
        match outs with
        | [] => none
        -- `totlen += nwritten; buffer += nwritten`, never more than was offered
        | .wrote n :: rest =>
            if 0 < n ∧ n ≤ toSize (count - totlen) ∧ n ≤ mem.length then
              (writeLoop count rest (mem.drop n) (totlen + n)).map
                fun r => { r with accepted := mem.take n ++ r.accepted }
            else none
        -- `if (nwritten == 0) return totlen`
        | .zero :: rest =>
            if rest = [] then some ⟨toInt32 totlen, none, []⟩ else none
        -- `EINTR` is retried; any other error gives up, whatever is written so far
        | .fail e :: rest =>
            if e = .EINTR then
              (writeLoop count rest mem totlen).map
                fun r => { r with errno := r.errno.or (some .EINTR) }
            else if rest = [] then some ⟨-1, some e, []⟩ else none

/-- `writeFd(fd, buf, count)`, where `buf` points at the start of `mem`. -/
def writeFd (outs : List WriteOutcome) (mem : List UInt8) (count : Int) :
    Except Halt WriteResult :=
  match writeLoop count outs mem 0 with
  | some r => .ok r
  | none => .error .infeasible

/-! ## Section 2: What a list of outcomes amounts to -/

/-- The number of bytes taken. -/
def taken : List WriteOutcome → Nat
  | [] => 0
  | .wrote n :: outs => n + taken outs
  | _ :: outs => taken outs

/-- The outcomes end in the given failure (`EINTR` is retried, not an end). -/
def FailsWith (e : Errno) (outs : List WriteOutcome) : Prop :=
  e ≠ .EINTR ∧ outs.getLast? = some (.fail e)

/-- The outcomes end in a failure. -/
def Fails (outs : List WriteOutcome) : Prop := ∃ e, FailsWith e outs

instance (e : Errno) (outs : List WriteOutcome) : Decidable (FailsWith e outs) :=
  inferInstanceAs (Decidable (_ ∧ _))

theorem fails_iff (outs : List WriteOutcome) :
    Fails outs ↔ FailsWith .EAGAIN outs ∨ FailsWith .other outs := by
  constructor
  · intro hcase
    obtain ⟨e, h⟩ := hcase
    cases e with
    | EAGAIN => exact Or.inl h
    | EINTR => exact absurd rfl h.1
    | other => exact Or.inr h
  · intro hcase
    rcases hcase with h | h
    · exact ⟨_, h⟩
    · exact ⟨_, h⟩

instance (outs : List WriteOutcome) : Decidable (Fails outs) :=
  decidable_of_iff' _ (fails_iff outs)

/-- An outcome after which the loop goes on does not decide how it ends. -/
theorem failsWith_cons {o : WriteOutcome} {outs : List WriteOutcome} {e : Errno}
    (ho : ∀ e, o = .fail e → e = .EINTR) :
    FailsWith e (o :: outs) ↔ FailsWith e outs := by
  cases outs with
  | nil =>
    constructor
    · intro hcase
      obtain ⟨hne, hlast⟩ := hcase
      exact absurd (ho e (by simpa using hlast)) hne
    · intro hcase
      obtain ⟨_, hlast⟩ := hcase
      simp at hlast
  | cons o' outs => simp [FailsWith, List.getLast?_cons_cons]

theorem fails_cons {o : WriteOutcome} {outs : List WriteOutcome}
    (ho : ∀ e, o = .fail e → e = .EINTR) : Fails (o :: outs) ↔ Fails outs :=
  exists_congr fun _ => failsWith_cons ho

theorem not_fails_nil : ¬ Fails [] := by
  intro hcase
  obtain ⟨e, _, hlast⟩ := hcase
  simp at hlast

/-! ## Section 3: What the loop returns -/

/-- How a run of the loop ends. -/
inductive LoopEnd (count totlen : Int) (outs : List WriteOutcome) (r : WriteResult) : Prop
  /-- Everything is written. -/
  | done (hfails : ¬ Fails outs) (hzero : .zero ∉ outs)
      (hcount : totlen + taken outs = count) (hret : r.ret = toInt32 count)
  /-- A `::write` returned 0. -/
  | zero (hfails : ¬ Fails outs) (hzero : .zero ∈ outs)
      (hret : r.ret = toInt32 (totlen + taken outs))
  /-- A `::write` failed. -/
  | failed (e : Errno) (hfails : FailsWith e outs) (hzero : .zero ∉ outs) (hret : r.ret = -1)
      (herrno : r.errno = some e)

/-- Induction over the outcomes, as the loop consumes them. -/
theorem writeLoop_spec {count : Int} : ∀ {outs : List WriteOutcome} {mem : List UInt8}
    {totlen : Int} {r : WriteResult}, writeLoop count outs mem totlen = some r →
      taken outs ≤ mem.length ∧ r.accepted = mem.take (taken outs) ∧
        LoopEnd count totlen outs r := by
  intro outs
  induction outs with
  | nil =>
    -- no call is made, so there was nothing left to write
    intro mem totlen r h
    by_cases hdone : totlen = count
    · simp only [writeLoop, hdone, if_true, Option.some.injEq] at h
      subst h
      exact ⟨by simp [taken], by simp [taken],
        .done not_fails_nil (by simp) (by simp [taken, hdone]) rfl⟩
    · simp [writeLoop, hdone] at h
  | cons o rest ih =>
    intro mem totlen r h
    unfold writeLoop at h
    by_cases hdone : totlen = count
    · -- the loop has ended, yet outcomes are left
      rw [if_pos hdone, if_neg (List.cons_ne_nil o rest)] at h
      simp at h
    · rw [if_neg hdone] at h
      cases o with
      | wrote n =>
        -- a partial write: the rest of the list decides how the loop ends
        have hcons : Fails (.wrote n :: rest) ↔ Fails rest := fails_cons (by simp)
        simp only at h
        by_cases hn : 0 < n ∧ n ≤ toSize (count - totlen) ∧ n ≤ mem.length
        · rw [if_pos hn] at h
          obtain ⟨r', hr', rfl⟩ := Option.map_eq_some_iff.mp h
          obtain ⟨hle, hacc, hend⟩ := ih hr'
          rw [List.length_drop] at hle
          refine ⟨by simp only [taken]; omega, ?_, ?_⟩
          · simp only [taken, hacc]
            exact (List.take_add ..).symm
          · cases hend with
            | done hf hz hc hret =>
              exact .done (hcons.not.mpr hf) (by simpa using hz)
                (by simp only [taken]; omega) hret
            | zero hf hz hret =>
              exact .zero (hcons.not.mpr hf) (by simpa using hz) (by
                rw [hret]; congr 1; simp only [taken]; omega)
            | failed e hf hz hret herr =>
              exact .failed e ((failsWith_cons (by simp)).mpr hf) (by simpa using hz) hret herr
        · rw [if_neg hn] at h
          simp at h
      | zero =>
        simp only at h
        by_cases hrest : rest = []
        · subst hrest
          simp only [if_true, Option.some.injEq] at h
          subst h
          refine ⟨by simp [taken], by simp [taken], .zero ?_ (by simp) (by simp [taken])⟩
          intro hcase
          obtain ⟨e, _, hlast⟩ := hcase
          simp at hlast
        · rw [if_neg hrest] at h
          simp at h
      | fail e =>
        simp only at h
        by_cases he : e = .EINTR
        · -- `EINTR` is retried: the rest of the list decides
          subst he
          have hcons : Fails (.fail .EINTR :: rest) ↔ Fails rest := fails_cons (by simp)
          rw [if_pos rfl] at h
          obtain ⟨r', hr', rfl⟩ := Option.map_eq_some_iff.mp h
          obtain ⟨hle, hacc, hend⟩ := ih hr'
          refine ⟨by simpa only [taken] using hle, by simpa only [taken] using hacc, ?_⟩
          cases hend with
          | done hf hz hc hret =>
            exact .done (hcons.not.mpr hf) (by simpa using hz) (by simpa only [taken] using hc) hret
          | zero hf hz hret =>
            exact .zero (hcons.not.mpr hf) (by simpa using hz) (by simpa only [taken] using hret)
          | failed e hf hz hret herr =>
            exact .failed e ((failsWith_cons (by simp)).mpr hf) (by simpa using hz) hret
              (by simp [herr])
        · rw [if_neg he] at h
          by_cases hrest : rest = []
          · subst hrest
            simp only [if_true, Option.some.injEq] at h
            subst h
            exact ⟨by simp [taken], by simp [taken], .failed e ⟨he, rfl⟩ (by simp) rfl rfl⟩
          · rw [if_neg hrest] at h
            simp at h

/-- A call of `writeFd` that returns is a run of the loop from 0. -/
theorem writeFd_spec {outs : List WriteOutcome} {mem : List UInt8} {count : Int}
    {r : WriteResult} (h : writeFd outs mem count = .ok r) :
    taken outs ≤ mem.length ∧ r.accepted = mem.take (taken outs) ∧ LoopEnd count 0 outs r := by
  unfold writeFd at h
  split at h
  · rename_i r' hr'
    cases h
    exact writeLoop_spec hr'
  · cases h

/-- Outcomes that no run of the loop has are the only other case. -/
theorem eq_of_writeFd_error {outs : List WriteOutcome} {mem : List UInt8} {count : Int}
    {e : Halt} (h : writeFd outs mem count = .error e) : e = .infeasible := by
  unfold writeFd at h
  split at h
  · cases h
  · cases h
    rfl

end FileApi

/-! ## Section 4: Reading -/

/-- The outcome of one `::read`. -/
inductive ReadOutcome where
  /-- These bytes are stored. -/
  | got (bytes : List UInt8)
  /-- The call returns 0. -/
  | eof
  /-- The call returns -1. -/
  | fail (errno : Errno)
  deriving DecidableEq, Repr

/-- What `readFd` returns, the value it leaves in `errno` (`none`: as it was),
    and the memory that `buf` points at. -/
structure ReadResult where
  ret : Int
  errno : Option Errno
  mem : List UInt8
  deriving DecidableEq, Repr

namespace FileApi

/-- The loop of `readFd`: `mem` is the memory from `buffer` on, `count` and
    `totlen` are the variables of the source. -/
def readLoop (count : Int) :
    List ReadOutcome → (mem : List UInt8) → (totlen : Int) → Option ReadResult
  | outs, mem, totlen =>
      if totlen = count then
        if outs = [] then some ⟨toInt32 totlen, none, mem⟩ else none
      else
        match outs with
        | [] => none
        -- `totlen += nread; buffer += nread`, never more than was asked for
        | .got bytes :: rest =>
            if bytes ≠ [] ∧ bytes.length ≤ toSize (count - totlen) ∧
                bytes.length ≤ mem.length then
              (readLoop count rest (mem.drop bytes.length) (totlen + bytes.length)).map
                fun r => { r with mem := bytes ++ r.mem }
            else none
        -- `if (nread == 0) return totlen`
        | .eof :: rest => if rest = [] then some ⟨toInt32 totlen, none, mem⟩ else none
        -- `EINTR` is retried; any other error gives up, whatever has been read so far
        | .fail e :: rest =>
            if e = .EINTR then
              (readLoop count rest mem totlen).map
                fun r => { r with errno := r.errno.or (some .EINTR) }
            else if rest = [] then some ⟨-1, some e, mem⟩ else none

/-- `readFd(fd, buf, count)`, where `buf` points at the start of `mem`. -/
def readFd (outs : List ReadOutcome) (mem : List UInt8) (count : Int) : Except Halt ReadResult :=
  match readLoop count outs mem 0 with
  | some r => .ok r
  | none => .error .infeasible

/-- The bytes that the outcomes bring. -/
def received : List ReadOutcome → List UInt8
  | [] => []
  | .got bytes :: outs => bytes ++ received outs
  | _ :: outs => received outs

/-- How a run of the loop ends, told by its last outcome. -/
inductive ReadEnd (count totlen : Int) (outs : List ReadOutcome) (r : ReadResult) : Prop
  /-- As much as was asked for has been read. -/
  | done (hlast : ∀ o, outs.getLast? = some o → ∃ bytes, o = .got bytes)
      (hcount : totlen + (received outs).length = count) (hret : r.ret = toInt32 count)
  /-- The last `::read` returned 0. -/
  | eof (hlast : outs.getLast? = some .eof)
      (hret : r.ret = toInt32 (totlen + (received outs).length))
  /-- The last `::read` failed. -/
  | failed (e : Errno) (hne : e ≠ .EINTR) (hlast : outs.getLast? = some (.fail e))
      (hret : r.ret = -1) (herrno : r.errno = some e)

/-- The last of the outcomes is told by the rest, if there is a rest. -/
theorem getLast?_cons_of_ne {o : ReadOutcome} {outs : List ReadOutcome} (h : outs ≠ []) :
    (o :: outs).getLast? = outs.getLast? := by
  cases outs with
  | nil => exact absurd rfl h
  | cons o' outs => exact List.getLast?_cons_cons

/-- An outcome after which the loop goes on: how the loop ends is told by the
    rest. -/
theorem ReadEnd.cons {count totlen : Int} {o : ReadOutcome} {outs : List ReadOutcome}
    {r r' : ReadResult} (h : ReadEnd count (totlen + (received [o]).length) outs r)
    (hgot : outs = [] → ∃ bytes, o = .got bytes)
    (hreceived : received (o :: outs) = received [o] ++ received outs)
    (hret : r'.ret = r.ret) (herrno : ∀ e, r.errno = some e → r'.errno = some e) :
    ReadEnd count totlen (o :: outs) r' := by
  have hlen : totlen + ((received (o :: outs)).length : Int) =
      totlen + (received [o]).length + (received outs).length := by
    rw [hreceived, List.length_append]
    omega
  cases h with
  | done hlast hcount hr =>
    refine .done ?_ (by rw [hlen, hcount]) (hret.trans hr)
    intro o' ho'
    by_cases hnil : outs = []
    · rw [hnil, List.getLast?_singleton, Option.some.injEq] at ho'
      rw [← ho']
      exact hgot hnil
    · rw [getLast?_cons_of_ne hnil] at ho'
      exact hlast o' ho'
  | eof hlast hr =>
    have hne : outs ≠ [] := by
      rintro rfl
      cases hlast
    exact .eof ((getLast?_cons_of_ne hne).trans hlast) (by rw [hlen, hret, hr])
  | failed e he hlast hr herr =>
    have hne : outs ≠ [] := by
      rintro rfl
      cases hlast
    exact .failed e he ((getLast?_cons_of_ne hne).trans hlast) (hret.trans hr) (herrno e herr)

/-- Induction over the outcomes, as the loop consumes them. -/
theorem readLoop_spec {count : Int} : ∀ {outs : List ReadOutcome} {mem : List UInt8}
    {totlen : Int} {r : ReadResult}, readLoop count outs mem totlen = some r →
      (received outs).length ≤ mem.length ∧
        r.mem = received outs ++ mem.drop (received outs).length ∧
        ReadEnd count totlen outs r := by
  intro outs
  induction outs with
  | nil =>
    -- no call is made, so there was nothing left to read
    intro mem totlen r h
    by_cases hdone : totlen = count
    · simp only [readLoop, hdone, if_true, Option.some.injEq] at h
      subst h
      exact ⟨Nat.zero_le _, rfl, .done (fun o ho => by cases ho) (by simp [received, hdone]) rfl⟩
    · simp [readLoop, hdone] at h
  | cons o rest ih =>
    intro mem totlen r h
    unfold readLoop at h
    by_cases hdone : totlen = count
    · -- the loop has ended, yet outcomes are left
      rw [if_pos hdone, if_neg (List.cons_ne_nil o rest)] at h
      cases h
    · rw [if_neg hdone] at h
      cases o with
      | got bytes =>
        simp only at h
        split at h
        · rename_i hn
          obtain ⟨r', hr', rfl⟩ := Option.map_eq_some_iff.mp h
          obtain ⟨hle, hmem, hend⟩ := ih hr'
          rw [List.length_drop] at hle
          have hone : received [.got bytes] = bytes := List.append_nil bytes
          refine ⟨?_, ?_, ?_⟩
          · simp only [received, List.length_append]
            omega
          · simp only [received, hmem, List.drop_drop, List.length_append, List.append_assoc]
          · exact ReadEnd.cons (r := r') (by rw [hone]; exact hend) (fun _ => ⟨bytes, rfl⟩)
              (by rw [hone]; rfl) rfl fun _ he => he
        · cases h
      | eof =>
        simp only at h
        split at h
        · rename_i hrest
          subst hrest
          cases h
          exact ⟨Nat.zero_le _, rfl, .eof rfl (by simp [received])⟩
        · cases h
      | fail e =>
        simp only at h
        split at h
        · -- `EINTR` is retried
          rename_i he
          subst he
          obtain ⟨r', hr', rfl⟩ := Option.map_eq_some_iff.mp h
          obtain ⟨hle, hmem, hend⟩ := ih hr'
          have hmore : rest ≠ [] := by
            rintro rfl
            simp [readLoop, hdone] at hr'
          refine ⟨hle, hmem, ?_⟩
          refine ReadEnd.cons (r := r') (by simpa [received] using hend) (fun h => absurd h hmore)
            rfl rfl ?_
          intro e he
          show r'.errno.or (some .EINTR) = some e
          rw [he]
          rfl
        · rename_i he
          split at h
          · rename_i hrest
            subst hrest
            cases h
            exact ⟨Nat.zero_le _, rfl, .failed e he rfl rfl rfl⟩
          · cases h

/-- No more is read than was asked for. -/
theorem readLoop_le {count : Int} (hhi : count < 2 ^ 31) : ∀ {outs : List ReadOutcome}
    {mem : List UInt8} {totlen : Int} {r : ReadResult}, readLoop count outs mem totlen = some r →
      0 ≤ totlen → totlen ≤ count → totlen + (received outs).length ≤ count := by
  intro outs
  induction outs with
  | nil =>
    intro mem totlen r _ _ hle
    simpa [received] using hle
  | cons o rest ih =>
    intro mem totlen r h hlo hle
    unfold readLoop at h
    split at h
    · cases h
    · cases o with
      | got bytes =>
        simp only at h
        split at h
        · rename_i hn
          obtain ⟨_, hoffered, _⟩ := hn
          rw [toSize_of_nonneg (by omega) (by unfold sizeModulus; omega)] at hoffered
          obtain ⟨r', hr', rfl⟩ := Option.map_eq_some_iff.mp h
          have hrest := ih hr' (by omega) (by omega)
          simp only [received, List.length_append]
          omega
        · cases h
      | eof =>
        simp only at h
        split at h
        · rename_i hrest
          subst hrest
          simpa [received] using hle
        · cases h
      | fail e =>
        simp only at h
        split at h
        · obtain ⟨r', hr', rfl⟩ := Option.map_eq_some_iff.mp h
          exact ih hr' hlo hle
        · split at h
          · rename_i hrest
            subst hrest
            simpa [received] using hle
          · cases h

/-- Whatever the outcomes of the `::read` calls, the bytes they brought are at
    the front of the buffer and nothing behind them has changed; the result is
    their number, unless the last call failed.  After a failure it is -1, and
    the number of bytes that had been taken is lost. -/
theorem readFd_spec {outs : List ReadOutcome} {mem : List UInt8} {count : Int} {r : ReadResult}
    (hlo : 0 ≤ count) (hhi : count < 2 ^ 31) (h : readFd outs mem count = .ok r) :
    (received outs).length ≤ mem.length ∧
    r.mem = received outs ++ mem.drop (received outs).length ∧
    ((∃ e, outs.getLast? = some (.fail e)) ∧ r.ret = -1 ∨
      (∀ e, outs.getLast? ≠ some (.fail e)) ∧ r.ret = (received outs).length ∧
        (outs.getLast? ≠ some .eof → r.ret = count)) := by
  have hloop : readLoop count outs mem 0 = some r := by
    unfold readFd at h
    split at h
    · rename_i hloop
      cases h
      exact hloop
    · cases h
  obtain ⟨hle, hmem, hend⟩ := readLoop_spec hloop
  refine ⟨hle, hmem, ?_⟩
  cases hend with
  | done hlast hcount hret =>
    rw [toInt32_of_range (by omega) hhi] at hret
    refine Or.inr ⟨?_, by omega, fun _ => hret⟩
    intro e he
    obtain ⟨bytes, hbytes⟩ := hlast _ he
    cases hbytes
  | eof hlast hret =>
    have hbound := readLoop_le hhi hloop (Int.le_refl 0) hlo
    rw [toInt32_of_range (by omega) (by omega)] at hret
    refine Or.inr ⟨?_, by omega, fun hnot => absurd hlast hnot⟩
    intro e he
    rw [hlast] at he
    cases he
  | failed e hne hlast hret herrno => exact Or.inl ⟨⟨e, hlast⟩, hret⟩

/-! ## Section 5: Records -/

/-- A call of `writeFd` that has written all of the record. -/
def WritesAll (w : List WriteOutcome × List UInt8) (r : WriteResult) : Prop :=
  writeFd w.1 w.2 w.2.length = .ok r ∧ r.ret = w.2.length

/-- A call of `readFd` that has filled its buffer. -/
def ReadsAll (x : List ReadOutcome × List UInt8) (r : ReadResult) : Prop :=
  readFd x.1 x.2 x.2.length = .ok r ∧ r.ret = x.2.length

theorem WritesAll.accepted {w : List WriteOutcome × List UInt8} {r : WriteResult}
    (h : WritesAll w r) (hlen : w.2.length < 2 ^ 31) : r.accepted = w.2 := by
  obtain ⟨hwrite, hret⟩ := h
  obtain ⟨hle, haccepted, hend⟩ := writeFd_spec hwrite
  have htaken : taken w.1 = w.2.length := by
    cases hend with
    | done _ _ hcount _ => omega
    | zero _ _ hzero =>
      rw [toInt32_of_range (by omega) (by omega)] at hzero
      omega
    | failed e _ _ hfailed _ => omega
  rw [haccepted, htaken, List.take_length]

theorem ReadsAll.mem_eq {x : List ReadOutcome × List UInt8} {r : ReadResult} (h : ReadsAll x r)
    (hlen : x.2.length < 2 ^ 31) :
    r.mem = received x.1 ∧ (received x.1).length = x.2.length := by
  obtain ⟨hread, hret⟩ := h
  obtain ⟨_, hmem, hcases⟩ := readFd_spec (by omega) (by omega) hread
  have hall : (received x.1).length = x.2.length := by
    rcases hcases with ⟨_, hfailed⟩ | ⟨_, hcount, _⟩ <;> omega
  refine ⟨?_, hall⟩
  rw [hmem, hall, List.drop_length, List.append_nil]

/-- **Records.**  Any number of records are written to a stream by `writeFd`,
    each in as many parts as the kernel likes, and read by `readFd`, each again
    in any parts, with interrupts in between.  A record is shorter than 2^31
    bytes, and each read asks for as many bytes as its record has.  If the
    calls say that they have written and read everything, what is read is the
    records, in order. -/
theorem records_round_trip {ws : List (List WriteOutcome × List UInt8)} {writes : List WriteResult}
    (hwrites : List.Forall₂ WritesAll ws writes) (hshort : ∀ w ∈ ws, w.2.length < 2 ^ 31) :
    ∀ {xs : List (List ReadOutcome × List UInt8)} {reads : List ReadResult},
      List.Forall₂ ReadsAll xs reads →
      (xs.map fun x => x.2.length) <+: (ws.map fun w => w.2.length) →
      (xs.flatMap fun x => received x.1) <+: (writes.flatMap fun r => r.accepted) →
      (reads.map fun r => r.mem) <+: (ws.map fun w => w.2) := by
  induction hwrites with
  | nil =>
    intro xs reads hreads hlengths _
    rw [List.map_nil, List.prefix_nil, List.map_eq_nil_iff] at hlengths
    subst hlengths
    cases hreads
    exact List.nil_prefix
  | @cons w r ws writes hw hws ih =>
    intro xs reads hreads hlengths hstream
    cases hreads with
    | nil => exact List.nil_prefix
    | @cons x r' xs reads hx hxs =>
      obtain ⟨hlen, hlengths⟩ := List.cons_prefix_cons.mp hlengths
      have hlen : x.2.length = w.2.length := hlen
      have hwlen := hshort w List.mem_cons_self
      obtain ⟨hmem, hreceived⟩ := hx.mem_eq (by omega)
      rw [List.flatMap_cons, List.flatMap_cons, hw.accepted hwlen] at hstream
      -- the first read takes as many bytes as the first record has
      obtain ⟨hfirst, hrest⟩ :=
        (List.prefix_append_inj_of_length_eq (hreceived.trans hlen)).mp hstream
      have hothers := ih (fun w' hw' => hshort w' (List.mem_cons_of_mem _ hw')) hxs hlengths hrest
      rw [List.map_cons, List.map_cons, hmem, hfirst]
      exact (List.prefix_cons_inj w.2).mpr hothers

/-- Two records of three and of two bytes: the first is written in two parts,
    and the reads cut it elsewhere. -/
theorem records_round_trip_two : ∃ ws writes xs reads,
    List.Forall₂ WritesAll ws writes ∧ List.Forall₂ ReadsAll xs reads ∧
    (reads.map fun r => r.mem) = [[1, 2, 3], [4, 5]] ∧
    (reads.map fun r => r.mem) <+: (ws.map fun w => w.2) := by
  have hwrites : List.Forall₂ WritesAll
      [([.wrote 2, .fail .EINTR, .wrote 1], [1, 2, 3]), ([.wrote 2], [4, 5])]
      [⟨3, some .EINTR, [1, 2, 3]⟩, ⟨2, none, [4, 5]⟩] :=
    .cons ⟨by decide, by decide⟩ (.cons ⟨by decide, by decide⟩ .nil)
  have hreads : List.Forall₂ ReadsAll
      [([.got [1], .got [2, 3]], [0, 0, 0]), ([.fail .EINTR, .got [4], .got [5]], [9, 9])]
      [⟨3, none, [1, 2, 3]⟩, ⟨2, some .EINTR, [4, 5]⟩] :=
    .cons ⟨by decide, by decide⟩ (.cons ⟨by decide, by decide⟩ .nil)
  exact ⟨_, _, _, _, hwrites, hreads, rfl,
    records_round_trip hwrites (by decide) hreads (by decide) (by decide)⟩

end FileApi

end XFast
