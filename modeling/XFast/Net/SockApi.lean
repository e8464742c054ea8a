import XFast.Framework.Descriptors
import XFast.Net.Accept

/-! # xSockApi: connecting to a host

    Model of the connecting part of `net/sockapi.cpp`.  A host name resolves
    to a list of addresses; `tcpConnect` tries them in order, with a socket
    of its own for each, until one of them connects.  The sockets that fail on
    the way are closed in three different places: in `createSocket`, in the
    loop, and behind the label `error`.

    What the kernel answers for an address is given with it.  A number for a
    new socket that is in use is not an answer of the kernel. -/

namespace XFast

open Program Descriptors

namespace SockApi

/-! ## Section 1: Addresses and answers -/

def XFNET_SUCC : Int := 0
def XFNET_ERR : Int := -1
def XFNET_CONNECT_NONBLOCK : Mask := 1
def SOCK_STREAM : Int := 1
def SOCK_DGRAM : Int := 2

/-- An entry of the list that `getaddrinfo` gives. -/
structure AddrInfo where
  ai_family : Int
  ai_socktype : Int
  ai_protocol : Int
  ai_addr : List UInt8
  deriving DecidableEq, Repr

/-- `getaddrinfo` is asked for `SOCK_STREAM` and gives no other entries. -/
abbrev Resolved : Type := { p : AddrInfo // p.ai_socktype = SOCK_STREAM }

inductive ConnectErrno where
  | EINPROGRESS
  | other
  deriving DecidableEq, Repr

inductive ConnectResult where
  | connected
  | failed (errno : ConnectErrno)
  deriving DecidableEq, Repr

/-- What the kernel answers to the calls for one socket: its number, if there
    is one; whether `setsockopt` and `fcntl`, to get and to set the flags,
    succeed; and how `connect` ends. -/
structure Answers where
  socket : Option Fd
  setsockopt : Bool
  getFlags : Bool
  setFlags : Bool
  connect : ConnectResult
  deriving DecidableEq, Repr

/-- The arguments of a call of `::socket`. -/
structure SocketCall where
  domain : Int
  sockType : Int
  protocol : Int
  deriving DecidableEq, Repr

/-- The descriptors of the process, the calls of `::socket` so far, and the
    two results that come back in arguments; of `err` the part that the code
    writes itself. -/
structure SockWorld where
  table : Table Fd
  sockets : List SocketCall
  err : String
  localAddr : Option AddrInfo
  deriving DecidableEq, Repr

abbrev SockM (α : Type) := Program Halt SockWorld α

/-! ## Section 2: One socket -/

def setErr (tips : String) : SockM Unit := modify fun w => { w with err := tips }

def close (fd : Fd) : SockM Unit := modify fun w => { w with table := w.table.close fd }

/-- `::socket`. -/
def socket (call : SocketCall) (answer : Option Fd) : SockM Fd := do
  modify fun w => { w with sockets := w.sockets ++ [call] }
  match answer with
  | none => return -1
  | some fd => do
      let w ← get
      if fd < 0 ∨ w.table.IsOpen fd then throw .infeasible
      else do
        modify fun w => { w with table := w.table.acquire fd }
        return fd

def setReuseAddr (succeeds : Bool) : SockM Int :=
  if succeeds then return XFNET_SUCC
  else do
    setErr "setsockopt SO_REUSEADDR."
    return XFNET_ERR

/-- `setBlock(err, fd, 1)`. -/
def nonBlock (getFlags setFlags : Bool) : SockM Int :=
  if getFlags = false then do
    setErr "fcntl(F_GETFL)."
    return XFNET_ERR
  else if setFlags = false then do
    setErr "fcntl(F_SETFL,O_NONBLOCK)."
    return XFNET_ERR
  else
    return XFNET_SUCC

def createSocket (call : SocketCall) (answers : Answers) : SockM Fd := do
  lift (cAssert (call.sockType = SOCK_DGRAM ∨ call.sockType = SOCK_STREAM))
  let s ← socket call answers.socket
  if s = -1 then do
    setErr "creating socket."
    return s
  else do
    let ret ← setReuseAddr answers.setsockopt
    if ret = XFNET_ERR then do
      close s
      return INVALID_SOCK
    else
      return s

/-- The first part of both `tcpConnect`s after `createSocket`. -/
def makeNonBlock (flags : Mask) (answers : Answers) : SockM Int :=
  if flags &&& XFNET_CONNECT_NONBLOCK ≠ 0 then nonBlock answers.getFlags answers.setFlags
  else return XFNET_SUCC

/-! ## Section 3: The list of addresses -/

/-- How the loop of `tcpConnect` is left, with the variable `s`. -/
inductive LoopExit where
  /-- `goto end`. -/
  | finish (s : Fd)
  /-- `goto error`. -/
  | error (s : Fd)
  /-- `p == NULL`. -/
  | exhausted (s : Fd)
  deriving DecidableEq, Repr

/-- The loop of `tcpConnect` from an entry on. -/
def tryEntries (flags : Mask) : List (Resolved × Answers) → (s : Fd) → SockM LoopExit
  | [], s => return .exhausted s
  | (⟨p, _⟩, answers) :: rest, _ => do
      let s ← createSocket ⟨p.ai_family, p.ai_socktype, p.ai_protocol⟩ answers
      if s = INVALID_SOCK then tryEntries flags rest s
      else do
        let ret ← makeNonBlock flags answers
        if ret ≠ XFNET_SUCC then return .error s
        else
          match answers.connect with
          | .connected => do
              modify fun w => { w with localAddr := some p }
              return .finish s
          | .failed errno =>
              if errno = .EINPROGRESS ∧ flags &&& XFNET_CONNECT_NONBLOCK ≠ 0 then return .finish s
              else do
                close s
                tryEntries flags rest XFNET_ERR

/-- The label `error` of `tcpConnect`, up to `end`. -/
def abandon (s : Fd) : SockM Fd :=
  if s ≠ INVALID_SOCK then do
    close s
    return XFNET_ERR
  else
    return s

/-- `tcpConnect(err, flags, addr, port, localAddr)`, where `getaddrinfo` gives
    the list, or fails. -/
def tcpConnect (flags : Mask) (servinfo : Option (List (Resolved × Answers))) : SockM Fd :=
  match servinfo with
  | none => do
      setErr "call getaddrinfo."
      return XFNET_ERR
  | some entries => do
      let left ← tryEntries flags entries XFNET_ERR
      match left with
      | .finish s => return s
      | .error s => abandon s
      | .exhausted s => do
          setErr "connect socket."
          abandon s

/-- `tcpConnect(err, flags, svrAddr, localAddr)`; `getsockname` says whether
    `getLocalAddr` succeeds. -/
def tcpConnectAddr (flags : Mask) (family : Int) (answers : Answers) (getsockname : Bool) :
    SockM Fd := do
  let s ← createSocket ⟨family, SOCK_STREAM, 0⟩ answers
  if s = INVALID_SOCK then return XFNET_ERR
  else do
    let ret ← makeNonBlock flags answers
    if ret ≠ XFNET_SUCC then do
      close s
      return XFNET_ERR
    else if answers.connect = .connected ∨
        (answers.connect = .failed .EINPROGRESS ∧ flags &&& XFNET_CONNECT_NONBLOCK ≠ 0) then
      if getsockname = false then do
        setErr "call getsockname."
        close s
        return XFNET_ERR
      else
        return s
    else do
      close s
      return XFNET_ERR

/-! ## Section 4: What the answers amount to -/

/-- A socket is created and its address made reusable. -/
def HasSocket (answers : Answers) : Prop := answers.socket ≠ none ∧ answers.setsockopt = true

/-- The socket is to be non-blocking and cannot be made so. -/
def StaysBlocking (flags : Mask) (answers : Answers) : Prop :=
  HasSocket answers ∧ flags &&& XFNET_CONNECT_NONBLOCK ≠ 0 ∧
    ¬ (answers.getFlags = true ∧ answers.setFlags = true)

/-- `connect` succeeds, or goes on in the background where it is allowed to. -/
def Connects (flags : Mask) (answers : Answers) : Prop :=
  HasSocket answers ∧ ¬ StaysBlocking flags answers ∧
    (answers.connect = .connected ∨
      (answers.connect = .failed .EINPROGRESS ∧ flags &&& XFNET_CONNECT_NONBLOCK ≠ 0))

instance (answers : Answers) : Decidable (HasSocket answers) :=
  inferInstanceAs (Decidable (_ ∧ _))

instance (flags : Mask) (answers : Answers) : Decidable (StaysBlocking flags answers) :=
  inferInstanceAs (Decidable (_ ∧ _ ∧ _))

instance (flags : Mask) (answers : Answers) : Decidable (Connects flags answers) :=
  inferInstanceAs (Decidable (_ ∧ _ ∧ _))

/-- The address leads to no connection, and the next one is tried. -/
def Skipped (flags : Mask) (answers : Answers) : Prop :=
  ¬ Connects flags answers ∧ ¬ StaysBlocking flags answers

instance (flags : Mask) (answers : Answers) : Decidable (Skipped flags answers) :=
  inferInstanceAs (Decidable (_ ∧ _))

/-! ## Section 5: One socket, specified -/

/-- The number of a descriptor is none of the values that stand for an error. -/
theorem ne_invalid_of_nonneg {fd : Fd} (h : 0 ≤ fd) : fd ≠ INVALID_SOCK := by
  rintro rfl
  exact absurd h (by decide)

/-- One of the numbers that the kernel answers with is not free: it is
    negative, or open in the table. -/
def AnswersTaken (answered : List Fd) (w : SockWorld) : Prop :=
  ∃ fd ∈ answered, fd < 0 ∨ w.table.IsOpen fd

instance (answered : List Fd) (w : SockWorld) : Decidable (AnswersTaken answered w) :=
  inferInstanceAs (Decidable (∃ fd ∈ answered, fd < 0 ∨ w.table.IsOpen fd))

/-- What holds of a program that is answered with these numbers.  Its only
    error is that one of them is not free, which the kernel does not do. -/
abbrev spec {α : Type} (answered : List Fd) (p : SockM α) (Q : α → SockWorld → Prop)
    (w : SockWorld) : Prop :=
  wp p Q (fun e _ => e = .infeasible ∧ AnswersTaken answered w) w

/-- More numbers, and a table with the same open numbers. -/
theorem AnswersTaken.mono {answered answered' : List Fd} {w w' : SockWorld}
    (h : AnswersTaken answered w) (hsub : answered ⊆ answered')
    (hopen : ∀ fd, w.table.IsOpen fd → w'.table.IsOpen fd) : AnswersTaken answered' w' := by
  obtain ⟨fd, hmem, hneg | htaken⟩ := h
  · exact ⟨fd, hsub hmem, .inl hneg⟩
  · exact ⟨fd, hsub hmem, .inr (hopen fd htaken)⟩

theorem not_answersTaken_nil {w : SockWorld} : ¬ AnswersTaken [] w := by
  rintro ⟨fd, hmem, -⟩
  exact absurd hmem List.not_mem_nil

theorem socket_spec (call : SocketCall) (answer : Option Fd) (w : SockWorld) :
    spec answer.toList (socket call answer) (fun s w' => w'.sockets = w.sockets ++ [call] ∧
      ((answer = none ∧ s = -1 ∧ w'.table = w.table) ∨
       (answer = some s ∧ 0 ≤ s ∧ ¬ w.table.IsOpen s ∧ w'.table = w.table.acquire s))) w := by
  unfold socket
  simp only [wp_bind, wp_modify]
  cases answer with
  | none => exact ⟨rfl, .inl ⟨rfl, rfl, rfl⟩⟩
  | some fd =>
    simp only [wp_bind, wp_get, wp_ite, wp_throw, wp_modify, wp_pure]
    by_cases hbad : fd < 0 ∨ w.table.IsOpen fd
    · rw [if_pos hbad]
      exact ⟨trivial, fd, List.mem_singleton_self fd, hbad⟩
    · rw [if_neg hbad]
      refine ⟨trivial, .inr ⟨trivial, ?_, fun hopen => hbad (.inr hopen), trivial⟩⟩
      exact Int.not_lt.mp fun hneg => hbad (.inl hneg)

theorem setReuseAddr_spec (succeeds : Bool) (w : SockWorld) :
    spec [] (setReuseAddr succeeds) (fun ret w' => w'.table = w.table ∧ w'.sockets = w.sockets ∧
      (ret = XFNET_ERR ↔ succeeds = false)) w := by
  unfold setReuseAddr setErr
  cases succeeds with
  | true => exact ⟨rfl, rfl, by decide⟩
  | false => exact ⟨rfl, rfl, by decide⟩

/-- What `createSocket` leaves: no socket, whether or not there was one in
    between, or a new one that is open. -/
inductive Created (call : SocketCall) (answers : Answers) (w w' : SockWorld) : Fd → Prop where
  | none (count : Nat) (hno : ¬ HasSocket answers) (hsockets : w'.sockets = w.sockets ++ [call])
      (htable : w'.table = w.table.spend count) : Created call answers w w' INVALID_SOCK
  | some {s : Fd} (hhas : HasSocket answers) (hsocket : answers.socket = some s) (hs : 0 ≤ s)
      (hfree : ¬ w.table.IsOpen s) (hsockets : w'.sockets = w.sockets ++ [call])
      (htable : w'.table = w.table.acquire s) : Created call answers w w' s

theorem createSocket_spec {call : SocketCall} (hstream : call.sockType = SOCK_STREAM)
    (answers : Answers) (w : SockWorld) :
    spec answers.socket.toList (createSocket call answers)
      (fun s w' => Created call answers w w' s) w := by
  unfold createSocket
  rw [cAssert_true (.inr hstream)]
  simp only [wp_bind, wp_lift_ok]
  refine wp_mono ?_ (fun _ _ he => he) (socket_spec call answers.socket w)
  rintro s w₁ ⟨hsockets, ⟨hanswer, rfl, htable⟩ | ⟨hanswer, hs, hfree, htable⟩⟩
  · -- `::socket` fails
    rw [if_pos rfl]
    refine Created.none 0 (fun h => h.1 hanswer) hsockets ?_
    rw [Table.spend_zero]
    exact htable
  · have hvalid : ¬ s = -1 := ne_invalid_of_nonneg hs
    rw [if_neg hvalid]
    simp only [wp_bind]
    refine wp_mono ?_ (fun _ _ he => absurd he.2 not_answersTaken_nil)
      (setReuseAddr_spec answers.setsockopt w₁)
    rintro ret w₂ ⟨htable₂, hsockets₂, hret⟩
    rw [hsockets] at hsockets₂
    rw [htable] at htable₂
    simp only [wp_ite, wp_bind, wp_pure]
    by_cases hopt : answers.setsockopt = false
    · -- the socket is closed again
      rw [if_pos (hret.mpr hopt)]
      refine Created.none 1 (fun h => ?_) hsockets₂ ?_
      · have htrue := h.2
        rw [hopt] at htrue
        cases htrue
      · show w₂.table.close s = w.table.spend 1
        rw [htable₂]
        exact Table.close_acquire hfree
    · rw [if_neg (fun h => hopt (hret.mp h))]
      have hhas : HasSocket answers := by
        refine ⟨?_, ?_⟩
        · rw [hanswer]
          simp
        · simpa using hopt
      exact Created.some hhas hanswer hs hfree hsockets₂ htable₂

theorem makeNonBlock_spec (flags : Mask) {answers : Answers} (hhas : HasSocket answers)
    (w : SockWorld) :
    spec [] (makeNonBlock flags answers) (fun ret w' => w'.table = w.table ∧
      w'.sockets = w.sockets ∧ (ret ≠ XFNET_SUCC ↔ StaysBlocking flags answers)) w := by
  unfold makeNonBlock
  by_cases hflag : flags &&& XFNET_CONNECT_NONBLOCK ≠ 0
  · rw [if_pos hflag]
    have hstays : StaysBlocking flags answers ↔
        ¬ (answers.getFlags = true ∧ answers.setFlags = true) :=
      ⟨fun h => h.2.2, fun h => ⟨hhas, hflag, h⟩⟩
    unfold nonBlock setErr
    cases hget : answers.getFlags <;> cases hset : answers.setFlags <;>
      exact ⟨rfl, rfl, by simp [hstays, hget, hset, XFNET_SUCC, XFNET_ERR]⟩
  · rw [if_neg hflag]
    exact ⟨rfl, rfl, fun h => (h rfl).elim, fun h => (hflag h.2.1).elim⟩

/-! ## Section 6: Every list of addresses -/

/-- The numbers that the kernel answers with for the entries. -/
def answered (entries : List (Resolved × Answers)) : List Fd := entries.filterMap (·.2.socket)

/-- The call of `::socket` for an entry. -/
def callFor (e : Resolved × Answers) : SocketCall :=
  ⟨e.1.1.ai_family, e.1.1.ai_socktype, e.1.1.ai_protocol⟩

/-- What the loop leaves: the entries tried, in order, and of their sockets
    the one in `s`, if there is one. -/
inductive Tried (flags : Mask) (entries : List (Resolved × Answers)) (w w' : SockWorld) :
    LoopExit → Prop where
  | finish {before after : List (Resolved × Answers)} {e : Resolved × Answers} {s : Fd}
      (count : Nat) (hentries : entries = before ++ e :: after)
      (hskipped : ∀ a ∈ before, Skipped flags a.2) (hconnects : Connects flags e.2)
      (hsocket : e.2.socket = some s) (htable : w'.table = (w.table.spend count).acquire s)
      (hsockets : w'.sockets = w.sockets ++ (before ++ [e]).map callFor) :
      Tried flags entries w w' (.finish s)
  | error {before after : List (Resolved × Answers)} {e : Resolved × Answers} {s : Fd}
      (count : Nat) (hentries : entries = before ++ e :: after)
      (hskipped : ∀ a ∈ before, Skipped flags a.2) (hstays : StaysBlocking flags e.2)
      (hs : 0 ≤ s) (hfree : ¬ w.table.IsOpen s)
      (htable : w'.table = (w.table.spend count).acquire s)
      (hsockets : w'.sockets = w.sockets ++ (before ++ [e]).map callFor) :
      Tried flags entries w w' (.error s)
  | exhausted (count : Nat) (hskipped : ∀ a ∈ entries, Skipped flags a.2)
      (htable : w'.table = w.table.spend count)
      (hsockets : w'.sockets = w.sockets ++ entries.map callFor) :
      Tried flags entries w w' (.exhausted INVALID_SOCK)

/-- An entry that leads nowhere adds to what is spent. -/
theorem Tried.cons {flags : Mask} {entries : List (Resolved × Answers)} {w w₁ w' : SockWorld}
    {left : LoopExit} {e : Resolved × Answers} (hskipped : Skipped flags e.2) {count : Nat}
    (htable : w₁.table = w.table.spend count) (hsockets : w₁.sockets = w.sockets ++ [callFor e])
    (h : Tried flags entries w₁ w' left) : Tried flags (e :: entries) w w' left := by
  cases h with
  | finish k hentries hbefore hconnects hsocket htable' hsockets' =>
    refine .finish (count + k) (congrArg (List.cons e) hentries)
      (List.forall_mem_cons.mpr ⟨hskipped, hbefore⟩) hconnects hsocket ?_ ?_
    · rw [htable', htable, Table.spend_spend]
    · rw [hsockets', hsockets]
      simp
  | error k hentries hbefore hstays hs hfree htable' hsockets' =>
    refine .error (count + k) (congrArg (List.cons e) hentries)
      (List.forall_mem_cons.mpr ⟨hskipped, hbefore⟩) hstays hs ?_ ?_ ?_
    · rwa [htable, Table.isOpen_spend] at hfree
    · rw [htable', htable, Table.spend_spend]
    · rw [hsockets', hsockets]
      simp
  | exhausted k hall htable' hsockets' =>
    refine .exhausted (count + k) (List.forall_mem_cons.mpr ⟨hskipped, hall⟩) ?_ ?_
    · rw [htable', htable, Table.spend_spend]
    · rw [hsockets', hsockets]
      simp

theorem tryEntries_spec (flags : Mask) :
    ∀ (entries : List (Resolved × Answers)) (w : SockWorld),
      spec (answered entries) (tryEntries flags entries INVALID_SOCK)
        (fun left w' => Tried flags entries w w' left) w
  | [], w => by
      refine Tried.exhausted 0 (fun a ha => absurd ha List.not_mem_nil) ?_ ?_
      · rw [Table.spend_zero]
      · simp
  | (⟨p, hp⟩, answers) :: rest, w => by
      unfold tryEntries
      simp only [wp_bind]
      have hfirst : answers.socket.toList ⊆ answered ((⟨p, hp⟩, answers) :: rest) := by
        intro fd hfd
        rw [answered, List.mem_filterMap]
        exact ⟨_, List.mem_cons_self, Option.mem_toList.mp hfd⟩
      have hrest : answered rest ⊆ answered ((⟨p, hp⟩, answers) :: rest) :=
        (List.sublist_cons_self _ rest).filterMap _ |>.subset
      refine wp_mono ?_ (fun _ _ he => ⟨he.1, he.2.mono hfirst fun _ h => h⟩)
        (createSocket_spec hp answers w)
      intro s w₁ hcreated
      have hskip : ∀ {w₂ : SockWorld} (count : Nat), Skipped flags answers →
          w₂.table = w.table.spend count →
          w₂.sockets = w.sockets ++ [callFor (⟨p, hp⟩, answers)] →
          wp (tryEntries flags rest INVALID_SOCK)
            (fun left w' => Tried flags ((⟨p, hp⟩, answers) :: rest) w w' left)
            (fun e _ => e = .infeasible ∧ AnswersTaken (answered ((⟨p, hp⟩, answers) :: rest)) w)
            w₂ := by
        intro w₂ count hskipped htable hsockets
        -- the sockets before are closed, so that the open numbers are those of `w`
        have hopen : ∀ fd, w₂.table.IsOpen fd → w.table.IsOpen fd := by
          intro fd hfd
          rwa [htable, Table.isOpen_spend] at hfd
        refine wp_mono ?_ (fun _ _ he => ⟨he.1, he.2.mono hrest hopen⟩)
          (tryEntries_spec flags rest w₂)
        intro left w' htried
        exact htried.cons hskipped htable hsockets
      cases hcreated with
      | none count hno hsockets htable =>
        rw [if_pos rfl]
        exact hskip count ⟨fun h => hno h.1, fun h => hno h.1⟩ htable hsockets
      | some hhas hsocket hs hfree hsockets htable =>
        have hvalid : ¬ s = INVALID_SOCK := ne_invalid_of_nonneg hs
        rw [if_neg hvalid]
        simp only [wp_bind]
        refine wp_mono ?_ (fun _ _ he => absurd he.2 not_answersTaken_nil)
          (makeNonBlock_spec flags hhas w₁)
        rintro ret w₂ ⟨htable₂, hsockets₂, hret⟩
        rw [hsockets] at hsockets₂
        rw [htable] at htable₂
        by_cases hstays : StaysBlocking flags answers
        · -- `goto error` leaves the loop with the socket
          rw [if_pos (hret.mpr hstays)]
          refine .error 0 (List.nil_append _).symm (fun a ha => absurd ha List.not_mem_nil) hstays
            hs hfree ?_ hsockets₂
          rw [Table.spend_zero]
          exact htable₂
        · rw [if_neg (fun h => hstays (hret.mp h))]
          have hfinish : ∀ w₃ : SockWorld, Connects flags answers → w₃.table = w₂.table →
              w₃.sockets = w₂.sockets →
              Tried flags ((⟨p, hp⟩, answers) :: rest) w w₃ (.finish s) := by
            intro w₃ hconnects htable₃ hsockets₃
            refine .finish 0 (List.nil_append _).symm (fun a ha => absurd ha List.not_mem_nil)
              hconnects hsocket ?_ ?_
            · rw [Table.spend_zero, htable₃]
              exact htable₂
            · rw [hsockets₃]
              exact hsockets₂
          cases hconnect : answers.connect with
          | connected =>
            exact hfinish _ ⟨hhas, hstays, .inl hconnect⟩ rfl rfl
          | failed errno =>
            simp only [wp_ite]
            by_cases hpending : errno = .EINPROGRESS ∧ flags &&& XFNET_CONNECT_NONBLOCK ≠ 0
            · rw [if_pos hpending]
              have hconnects : Connects flags answers := by
                refine ⟨hhas, hstays, .inr ⟨?_, hpending.2⟩⟩
                rw [hconnect, hpending.1]
              exact hfinish _ hconnects rfl rfl
            · -- the socket is closed before the next entry
              rw [if_neg hpending]
              have hskipped : Skipped flags answers := by
                refine ⟨?_, hstays⟩
                rintro ⟨-, -, hconn | ⟨hconn, hflag⟩⟩
                · rw [hconnect] at hconn
                  cases hconn
                · rw [hconnect] at hconn
                  exact hpending ⟨ConnectResult.failed.inj hconn, hflag⟩
              refine hskip 1 hskipped ?_ hsockets₂
              show w₂.table.close s = w.table.spend 1
              rw [htable₂]
              exact Table.close_acquire hfree

/-- The two ways to name the first entry that connects agree. -/
theorem first_unique {flags : Mask} {before before' after after' : List (Resolved × Answers)}
    {e e' : Resolved × Answers} (h : before ++ e :: after = before' ++ e' :: after')
    (hbefore : ∀ a ∈ before, Skipped flags a.2) (he : ¬ Skipped flags e.2)
    (hbefore' : ∀ a ∈ before', Skipped flags a.2) (he' : ¬ Skipped flags e'.2) :
    before = before' ∧ e = e' := by
  induction before generalizing before' with
  | nil =>
    cases before' with
    | nil => exact ⟨rfl, (List.cons.inj h).1⟩
    | cons a rest =>
      rw [(List.cons.inj h).1] at he
      exact absurd (hbefore' a List.mem_cons_self) he
  | cons a rest ih =>
    cases before' with
    | nil =>
      rw [← (List.cons.inj h).1] at he'
      exact absurd (hbefore a List.mem_cons_self) he'
    | cons b rest' =>
      obtain ⟨rfl, hrest⟩ := List.cons.inj h
      have hsame := ih hrest (fun c hc => hbefore c (List.mem_cons_of_mem a hc))
        (fun c hc => hbefore' c (List.mem_cons_of_mem a hc))
      exact ⟨congrArg (List.cons a) hsame.1, hsame.2⟩

/-- `e` is the first entry that connects, and no socket before it stays
    blocking. -/
structure FirstConnects (flags : Mask) (entries before : List (Resolved × Answers))
    (e : Resolved × Answers) : Prop where
  split : ∃ after, entries = before ++ e :: after
  skipped : ∀ a ∈ before, Skipped flags a.2
  connects : Connects flags e.2

theorem tcpConnect_spec (flags : Mask) (entries : List (Resolved × Answers)) (w : SockWorld) :
    spec (answered entries) (tcpConnect flags (some entries)) (fun ret w' =>
      (∃ before e o, FirstConnects flags entries before e ∧ e.2.socket = some ret ∧
        w'.sockets = w.sockets ++ (before ++ [e]).map callFor ∧
        Table.Accounts w.table w'.table [(ret, o)]) ∨
      ((∀ before e, ¬ FirstConnects flags entries before e) ∧ ret = XFNET_ERR ∧
        (∃ tried, tried <+: entries ∧ w'.sockets = w.sockets ++ tried.map callFor) ∧
        Table.Accounts w.table w'.table [])) w := by
  unfold tcpConnect
  simp only [wp_bind]
  refine wp_mono ?_ (fun _ _ he => he) (tryEntries_spec flags entries w)
  intro left w' htried
  cases htried with
  | @finish before after e s count hentries hskipped hconnects hsocket htable hsockets =>
    have hfirst : FirstConnects flags entries before e :=
      ⟨⟨after, hentries⟩, hskipped, hconnects⟩
    refine .inl ⟨before, e, w.table.created + count, hfirst, hsocket, hsockets, ?_⟩
    rw [htable]
    exact Table.accounts_acquire w.table count s
  | @error before after e s count hentries hskipped hstays hs hfree htable hsockets =>
    -- the label `error` closes the socket; no entry before it connects
    have hvalid : s ≠ INVALID_SOCK := ne_invalid_of_nonneg hs
    simp only [abandon]
    rw [if_pos hvalid]
    refine .inr ⟨?_, rfl, ⟨before ++ [e], ⟨after, ?_⟩, hsockets⟩, ?_⟩
    · rintro before' e' ⟨⟨after', hentries'⟩, hskipped', hconnects'⟩
      have hsame := first_unique (hentries.symm.trans hentries') hskipped (fun h => h.2 hstays)
        hskipped' (fun h => h.1 hconnects')
      rw [hsame.2] at hstays
      exact hconnects'.2.1 hstays
    · rw [List.append_assoc, List.singleton_append]
      exact hentries.symm
    · show Table.Accounts w.table (w'.table.close s) []
      rw [htable, Table.close_acquire ((Table.isOpen_spend _ _ _).not.mpr hfree),
        Table.spend_spend]
      exact Table.accounts_spend w.table (count + 1)
  | exhausted count hskipped htable hsockets =>
    simp only [abandon, wp_bind]
    refine .inr ⟨?_, rfl, ⟨entries, List.prefix_rfl, hsockets⟩, ?_⟩
    · rintro before' e' ⟨⟨after', hentries'⟩, -, hconnects'⟩
      refine (hskipped e' ?_).1 hconnects'
      rw [hentries']
      exact List.mem_append_right _ List.mem_cons_self
    · show Table.Accounts w.table w'.table []
      rw [htable]
      exact Table.accounts_spend w.table count

/-- `tcpConnect` gives the socket of the first entry that connects, and has
    tried the entries up to it; of the other sockets that it has created each
    has been closed exactly once.  If no entry connects, or a socket stays
    blocking before, it gives `XFNET_ERR` and leaves nothing open.  It returns
    whenever the numbers that the kernel answers with are free. -/
theorem tcpConnect_accounts (flags : Mask) (entries : List (Resolved × Answers)) (w : SockWorld) :
    spec (answered entries) (tcpConnect flags (some entries)) (fun ret w' =>
      (∀ before e, FirstConnects flags entries before e → e.2.socket = some ret ∧
        w'.sockets = w.sockets ++ (before ++ [e]).map callFor ∧
        ∃ o, Table.Accounts w.table w'.table [(ret, o)]) ∧
      ((∀ before e, ¬ FirstConnects flags entries before e) → ret = XFNET_ERR ∧
        (∃ tried, tried <+: entries ∧ w'.sockets = w.sockets ++ tried.map callFor) ∧
        Table.Accounts w.table w'.table [])) w := by
  refine wp_mono ?_ (fun _ _ he => he) (tcpConnect_spec flags entries w)
  rintro ret w' (⟨before, e, o, hfirst, hsocket, hsockets, haccounts⟩ | ⟨hnone, hrest⟩)
  · refine ⟨?_, fun hnone => absurd hfirst (hnone before e)⟩
    intro before' e' hfirst'
    obtain ⟨⟨after, hentries⟩, hskipped, hconnects⟩ := hfirst
    obtain ⟨⟨after', hentries'⟩, hskipped', hconnects'⟩ := hfirst'
    obtain ⟨rfl, rfl⟩ := first_unique (hentries.symm.trans hentries') hskipped
      (fun h => h.1 hconnects) hskipped' (fun h => h.1 hconnects')
    exact ⟨hsocket, hsockets, o, haccounts⟩
  · exact ⟨fun before e hfirst => absurd hfirst (hnone before e), fun _ => hrest⟩

/-- No socket for the first entry, none that is reusable for the second, the
    third refuses, the fourth connects in the background, the last is not
    tried. -/
def mixedEntries : List (Resolved × Answers) :=
  [(⟨⟨10, SOCK_STREAM, 6, []⟩, rfl⟩, ⟨none, true, true, true, .connected⟩),
   (⟨⟨2, SOCK_STREAM, 6, [127]⟩, rfl⟩, ⟨some 5, false, true, true, .connected⟩),
   (⟨⟨2, SOCK_STREAM, 6, [10]⟩, rfl⟩, ⟨some 5, true, true, true, .failed .other⟩),
   (⟨⟨2, SOCK_STREAM, 6, [11]⟩, rfl⟩, ⟨some 6, true, true, true, .failed .EINPROGRESS⟩),
   (⟨⟨2, SOCK_STREAM, 6, [12]⟩, rfl⟩, ⟨some 5, true, true, true, .connected⟩)]

/-- The descriptor 3 is open. -/
def threeOpen : SockWorld := ⟨⟨[(3, 0)], 1, [], []⟩, [], "", none⟩

/-- The fourth entry is the first that connects, its socket is returned, and
    the two sockets before it are closed. -/
theorem tcpConnect_accounts_mixed : ∃ w',
    (tcpConnect XFNET_CONNECT_NONBLOCK (some mixedEntries)).run threeOpen = .ok 6 w' ∧
    FirstConnects XFNET_CONNECT_NONBLOCK mixedEntries (mixedEntries.take 3)
      (mixedEntries.get ⟨3, by decide⟩) ∧
    w'.sockets = (mixedEntries.take 4).map callFor ∧
    w'.table = ⟨[(3, 0), (6, 3)], 4, [1, 2], []⟩ ∧
    ∃ o, Table.Accounts threeOpen.table w'.table [(6, o)] := by
  have hfirst : FirstConnects XFNET_CONNECT_NONBLOCK mixedEntries (mixedEntries.take 3)
      (mixedEntries.get ⟨3, by decide⟩) :=
    ⟨⟨mixedEntries.drop 4, rfl⟩, by decide, by decide⟩
  have hspec := tcpConnect_accounts XFNET_CONNECT_NONBLOCK mixedEntries threeOpen
  have hrun : (tcpConnect XFNET_CONNECT_NONBLOCK (some mixedEntries)).run threeOpen = .ok 6
      ⟨⟨[(3, 0), (6, 3)], 4, [1, 2], []⟩, (mixedEntries.take 4).map callFor,
        "setsockopt SO_REUSEADDR.", none⟩ := rfl
  obtain ⟨hconnects, -⟩ := wp_run_ok hspec hrun
  exact ⟨_, hrun, hfirst, rfl, rfl, (hconnects _ _ hfirst).2.2⟩

/-- One address, as `connectNonblock` uses it: a socket that is new and open,
    or none. -/
theorem tcpConnectAddr_spec (flags : Mask) (family : Int) (answers : Answers)
    (getsockname : Bool) (w : SockWorld) :
    spec answers.socket.toList (tcpConnectAddr flags family answers getsockname) (fun ret w' =>
      (ret = INVALID_SOCK ∧ Table.Accounts w.table w'.table []) ∨
      (0 ≤ ret ∧ ¬ w.table.IsOpen ret ∧ w'.table = w.table.acquire ret)) w := by
  unfold tcpConnectAddr
  simp only [wp_bind]
  refine wp_mono ?_ (fun _ _ he => he) (createSocket_spec rfl answers w)
  intro s w₁ hcreated
  cases hcreated with
  | none count hno hsockets htable =>
    rw [if_pos rfl]
    refine .inl ⟨rfl, ?_⟩
    rw [htable]
    exact Table.accounts_spend w.table count
  | some hhas hsocket hs hfree hsockets htable =>
    have hvalid : ¬ s = INVALID_SOCK := ne_invalid_of_nonneg hs
    rw [if_neg hvalid]
    simp only [wp_bind]
    refine wp_mono ?_ (fun _ _ he => absurd he.2 not_answersTaken_nil)
      (makeNonBlock_spec flags hhas w₁)
    rintro ret w₂ ⟨htable₂, -, -⟩
    rw [htable] at htable₂
    have hclosed : Table.Accounts w.table (w₂.table.close s) [] := by
      rw [htable₂, Table.close_acquire hfree]
      exact Table.accounts_spend w.table 1
    simp only [wp_ite, wp_bind, wp_pure, setErr, close, wp_modify]
    by_cases hblocking : ret ≠ XFNET_SUCC
    · rw [if_pos hblocking]
      exact .inl ⟨rfl, hclosed⟩
    · rw [if_neg hblocking]
      by_cases hconnect : answers.connect = .connected ∨
          (answers.connect = .failed .EINPROGRESS ∧ flags &&& XFNET_CONNECT_NONBLOCK ≠ 0)
      · rw [if_pos hconnect]
        cases getsockname with
        | false => exact .inl ⟨rfl, hclosed⟩
        | true => exact .inr ⟨hs, hfree, htable₂⟩
      · rw [if_neg hconnect]
        exact .inl ⟨rfl, hclosed⟩

end SockApi

end XFast
