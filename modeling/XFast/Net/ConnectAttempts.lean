import XFast.Net.Connector

/-! # Every attempt to connect is accounted for

    Chains share the two fields of the connector, so what becomes of an attempt
    depends on the others; but whatever is decided, a chain is passed on from
    one place to the next, and a descriptor goes one of two ways.

    The invariant lists the attempts under way, each with its chain, its
    descriptor and the object behind it.  It has three parts, about different
    things:

    * `Watched`: the registrations are those of the attempts, each on a
      descriptor of its own that is open.
    * `Placed`: every chain is in one place, once.
    * `Owned`: every object that was obtained is with an attempt, was handed
      over, or was deregistered and closed, once.

    `Placed` is stated with the chains that the running function holds; between
    two steps it holds none. -/

namespace XFast

open Program Descriptors SockApi XConnStatus Steps

namespace XConnector

/-! ## Section 1: The invariant -/

/-- An attempt under way. -/
structure Attempt where
  chain : Nat
  fd : Fd
  object : Nat

structure Watched (attempts : List Attempt) (loop : XLoop Watcher) (table : Table Fd) :
    Prop where
  synced : loop.Synced
  sound : table.Sound
  numbers : ∀ fd, table.IsOpen fd → 0 ≤ fd
  fds : (attempts.map (·.fd)).Nodup
  watches : ∀ fd chain, loop.callbackOf fd = some (.onEventHandle chain) ↔
    ∃ a ∈ attempts, a.fd = fd ∧ a.chain = chain
  registered : ∀ fd, loop.callbackOf fd ≠ none → table.IsOpen fd
  objects : ∀ a ∈ attempts, (a.fd, a.object) ∈ table.entries

/-- The chains for which the callback was invoked, and the objects that were
    handed to it. -/
def called (w : XConnector) : List Nat := w.finishes.map (·.chain)

def handed (w : XConnector) : List Nat := w.finishes.filterMap (·.connSock)

/-- The chains that the running function holds, and those of each place. -/
def Placed (held posted attempts timers finished : List Nat) (chains : Nat) : Prop :=
  (held ++ posted ++ attempts ++ timers ++ finished).Perm (List.range chains)

structure Owned (attempts handed closed deregistered obtained : List Nat) (table : Table Fd) :
    Prop where
  fates : (attempts ++ handed ++ closed).Perm obtained
  nodup : obtained.Nodup
  old : ∀ o ∈ obtained, o < table.created
  deregistered_eq : deregistered = closed
  closed_once : ∀ o ∈ closed, o ∈ table.closed

/-- So many chains have been started, and everything is where it should be. -/
structure Tracked (chains : Nat) (held : List Nat) (attempts : List Attempt) (w : XConnector) :
    Prop where
  chains_eq : w.chains = chains
  watched : Watched attempts w.loop_ w.table
  placed : Placed held w.posted (attempts.map (·.chain)) w.timers w.called chains
  owned : Owned (attempts.map (·.object)) w.handed w.closed w.deregistered w.obtained w.table

/-- What holds between two steps. -/
def Accounted (chains : Nat) (w : XConnector) : Prop := ∃ attempts, Tracked chains [] attempts w

/-- Outcomes of a program in which no assertion fails. -/
abbrev spec {α : Type} (p : ConnectorM α) (Q : α → XConnector → Prop) (w : XConnector) : Prop :=
  wp p Q (fun e _ => e ≠ .assertFailed) w

/-! ## Section 2: Registrations and descriptors -/

section watched

variable {attempts attempts' rest : List Attempt} {a : Attempt} {loop loop' : XLoop Watcher}
  {table table' : Table Fd} {fd : Fd}

theorem Watched.perm (h : Watched attempts loop table) (hperm : attempts.Perm attempts') :
    Watched attempts' loop table where
  synced := h.synced
  sound := h.sound
  numbers := h.numbers
  fds := (hperm.map _).nodup_iff.mp h.fds
  watches := by
    intro fd chain
    rw [h.watches]
    simp only [hperm.mem_iff]
  registered := h.registered
  objects := fun a ha => h.objects a (hperm.mem_iff.mpr ha)

theorem Watched.not_registered (h : Watched attempts loop table) (hfree : ¬ table.IsOpen fd) :
    loop.callbackOf fd = none := by
  by_contra hne
  exact hfree (h.registered fd hne)

theorem Watched.isOpen (h : Watched (a :: rest) loop table) : table.IsOpen a.fd :=
  List.mem_map.mpr ⟨_, h.objects a List.mem_cons_self, rfl⟩

theorem Watched.callbackOf (h : Watched attempts loop table) (ha : a ∈ attempts) :
    loop.callbackOf a.fd = some (.onEventHandle a.chain) :=
  (h.watches a.fd a.chain).mpr ⟨a, ha, rfl, rfl⟩

theorem Watched.fd_ne (h : Watched (a :: rest) loop table) {b : Attempt} (hb : b ∈ rest) :
    b.fd ≠ a.fd := by
  intro heq
  have hmem : a.fd ∈ rest.map (·.fd) := List.mem_map.mpr ⟨b, hb, heq⟩
  exact (List.nodup_cons.mp h.fds).1 hmem

/-- An attempt ends: its registration is overwritten or removed. -/
theorem Watched.ends (h : Watched (a :: rest) loop table) (hsynced : loop'.Synced)
    (hother : ∀ fd, fd ≠ a.fd → loop'.callbackOf fd = loop.callbackOf fd)
    (hself : ∀ chain, loop'.callbackOf a.fd ≠ some (.onEventHandle chain)) :
    Watched rest loop' table where
  synced := hsynced
  sound := h.sound
  numbers := h.numbers
  fds := (List.nodup_cons.mp h.fds).2
  watches := by
    intro fd chain
    by_cases hfd : fd = a.fd
    · subst hfd
      constructor
      · intro hcallback
        exact absurd hcallback (hself chain)
      · rintro ⟨b, hb, heq, -⟩
        exact absurd heq (h.fd_ne hb)
    · rw [hother fd hfd, h.watches]
      constructor
      · rintro ⟨b, hb, rfl, rfl⟩
        rcases List.mem_cons.mp hb with rfl | hb
        · exact absurd rfl hfd
        · exact ⟨b, hb, rfl, rfl⟩
      · rintro ⟨b, hb, hrest⟩
        exact ⟨b, List.mem_cons_of_mem a hb, hrest⟩
  registered := by
    intro fd hne
    by_cases hfd : fd = a.fd
    · rw [hfd]
      exact h.isOpen
    · rw [hother fd hfd] at hne
      exact h.registered fd hne
  objects := fun b hb => h.objects b (List.mem_cons_of_mem a hb)

/-- An attempt begins: an open descriptor that was not registered is. -/
theorem Watched.begins (h : Watched attempts loop table)
    (hopen : (a.fd, a.object) ∈ table.entries) (hnone : loop.callbackOf a.fd = none)
    {data : Int} {mask : Mask} (hreg : loop.reg a.fd data mask (.onEventHandle a.chain) = .ok loop')
    (hsynced : loop'.Synced) : Watched (a :: attempts) loop' table where
  synced := hsynced
  sound := h.sound
  numbers := h.numbers
  fds := by
    rw [List.map_cons, List.nodup_cons]
    refine ⟨?_, h.fds⟩
    intro hmem
    obtain ⟨b, hb, heq⟩ := List.mem_map.mp hmem
    have hcallback := h.callbackOf hb
    rw [heq, hnone] at hcallback
    cases hcallback
  watches := by
    intro fd chain
    rw [XLoop.reg_callbackOf hreg, List.exists_mem_cons_iff]
    split
    · -- the descriptor was not registered, so no other attempt has it
      rename_i hfd
      subst hfd
      rw [Option.some.injEq, Watcher.onEventHandle.injEq]
      constructor
      · exact fun hchain => .inl ⟨rfl, hchain⟩
      · rintro (⟨-, hchain⟩ | hbefore)
        · exact hchain
        · rw [← h.watches, hnone] at hbefore
          cases hbefore
    · rename_i hfd
      rw [h.watches]
      constructor
      · exact .inr
      · rintro (⟨heq, -⟩ | hbefore)
        · exact absurd heq.symm hfd
        · exact hbefore
  registered := by
    intro fd hne
    rw [XLoop.reg_callbackOf hreg] at hne
    split at hne
    · rename_i hfd
      rw [hfd]
      exact List.mem_map.mpr ⟨_, hopen, rfl⟩
    · exact h.registered fd hne
  objects := List.forall_mem_cons.mpr ⟨hopen, h.objects⟩

/-- A descriptor that is not registered is closed. -/
theorem Watched.close (h : Watched attempts loop table) {o : Nat}
    (hopen : (fd, o) ∈ table.entries) (hnone : loop.callbackOf fd = none) :
    Watched attempts loop (table.close fd) := by
  have hkept : ∀ e ∈ table.entries, e.1 ≠ fd → e ∈ (table.close fd).entries := by
    intro e he hne
    rw [h.sound.close_eq hopen]
    exact List.mem_filter.mpr ⟨he, by simpa using hne⟩
  refine ⟨h.synced, h.sound.close hopen, ?_, h.fds, h.watches, ?_, ?_⟩
  · intro fd' hfd'
    obtain ⟨e, he, heq⟩ := List.mem_map.mp hfd'
    rw [h.sound.close_eq hopen] at he
    exact h.numbers fd' (List.mem_map.mpr ⟨e, (List.mem_filter.mp he).1, heq⟩)
  · intro fd' hne
    obtain ⟨e, he, rfl⟩ := List.mem_map.mp (h.registered fd' hne)
    refine List.mem_map.mpr ⟨e, hkept e he ?_, rfl⟩
    rintro rfl
    exact hne hnone
  · intro a ha
    refine hkept _ (h.objects a ha) ?_
    rintro rfl
    rw [h.callbackOf ha] at hnone
    cases hnone

/-- A new descriptor. -/
theorem Watched.acquire (h : Watched attempts loop table) (hfd : 0 ≤ fd)
    (hfree : ¬ table.IsOpen fd) : Watched attempts loop (table.acquire fd) := by
  have hkept : ∀ e ∈ table.entries, e ∈ (table.acquire fd).entries :=
    fun e he => List.mem_append_left _ he
  refine ⟨h.synced, h.sound.acquire hfree, ?_, h.fds, h.watches, ?_, ?_⟩
  · intro fd' hfd'
    obtain ⟨e, he, rfl⟩ := List.mem_map.mp hfd'
    rcases List.mem_append.mp he with he | he
    · exact h.numbers e.1 (List.mem_map_of_mem he)
    · rw [List.mem_singleton.mp he]
      exact hfd
  · intro fd' hne
    obtain ⟨e, he, heq⟩ := List.mem_map.mp (h.registered fd' hne)
    exact List.mem_map.mpr ⟨e, hkept e he, heq⟩
  · exact fun a ha => hkept _ (h.objects a ha)

/-- Descriptors that are opened and closed again. -/
theorem Watched.of_accounts (h : Watched attempts loop table)
    (haccounts : Table.Accounts table table' []) : Watched attempts loop table' := by
  have hentries : table'.entries = table.entries := by
    rw [haccounts.entries, List.append_nil]
  have hopen : ∀ fd, table'.IsOpen fd ↔ table.IsOpen fd := by
    intro fd
    unfold Table.IsOpen
    rw [hentries]
  refine ⟨h.synced, h.sound.of_accounts haccounts, ?_, h.fds, h.watches, ?_, ?_⟩
  · exact fun fd hfd => h.numbers fd ((hopen fd).mp hfd)
  · exact fun fd hne => (hopen fd).mpr (h.registered fd hne)
  · intro a ha
    rw [hentries]
    exact h.objects a ha

/-- Other code does something to the registration of its descriptor. -/
theorem Watched.apply (h : Watched attempts loop table) {op : RegistryOp Unit}
    (hopen : table.IsOpen op.fd)
    (hnot : ∀ chain, loop.callbackOf op.fd ≠ some (.onEventHandle chain))
    (happly : loop.apply (op.map fun _ => .other) = .ok loop') (hsynced : loop'.Synced) :
    Watched attempts loop' table where
  synced := hsynced
  sound := h.sound
  numbers := h.numbers
  fds := h.fds
  watches := by
    intro fd chain
    rw [← h.watches]
    by_cases hfd : fd = op.fd
    · rw [hfd]
      refine iff_of_false ?_ (hnot chain)
      intro hcallback
      rcases XLoop.callbackOf_of_apply happly hcallback with hop | hbefore
      · rw [RegistryOp.map_callback?, Option.map_eq_some_iff] at hop
        obtain ⟨-, -, hother⟩ := hop
        cases hother
      · exact hnot chain hbefore
    · rw [XLoop.apply_callbackOf_of_ne happly (by simpa using hfd)]
  registered := by
    intro fd hne
    by_cases hfd : fd = op.fd
    · rw [hfd]
      exact hopen
    · rw [XLoop.apply_callbackOf_of_ne happly (by simpa using hfd)] at hne
      exact h.registered fd hne
  objects := h.objects

end watched

/-! ## Section 3: Chains and objects -/

section placed

variable {held posted attempts timers finished : List Nat} {chains chain : Nat}

theorem placed_iff : Placed held posted attempts timers finished chains ↔
    ∀ c, held.count c + posted.count c + attempts.count c + timers.count c + finished.count c =
      if c < chains then 1 else 0 := by
  unfold Placed
  rw [List.perm_iff_count]
  simp only [List.count_append, List.nodup_range.count, List.mem_range]

/-- Everything is in as many places as before. -/
theorem Placed.move {held' posted' attempts' timers' finished' : List Nat}
    (h : Placed held posted attempts timers finished chains)
    (hcount : ∀ c, held'.count c + posted'.count c + attempts'.count c + timers'.count c +
      finished'.count c = held.count c + posted.count c + attempts.count c + timers.count c +
      finished.count c) : Placed held' posted' attempts' timers' finished' chains := by
  rw [placed_iff] at h ⊢
  intro c
  rw [hcount c]
  exact h c

theorem Placed.start (h : Placed [] posted attempts timers finished chains) :
    Placed [chains] posted attempts timers finished (chains + 1) := by
  unfold Placed at h ⊢
  rw [List.range_succ]
  exact (List.perm_append_singleton chains _).symm.trans (h.append_right [chains])

theorem Placed.post (h : Placed [chain] posted attempts timers finished chains) :
    Placed [] (posted ++ [chain]) attempts timers finished chains := by
  refine h.move fun c => ?_
  simp only [List.count_append, List.count_nil]
  omega

theorem Placed.run (h : Placed [] (chain :: posted) attempts timers finished chains) :
    Placed [chain] posted attempts timers finished chains := by
  refine h.move fun c => ?_
  simp only [List.count_cons, List.count_nil]
  omega

theorem Placed.begins (h : Placed [chain] posted attempts timers finished chains) :
    Placed [] posted (chain :: attempts) timers finished chains := by
  refine h.move fun c => ?_
  simp only [List.count_cons, List.count_nil]
  omega

theorem Placed.ends (h : Placed [] posted (chain :: attempts) timers finished chains) :
    Placed [chain] posted attempts timers finished chains := by
  refine h.move fun c => ?_
  simp only [List.count_cons, List.count_nil]
  omega

theorem Placed.wait (h : Placed [chain] posted attempts timers finished chains) :
    Placed [] posted attempts (timers ++ [chain]) finished chains := by
  refine h.move fun c => ?_
  simp only [List.count_append, List.count_nil]
  omega

theorem Placed.expire (h : Placed [] posted attempts timers finished chains)
    (hmem : chain ∈ timers) :
    Placed [chain] posted attempts (timers.erase chain) finished chains := by
  refine h.move fun c => ?_
  have hcount := (List.perm_cons_erase hmem).count_eq c
  rw [List.count_cons] at hcount
  simp only [List.count_cons, List.count_nil]
  omega

theorem Placed.finish (h : Placed [chain] posted attempts timers finished chains) :
    Placed [] posted attempts timers (finished ++ [chain]) chains := by
  refine h.move fun c => ?_
  simp only [List.count_append, List.count_nil]
  omega

end placed

section owned

variable {attempts handed closed deregistered obtained : List Nat} {table table' : Table Fd}
  {fd : Fd} {o : Nat}

/-- What others open and close does not matter. -/
theorem Owned.mono (h : Owned attempts handed closed deregistered obtained table)
    (hcreated : table.created ≤ table'.created)
    (hclosed : ∀ o ∈ table.closed, o ∈ table'.closed) :
    Owned attempts handed closed deregistered obtained table' where
  fates := h.fates
  nodup := h.nodup
  old := fun o ho => Nat.lt_of_lt_of_le (h.old o ho) hcreated
  deregistered_eq := h.deregistered_eq
  closed_once := fun o ho => hclosed o (h.closed_once o ho)

theorem Owned.acquire (h : Owned attempts handed closed deregistered obtained table) :
    Owned attempts handed closed deregistered obtained (table.acquire fd) :=
  h.mono (Nat.le_succ _) fun _ ho => ho

theorem Owned.of_accounts (h : Owned attempts handed closed deregistered obtained table)
    (haccounts : Table.Accounts table table' []) :
    Owned attempts handed closed deregistered obtained table' := by
  obtain ⟨closes, hclosed, -⟩ := haccounts.closed
  refine h.mono haccounts.created fun o ho => ?_
  rw [hclosed]
  exact List.mem_append_left _ ho

theorem Owned.close (h : Owned attempts handed closed deregistered obtained table)
    (hsound : table.Sound) (hopen : (fd, o) ∈ table.entries) :
    Owned attempts handed closed deregistered obtained (table.close fd) := by
  rw [hsound.close_eq hopen]
  exact h.mono (Nat.le_refl _) fun o ho => List.mem_append_left _ ho

/-- A new object for an attempt. -/
theorem Owned.obtain (h : Owned attempts handed closed deregistered obtained table) :
    Owned (table.created :: attempts) handed closed deregistered (obtained ++ [table.created])
      (table.acquire fd) where
  fates := by
    rw [List.cons_append, List.cons_append]
    exact (h.fates.cons table.created).trans (List.perm_append_singleton _ _).symm
  nodup := by
    have hnew : table.created ∉ obtained := fun hmem => Nat.lt_irrefl _ (h.old _ hmem)
    exact (List.perm_append_singleton _ _).nodup_iff.mpr (List.nodup_cons.mpr ⟨hnew, h.nodup⟩)
  old := by
    intro o ho
    show o < table.created + 1
    rcases List.mem_append.mp ho with ho | ho
    · exact Nat.lt_succ_of_lt (h.old o ho)
    · rw [List.mem_singleton.mp ho]
      exact Nat.lt_succ_self _
  deregistered_eq := h.deregistered_eq
  closed_once := h.closed_once

theorem Owned.hand (h : Owned (o :: attempts) handed closed deregistered obtained table) :
    Owned attempts (handed ++ [o]) closed deregistered obtained table where
  fates := by
    refine List.Perm.trans ?_ h.fates
    rw [List.perm_iff_count]
    intro c
    simp only [List.count_append, List.count_cons, List.count_nil]
    omega
  nodup := h.nodup
  old := h.old
  deregistered_eq := h.deregistered_eq
  closed_once := h.closed_once

theorem Owned.drop (h : Owned (o :: attempts) handed closed deregistered obtained table)
    (hsound : table.Sound) (hopen : (fd, o) ∈ table.entries) :
    Owned attempts handed (closed ++ [o]) (deregistered ++ [o]) obtained (table.close fd) where
  fates := by
    refine List.Perm.trans ?_ h.fates
    rw [List.perm_iff_count]
    intro c
    simp only [List.count_append, List.count_cons, List.count_nil]
    omega
  nodup := h.nodup
  old := by
    rw [hsound.close_eq hopen]
    exact h.old
  deregistered_eq := by
    rw [h.deregistered_eq]
  closed_once := by
    rw [hsound.close_eq hopen]
    intro o' ho'
    rcases List.mem_append.mp ho' with ho' | ho'
    · exact List.mem_append_left _ (h.closed_once o' ho')
    · exact List.mem_append_right _ ho'

end owned

/-! ## Section 4: What each function does -/

section functions

variable {n chain : Nat} {rest : List Attempt} {attempts : List Attempt} {a : Attempt}
  {w : XConnector}

/-- The attempt in question comes first. -/
theorem Tracked.front {held : List Nat} (h : Tracked n held attempts w) (ha : a ∈ attempts) :
    ∃ rest, Tracked n held (a :: rest) w := by
  obtain ⟨before, after, rfl⟩ := List.append_of_mem ha
  have hperm : (before ++ a :: after).Perm (a :: (before ++ after)) := List.perm_middle
  refine ⟨before ++ after, h.chains_eq, h.watched.perm hperm, ?_, ?_⟩
  · refine h.placed.move fun c => ?_
    rw [(hperm.map _).count_eq]
  · refine ⟨?_, h.owned.nodup, h.owned.old, h.owned.deregistered_eq, h.owned.closed_once⟩
    have hobjects := (hperm.map (·.object)).symm
    exact ((hobjects.append_right _).append_right _).trans h.owned.fates

theorem wp_onLoop {f : XLoop Watcher → Except Halt (XLoop Watcher)} {loop : XLoop Watcher}
    {Q : Unit → XConnector → Prop} {E : Halt → XConnector → Prop} (h : f w.loop_ = .ok loop) :
    wp (onLoop f) Q E w ↔ Q () { w with loop_ := loop } := by
  unfold onLoop
  simp only [wp_bind, wp_get, h, wp_lift_ok, wp_modify]

theorem connectNonblock_spec (family : Int) (kernel : ConnectAnswers) (w : SockWorld) :
    SockApi.spec kernel.answers.socket.toList (connectNonblock family kernel) (fun fd w' =>
      (fd = INVALID_SOCK ∧ Table.Accounts w.table w'.table []) ∨
      (0 ≤ fd ∧ ¬ w.table.IsOpen fd ∧ w'.table = w.table.acquire fd)) w := by
  unfold connectNonblock
  rw [SockApi.spec, wp_bind]
  refine wp_mono ?_ (fun _ _ he => he) (tcpConnectAddr_spec _ family _ _ w)
  rintro fd w' (⟨rfl, haccounts⟩ | ⟨hfd, hfree, htable⟩)
  · exact .inl ⟨rfl, haccounts⟩
  · have hvalid : ¬ fd = XFNET_ERR := ne_invalid_of_nonneg hfd
    rw [if_neg hvalid]
    exact .inr ⟨hfd, hfree, htable⟩

/-- The callback is told that there is no connection. -/
theorem connFinishedCb_failed_spec (h : Tracked n [chain] attempts w) (errcode : Int) :
    spec (connFinishedCb chain INVALID_SOCK errcode) (fun _ w' => Accounted n w') w := by
  unfold connFinishedCb connectedToServer newConnection
  have hnone : w.table.objectOf INVALID_SOCK = none := by
    rw [Table.objectOf, Option.map_eq_none_iff, List.find?_eq_none]
    intro e he heq
    have hopen : w.table.IsOpen e.1 := List.mem_map_of_mem he
    exact ne_invalid_of_nonneg (h.watched.numbers e.1 hopen) (of_decide_eq_true heq)
  simp only [wp_bind, wp_modify, wp_ite, wp_pure, wp_throw]
  by_cases herrcode : errcode ≠ 0
  · rw [if_pos herrcode, if_neg (fun hne => hne rfl), hnone]
    refine ⟨attempts, h.chains_eq, h.watched, ?_, ?_⟩
    · simpa [called] using h.placed.finish
    · simpa [handed] using h.owned
  · -- with the code 0 a connection is constructed, which throws
    rw [if_neg herrcode, if_pos trivial]
    decide

/-- The callback is given the socket of an attempt. -/
theorem connFinishedCb_socket_spec (h : Tracked n [] (a :: rest) w) :
    spec (connFinishedCb a.chain a.fd 0) (fun _ w' => Accounted n w') w := by
  have hvalid : ¬ a.fd = INVALID_SOCK :=
    ne_invalid_of_nonneg (h.watched.numbers a.fd h.watched.isOpen)
  have hopen := h.watched.objects a List.mem_cons_self
  obtain ⟨loop, hreg, hsynced⟩ := h.watched.synced.reg a.fd 0 XE_READABLE .other
  unfold connFinishedCb connectedToServer newConnection makeConnected
  rw [if_neg (fun hne => hne rfl), if_neg hvalid]
  simp only [wp_bind, wp_modify, wp_pure]
  rw [wp_onLoop hreg, if_neg (fun hne => hne rfl), wp_pure, h.watched.sound.objectOf_eq hopen]
  refine ⟨rest, h.chains_eq, ?_, ?_, ?_⟩
  · -- the connection overwrites the registration of the attempt
    refine h.watched.ends hsynced ?_ ?_
    · intro fd hfd
      rw [XLoop.reg_callbackOf hreg, if_neg hfd]
    · intro chain hcallback
      rw [XLoop.reg_callbackOf hreg, if_pos rfl] at hcallback
      cases hcallback
  · simpa [called] using h.placed.ends.finish
  · simpa [handed] using h.owned.hand

theorem beforeConnect_spec (family : Int) (h : Tracked n [chain] attempts w)
    (kernel : ConnectAnswers) :
    spec (beforeConnect family chain kernel) (fun _ w' => Accounted n w') w := by
  unfold beforeConnect onSock setStatus
  rw [spec, wp_bind, wp_zoom]
  refine wp_mono ?_ ?_ (connectNonblock_spec family kernel w.sock)
  rotate_left
  · rintro e sock ⟨rfl, -⟩
    decide
  rintro fd sock (⟨rfl, haccounts⟩ | ⟨hfd, hfree, htable⟩)
  · -- no socket: the chain is finished at once
    have hfailed : Tracked n [chain] attempts
        { w with sock := sock, status_ := XF_CONN_STATUS_UNKOWN } :=
      ⟨h.chains_eq, h.watched.of_accounts haccounts, h.placed, h.owned.of_accounts haccounts⟩
    rw [if_pos rfl, wp_bind, wp_modify]
    exact connFinishedCb_failed_spec hfailed kernel.errno
  · -- a new number, so that `reg` adds a registration and overwrites none
    have hvalid : ¬ fd = INVALID_SOCK := ne_invalid_of_nonneg hfd
    have hacquired := h.watched.acquire hfd hfree
    have hopen : (fd, w.table.created) ∈ (w.table.acquire fd).entries :=
      List.mem_append_right _ List.mem_cons_self
    have hnone := h.watched.not_registered hfree
    obtain ⟨loop, hreg, hsynced⟩ :=
      h.watched.synced.reg fd 0 XE_WRITABLE (.onEventHandle chain)
    rw [if_neg hvalid, wp_bind, wp_modify, wp_bind, wp_modify, wp_onLoop hreg]
    refine ⟨⟨chain, fd, w.table.created⟩ :: attempts, h.chains_eq, ?_, h.placed.begins, ?_⟩
    · show Watched _ loop sock.table
      rw [htable]
      exact hacquired.begins hopen hnone hreg hsynced
    · show Owned _ _ _ _ (w.obtained ++ (sock.table.objectOf fd).toList) sock.table
      rw [htable, hacquired.sound.objectOf_eq hopen]
      exact h.owned.obtain

theorem wp_remove {loop : XLoop Watcher} {Q : Unit → XConnector → Prop}
    {E : Halt → XConnector → Prop} (h : Watched (a :: rest) w.loop_ w.table)
    (hremove : w.loop_.remove a.fd = .ok loop)
    (hQ : Q () { w with loop_ := loop, deregistered := w.deregistered ++ [a.object] }) :
    wp (remove a.fd) Q E w := by
  unfold remove
  rw [wp_bind, wp_modify, wp_onLoop hremove, h.callbackOf List.mem_cons_self,
    h.sound.objectOf_eq (h.objects a List.mem_cons_self)]
  exact hQ

theorem wp_close {fd : Fd} {o : Nat} {Q : Unit → XConnector → Prop}
    {E : Halt → XConnector → Prop} (hsound : w.table.Sound) (hopen : (fd, o) ∈ w.table.entries)
    (hQ : Q () { w with
      closed := w.closed ++ [o]
      sock := { w.sock with table := w.table.close fd } }) : wp (close fd) Q E w := by
  unfold close onSock SockApi.close
  rw [wp_bind, wp_modify, wp_zoom, wp_modify, hsound.objectOf_eq hopen]
  exact hQ

theorem connectOnError_spec (h : Tracked n [] (a :: rest) w) :
    spec (connectOnError a.chain a.fd) (fun _ w' => Accounted n w') w := by
  have hopen := h.watched.objects a List.mem_cons_self
  obtain ⟨loop, hremove, hsynced⟩ := h.watched.synced.remove a.fd
  have hnone : loop.callbackOf a.fd = none := by rw [XLoop.remove_callbackOf hremove, if_pos rfl]
  have hremoved : Watched rest loop w.table := by
    refine h.watched.ends hsynced ?_ ?_
    · intro fd hfd
      rw [XLoop.remove_callbackOf hremove, if_neg hfd]
    · intro chain hcallback
      rw [hnone] at hcallback
      cases hcallback
  have hdropped : Tracked n [a.chain] rest
      { w with
        status_ := XF_CONN_STATUS_DISCONNECTED
        loop_ := loop
        deregistered := w.deregistered ++ [a.object]
        closed := w.closed ++ [a.object]
        sock := { w.sock with table := w.table.close a.fd } } :=
    ⟨h.chains_eq, hremoved.close hopen hnone, h.placed.ends,
      h.owned.drop h.watched.sound hopen⟩
  unfold connectOnError setStatus
  rw [spec, wp_bind, wp_modify, wp_bind]
  refine wp_remove h.watched hremove ?_
  rw [wp_bind]
  refine wp_close h.watched.sound hopen ?_
  rw [wp_bind, wp_get, wp_ite]
  -- the chain goes to a timer or is finished, whatever `reConnMs_` has become
  split
  · exact ⟨rest, hdropped.chains_eq, hdropped.watched, hdropped.placed.wait, hdropped.owned⟩
  · exact connFinishedCb_failed_spec hdropped (-7)

theorem connectOnSucc_spec (h : Tracked n [] (a :: rest) w) :
    spec (connectOnSucc a.chain a.fd) (fun _ w' => Accounted n w') w := by
  have hconnected : Tracked n [] (a :: rest) { w with status_ := XF_CONN_STATUS_CONNECTED } :=
    ⟨h.chains_eq, h.watched, h.placed, h.owned⟩
  unfold connectOnSucc setStatus
  rw [spec, wp_bind, wp_modify]
  exact connFinishedCb_socket_spec hconnected

/-- Whatever the event and the status, the attempt ends one way or the other,
    or goes on. -/
theorem onEventHandle_spec (h : Tracked n [] (a :: rest) w) (emask : Mask) (rc : Int) :
    spec (onEventHandle a.chain a.fd emask rc) (fun _ w' => Accounted n w') w := by
  unfold onEventHandle
  rw [spec, wp_bind, wp_get, wp_ite, wp_ite, wp_ite]
  split
  · exact connectOnError_spec h
  split
  · split
    · exact connectOnError_spec h
    · exact connectOnSucc_spec h
  · exact ⟨a :: rest, h⟩

theorem onReConnect_spec (family : Int) (h : Tracked n [chain] attempts w)
    (kernel : ConnectAnswers) :
    spec (onReConnect family chain kernel) (fun _ w' => Accounted n w') w := by
  have hlater : Tracked n [chain] attempts
      { w with reConnMs_ := toInt32 (w.reConnMs_ + XClient.ReConnntervalMs) } :=
    ⟨h.chains_eq, h.watched, h.placed, h.owned⟩
  unfold onReConnect
  rw [spec, wp_bind, wp_modify]
  exact beforeConnect_spec family hlater kernel

/-! ## Section 5: What each step does -/

/-- The new chain gets the next label. -/
theorem wp_startChain {Q : Nat → XConnector → Prop} {E : Halt → XConnector → Prop}
    (h : Tracked n [] attempts w)
    (hQ : ∀ w', Tracked (n + 1) [n] attempts w' → Q n w') : wp startChain Q E w := by
  unfold startChain
  rw [wp_bind, wp_get, wp_bind, wp_modify, wp_pure, h.chains_eq]
  exact hQ _ ⟨rfl, h.watched, h.placed.start, h.owned⟩

theorem doConnect_spec (family : Int) (h : Accounted n w) (kernel : ConnectAnswers) :
    spec (doConnect family kernel) (fun _ w' => Accounted (n + 1) w') w := by
  obtain ⟨attempts, h⟩ := h
  unfold doConnect
  rw [spec, wp_bind]
  exact wp_startChain h fun w' h' => beforeConnect_spec family h' kernel

theorem otherDoConnect_spec (h : Accounted n w) :
    spec otherDoConnect (fun _ w' => Accounted (n + 1) w') w := by
  obtain ⟨attempts, h⟩ := h
  unfold otherDoConnect
  rw [spec, wp_bind]
  refine wp_startChain h fun w' h' => ?_
  exact ⟨attempts, h'.chains_eq, h'.watched, h'.placed.post, h'.owned⟩

theorem resetReConnMs_spec (h : Accounted n w) :
    spec resetReConnMs (fun _ w' => Accounted n w') w := by
  obtain ⟨attempts, h⟩ := h
  exact ⟨attempts, h.chains_eq, h.watched, h.placed, h.owned⟩

theorem setStatus_spec (h : Accounted n w) (status : XConnStatus) :
    spec (setStatus status) (fun _ w' => Accounted n w') w := by
  obtain ⟨attempts, h⟩ := h
  exact ⟨attempts, h.chains_eq, h.watched, h.placed, h.owned⟩

theorem doReConnect_spec (family : Int) (h : Accounted n w) (kernel : ConnectAnswers) :
    spec (doReConnect family kernel) (fun _ w' => Accounted (n + 1) w') w := by
  unfold doReConnect
  rw [spec, wp_bind]
  refine wp_mono ?_ (fun _ _ he => he) (resetReConnMs_spec h)
  intro _ w₁ h₁
  rw [wp_bind]
  refine wp_mono ?_ (fun _ _ he => he) (setStatus_spec h₁ XF_CONN_STATUS_UNKOWN)
  intro _ w₂ h₂
  exact doConnect_spec family h₂ kernel

theorem handleEvent_spec (h : Accounted n w) (fd : Fd) (emask : Mask) (rc : Int) :
    spec (handleEvent fd emask rc) (fun _ w' => Accounted n w') w := by
  unfold handleEvent
  rw [spec, wp_bind, wp_get]
  split
  · -- the registration is that of an attempt, with its chain
    rename_i chain hcallback
    obtain ⟨attempts, h⟩ := h
    obtain ⟨a, ha, rfl, rfl⟩ := (h.watched.watches fd chain).mp hcallback
    obtain ⟨rest, hfront⟩ := h.front ha
    exact onEventHandle_spec hfront emask rc
  · exact h

theorem runPosted_spec (family : Int) (h : Accounted n w) (kernel : ConnectAnswers) :
    spec (runPosted family kernel) (fun _ w' => Accounted n w') w := by
  unfold runPosted
  rw [spec, wp_bind, wp_get]
  split
  · exact h
  · rename_i chain rest hposted
    obtain ⟨attempts, h⟩ := h
    have hplaced := h.placed
    rw [hposted] at hplaced
    have hheld : Tracked n [chain] attempts { w with posted := rest } :=
      ⟨h.chains_eq, h.watched, hplaced.run, h.owned⟩
    rw [wp_bind, wp_modify]
    exact beforeConnect_spec family hheld kernel

theorem timerExpires_spec (family : Int) (h : Accounted n w) (chain : Nat)
    (kernel : ConnectAnswers) :
    spec (timerExpires family chain kernel) (fun _ w' => Accounted n w') w := by
  unfold timerExpires
  rw [spec, wp_bind, wp_get, wp_ite]
  split
  · rename_i htimer
    obtain ⟨attempts, h⟩ := h
    have hheld : Tracked n [chain] attempts { w with timers := w.timers.erase chain } :=
      ⟨h.chains_eq, h.watched, h.placed.expire htimer, h.owned⟩
    rw [wp_bind, wp_modify]
    exact onReConnect_spec family hheld kernel
  · rw [wp_throw]
    decide

theorem otherOpens_spec (h : Accounted n w) (fd : Fd) :
    spec (otherOpens fd) (fun _ w' => Accounted n w') w := by
  unfold otherOpens onSock
  rw [spec, wp_bind, wp_get, wp_ite, wp_throw, wp_zoom, wp_modify]
  split
  · decide
  · rename_i hnot
    rw [not_or, Int.not_lt] at hnot
    obtain ⟨attempts, h⟩ := h
    exact ⟨attempts, h.chains_eq, h.watched.acquire hnot.1 hnot.2, h.placed, h.owned.acquire⟩

theorem otherRegistry_spec (h : Accounted n w) (op : RegistryOp Unit) :
    spec (otherRegistry op) (fun _ w' => Accounted n w') w := by
  unfold otherRegistry
  rw [spec, wp_bind, wp_get, wp_ite, wp_throw]
  split
  · rename_i hother
    obtain ⟨attempts, h⟩ := h
    obtain ⟨loop, happly, hsynced⟩ := h.watched.synced.apply (op.map fun _ => .other)
    rw [wp_onLoop happly]
    exact ⟨attempts, h.chains_eq, h.watched.apply hother.1 hother.2 happly hsynced, h.placed,
      h.owned⟩
  · decide

theorem otherCloses_spec (h : Accounted n w) (fd : Fd) :
    spec (otherCloses fd) (fun _ w' => Accounted n w') w := by
  unfold otherCloses onSock SockApi.close
  rw [spec, wp_bind, wp_get, wp_ite, wp_throw, wp_zoom, wp_modify]
  split
  · rename_i hclose
    obtain ⟨attempts, h⟩ := h
    obtain ⟨⟨fd', o⟩, hopen, rfl⟩ := List.mem_map.mp hclose.1
    exact ⟨attempts, h.chains_eq, h.watched.close hopen hclose.2, h.placed,
      h.owned.close h.watched.sound hopen⟩
  · decide

theorem input_spec (family : Int) (h : Accounted n w) (i : Input) :
    spec (input family i) (fun _ w' => Accounted (n + i.isCall.toNat) w') w := by
  cases i with
  | doConnect kernel => exact doConnect_spec family h kernel
  | doReConnect kernel => exact doReConnect_spec family h kernel
  | otherDoConnect => exact otherDoConnect_spec h
  | otherReConnMs => exact resetReConnMs_spec h
  | otherStatus => exact setStatus_spec h XF_CONN_STATUS_UNKOWN
  | runPosted kernel => exact runPosted_spec family h kernel
  | event fd emask rc => exact handleEvent_spec h fd emask rc
  | timer chain kernel => exact timerExpires_spec family h chain kernel
  | otherOpens fd => exact otherOpens_spec h fd
  | otherRegistry op => exact otherRegistry_spec h op
  | otherCloses fd => exact otherCloses_spec h fd

end functions

/-! ## Section 6: Every run -/

theorem Constructed.accounted {w : XConnector} (h : Constructed w) : Accounted 0 w := by
  obtain ⟨-, -, hchains⟩ := h.connector
  obtain ⟨hposted, htimers⟩ := h.nothing_pending
  obtain ⟨hfinishes, hobtained, hderegistered, hclosed⟩ := h.no_history
  obtain ⟨wakeupFd, ops, hloop⟩ := h.loop
  refine ⟨[], hchains, ?_, ?_, ?_⟩
  · refine ⟨XLoop.synced_of_created hloop, h.table, h.numbers, List.nodup_nil, ?_, ?_, nofun⟩
    · intro fd chain
      refine iff_of_false ?_ (by rintro ⟨a, ha, -⟩; cases ha)
      intro hcallback
      cases (h.registered fd _ hcallback).2
    · intro fd hne
      obtain ⟨callback, hcallback⟩ := Option.ne_none_iff_exists'.mp hne
      exact (h.registered fd callback hcallback).1
  · unfold called
    rw [hposted, htimers, hfinishes]
    exact List.Perm.refl []
  · unfold handed
    rw [hfinishes, hobtained, hderegistered, hclosed]
    exact ⟨List.Perm.refl [], List.nodup_nil, nofun, rfl, nofun⟩

theorem accounted_step {family : Int} {n : Nat} {w w' : XConnector} {i : Input}
    (h : Accounted n w) (hstep : step family w i = some w') :
    Accounted (n + i.isCall.toNat) w' := by
  have hspec := input_spec family h i
  unfold step at hstep
  cases hrun : (input family i).run w with
  | ok _ w₁ =>
    rw [hrun, Option.some.injEq] at hstep
    rw [← hstep]
    have hafter := wp_run_ok hspec hrun
    exact hafter
  | error e w₁ =>
    rw [hrun] at hstep
    cases hstep

/-- Each call starts one chain. -/
theorem accounted_run {family : Int} : ∀ (inputs : List Input) {n : Nat} {w w' : XConnector},
    Accounted n w → run (step family) w inputs = some w' →
      Accounted (n + inputs.countP Input.isCall) w' := by
  intro inputs
  induction inputs with
  | nil =>
    intro n w w' h hrun
    cases hrun
    exact h
  | cons i inputs ih =>
    intro n w w' h hrun
    obtain ⟨w₁, hstep, hrest⟩ := run_cons hrun
    have hafter := ih (accounted_step h hstep) hrest
    have hcount : (i :: inputs).countP Input.isCall =
        i.isCall.toNat + inputs.countP Input.isCall := by
      rw [List.countP_cons, Nat.add_comm]
      cases i.isCall <;> rfl
    rw [hcount, ← Nat.add_assoc]
    exact hafter

/-- In every run, no assertion of the loop fails. -/
theorem never_asserts {family : Int} {w₀ w w' : XConnector} {inputs : List Input}
    (hinit : Constructed w₀) (hrun : run (step family) w₀ inputs = some w) (i : Input) :
    (input family i).run w ≠ .error .assertFailed w' := by
  intro herror
  have hspec := input_spec family (accounted_run inputs hinit.accounted hrun) i
  unfold spec wp at hspec
  rw [herror] at hspec
  exact hspec rfl

/-! ## Section 7: What it amounts to -/

/-- The descriptor is registered for an attempt of the chain. -/
def Watches (w : XConnector) (fd : Fd) (chain : Nat) : Prop :=
  w.loop_.callbackOf fd = some (.onEventHandle chain)

inductive Stage where
  | posted
  | inFlight
  | waiting
  | finished
  deriving DecidableEq, Repr

/-- Where a chain is.  It is finished when it was started and nothing is left
    of it. -/
def At (w : XConnector) (chain : Nat) : Stage → Prop
  | .posted => chain ∈ w.posted
  | .inFlight => ∃ fd, w.Watches fd chain
  | .waiting => chain ∈ w.timers
  | .finished => chain < w.chains ∧ chain ∉ w.posted ∧ (∀ fd, ¬ w.Watches fd chain) ∧
      chain ∉ w.timers

/-- Every chain is at exactly one stage: it has one functor in the mailbox, or
    one open descriptor in the loop, or one timer, or it is finished.  The
    callback was invoked once for the finished ones and not for the others. -/
structure ChainsAccounted (w : XConnector) : Prop where
  started : ∀ chain stage, w.At chain stage → chain < w.chains
  stage : ∀ chain < w.chains, ∃! stage, w.At chain stage
  posted : ∀ chain, w.At chain .posted → w.posted.count chain = 1
  inFlight : ∀ chain, w.At chain .inFlight →
    ∃ fd, w.table.IsOpen fd ∧ ∀ fd', w.Watches fd' chain ↔ fd' = fd
  waiting : ∀ chain, w.At chain .waiting → w.timers.count chain = 1
  called : ∀ chain, w.At chain .finished → w.called.count chain = 1
  not_called : ∀ chain, ¬ w.At chain .finished → w.called.count chain = 0

/-- The object is that of an attempt under way. -/
def Pending (w : XConnector) (o : Nat) : Prop :=
  ∃ fd chain, w.Watches fd chain ∧ (fd, o) ∈ w.table.entries

/-- What became of an object that `connectNonblock` gave. -/
inductive Fate (w : XConnector) (o : Nat) : Prop where
  | pending (hpending : w.Pending o) (hhanded : w.handed.count o = 0)
      (hderegistered : w.deregistered.count o = 0) (hclosed : w.closed.count o = 0)
  | handed (hpending : ¬ w.Pending o) (hhanded : w.handed.count o = 1)
      (hderegistered : w.deregistered.count o = 0) (hclosed : w.closed.count o = 0)
  | closed (hpending : ¬ w.Pending o) (hhanded : w.handed.count o = 0)
      (hderegistered : w.deregistered.count o = 1) (hclosed : w.closed.count o = 1)
      (honce : w.table.closed.count o = 1)

/-- Every object that was obtained is with an attempt under way, or was handed
    to the callback once, or was deregistered once and closed once, by the
    connector and altogether.  No other object was handed over or closed. -/
structure DescriptorsAccounted (w : XConnector) : Prop where
  nodup : w.obtained.Nodup
  handed : ∀ o ∈ w.handed, o ∈ w.obtained
  deregistered : ∀ o ∈ w.deregistered, o ∈ w.obtained
  closed : ∀ o ∈ w.closed, o ∈ w.obtained
  fate : ∀ o ∈ w.obtained, w.Fate o

section accounted

variable {n : Nat} {attempts : List Attempt} {w : XConnector}

theorem Tracked.inFlight_iff (h : Tracked n [] attempts w) (chain : Nat) :
    w.At chain .inFlight ↔ chain ∈ attempts.map (·.chain) := by
  rw [List.mem_map]
  constructor
  · rintro ⟨fd, hwatches⟩
    obtain ⟨a, ha, -, hchain⟩ := (h.watched.watches fd chain).mp hwatches
    exact ⟨a, ha, hchain⟩
  · rintro ⟨a, ha, hchain⟩
    exact ⟨a.fd, (h.watched.watches a.fd chain).mpr ⟨a, ha, rfl, hchain⟩⟩

theorem Tracked.pending_iff (h : Tracked n [] attempts w) (o : Nat) :
    w.Pending o ↔ o ∈ attempts.map (·.object) := by
  rw [List.mem_map]
  constructor
  · rintro ⟨fd, chain, hwatches, hopen⟩
    obtain ⟨a, ha, rfl, -⟩ := (h.watched.watches fd chain).mp hwatches
    have hsame := List.inj_on_of_nodup_map h.watched.sound.numbers (h.watched.objects a ha) hopen rfl
    exact ⟨a, ha, congrArg Prod.snd hsame⟩
  · rintro ⟨a, ha, rfl⟩
    exact ⟨a.fd, a.chain, h.watched.callbackOf ha, h.watched.objects a ha⟩

/-- A chain that was started is in one of the four places. -/
theorem Tracked.count (h : Tracked n [] attempts w) (chain : Nat) :
    w.posted.count chain + (attempts.map (·.chain)).count chain + w.timers.count chain +
      w.called.count chain = if chain < w.chains then 1 else 0 := by
  have hcount := placed_iff.mp h.placed chain
  rw [List.count_nil, Nat.zero_add] at hcount
  rw [hcount, h.chains_eq]

/-- In how many ways a chain is at a stage. -/
def countAt (attempts : List Attempt) (w : XConnector) (chain : Nat) : Stage → Nat
  | .posted => w.posted.count chain
  | .inFlight => (attempts.map (·.chain)).count chain
  | .waiting => w.timers.count chain
  | .finished => w.called.count chain

theorem Tracked.at_iff (h : Tracked n [] attempts w) (chain : Nat) (stage : Stage) :
    w.At chain stage ↔ countAt attempts w chain stage = 1 := by
  have hcount := h.count chain
  have hinFlight := h.inFlight_iff chain
  rw [← List.count_pos_iff] at hinFlight
  cases stage with
  | posted =>
    show chain ∈ w.posted ↔ w.posted.count chain = 1
    rw [← List.count_pos_iff]
    split at hcount <;> omega
  | inFlight =>
    show w.At chain .inFlight ↔ (attempts.map (·.chain)).count chain = 1
    rw [hinFlight]
    split at hcount <;> omega
  | waiting =>
    show chain ∈ w.timers ↔ w.timers.count chain = 1
    rw [← List.count_pos_iff]
    split at hcount <;> omega
  | finished =>
    have hnone : (∀ fd, ¬ w.Watches fd chain) ↔ ¬ w.At chain .inFlight := not_exists.symm
    show (chain < w.chains ∧ chain ∉ w.posted ∧ (∀ fd, ¬ w.Watches fd chain) ∧
      chain ∉ w.timers) ↔ w.called.count chain = 1
    rw [hnone, hinFlight, ← List.count_pos_iff, ← List.count_pos_iff]
    split at hcount <;> omega

theorem Tracked.chainsAccounted (h : Tracked n [] attempts w) : w.ChainsAccounted where
  started := by
    intro chain stage hat
    have hcount := h.count chain
    rw [h.at_iff] at hat
    by_contra hnot
    rw [if_neg hnot] at hcount
    cases stage <;> simp only [countAt] at hat <;> omega
  stage := by
    intro chain hchain
    have hcount := h.count chain
    rw [if_pos hchain] at hcount
    have hone : ∃ stage, countAt attempts w chain stage = 1 := by
      have hcases : w.posted.count chain = 1 ∨ (attempts.map (·.chain)).count chain = 1 ∨
          w.timers.count chain = 1 ∨ w.called.count chain = 1 := by omega
      rcases hcases with hposted | hinFlight | hwaiting | hfinished
      · exact ⟨.posted, hposted⟩
      · exact ⟨.inFlight, hinFlight⟩
      · exact ⟨.waiting, hwaiting⟩
      · exact ⟨.finished, hfinished⟩
    obtain ⟨stage, hstage⟩ := hone
    refine ⟨stage, (h.at_iff chain stage).mpr hstage, ?_⟩
    intro other hother
    rw [h.at_iff] at hother
    -- two stages would make a sum of two
    cases stage <;> cases other <;> first
      | rfl
      | simp only [countAt] at hstage hother; omega
  posted := fun chain hat => (h.at_iff chain .posted).mp hat
  inFlight := by
    intro chain hat
    obtain ⟨a, ha, hchain⟩ := List.mem_map.mp ((h.inFlight_iff chain).mp hat)
    obtain ⟨rest, hfront⟩ := h.front ha
    refine ⟨a.fd, hfront.watched.isOpen, ?_⟩
    intro fd
    have hcount := hfront.count chain
    rw [List.map_cons, hchain, List.count_cons_self] at hcount
    have hnot : chain ∉ rest.map (·.chain) := by
      rw [← List.count_eq_zero]
      split at hcount <;> omega
    constructor
    · intro hwatches
      obtain ⟨b, hb, rfl, hbchain⟩ := (hfront.watched.watches fd chain).mp hwatches
      rcases List.mem_cons.mp hb with rfl | hb
      · rfl
      · exact absurd (List.mem_map.mpr ⟨b, hb, hbchain⟩) hnot
    · rintro rfl
      rw [← hchain]
      exact hfront.watched.callbackOf List.mem_cons_self
  waiting := fun chain hat => (h.at_iff chain .waiting).mp hat
  called := fun chain hat => (h.at_iff chain .finished).mp hat
  not_called := by
    intro chain hnot
    have hcount := h.count chain
    rw [h.at_iff] at hnot
    simp only [countAt] at hnot
    split at hcount <;> omega

/-- An object that was obtained went one of the three ways. -/
theorem Tracked.fate_count (h : Tracked n [] attempts w) (o : Nat) :
    (attempts.map (·.object)).count o + w.handed.count o + w.closed.count o =
      if o ∈ w.obtained then 1 else 0 := by
  have hcount := h.owned.fates.count_eq o
  rw [List.count_append, List.count_append, h.owned.nodup.count] at hcount
  exact hcount

theorem Tracked.descriptorsAccounted (h : Tracked n [] attempts w) :
    w.DescriptorsAccounted where
  nodup := h.owned.nodup
  handed := fun o ho =>
    h.owned.fates.mem_iff.mp (List.mem_append_left _ (List.mem_append_right _ ho))
  deregistered := by
    rw [h.owned.deregistered_eq]
    exact fun o ho => h.owned.fates.mem_iff.mp (List.mem_append_right _ ho)
  closed := fun o ho => h.owned.fates.mem_iff.mp (List.mem_append_right _ ho)
  fate := by
    intro o ho
    have hcount := h.fate_count o
    have hpending := h.pending_iff o
    rw [← List.count_pos_iff] at hpending
    rw [if_pos ho] at hcount
    have hderegistered : w.deregistered.count o = w.closed.count o := by
      rw [h.owned.deregistered_eq]
    have hcases : (attempts.map (·.object)).count o = 1 ∨ w.handed.count o = 1 ∨
        w.closed.count o = 1 := by omega
    rcases hcases with hattempt | hhanded | hclosed
    · exact .pending (hpending.mpr (by omega)) (by omega) (by omega) (by omega)
    -- an object that is gone is not with an attempt: it would count twice
    · exact .handed (fun hp => by have := hpending.mp hp; omega) hhanded (by omega) (by omega)
    · have honce : w.table.closed.count o = 1 := by
        have hmem : o ∈ w.table.closed := by
          refine h.owned.closed_once o ?_
          rw [← List.count_pos_iff]
          omega
        have hnodup : (w.table.entries.map Prod.snd ++ w.table.closed).Nodup :=
          h.watched.sound.objects.nodup_iff.mpr List.nodup_range
        rw [(List.nodup_append.mp hnodup).2.1.count, if_pos hmem]
      exact .closed (fun hp => by have := hpending.mp hp; omega) (by omega) (by omega) hclosed honce

end accounted

/-- **Every attempt to connect is accounted for.**  From the constructor on, in
    every run, each call has started one chain; every chain is at one stage,
    with what belongs to it, and the callback was invoked once for those that
    are finished and for no other; and every descriptor that was obtained is
    with an attempt under way, was handed over once, or was deregistered and
    closed once. -/
theorem connect_attempts_accounted {family : Int} {w₀ w : XConnector} {inputs : List Input}
    (hinit : Constructed w₀) (hrun : run (step family) w₀ inputs = some w) :
    w.chains = inputs.countP Input.isCall ∧ w.ChainsAccounted ∧ w.DescriptorsAccounted := by
  obtain ⟨attempts, h⟩ := accounted_run inputs hinit.accounted hrun
  refine ⟨?_, h.chainsAccounted, h.descriptorsAccounted⟩
  rw [h.chains_eq, Nat.zero_add]

/-- Two attempts overlap; the first fails, so that the second is given up when
    it has connected.  Its retry connects.  Another call fails at once. -/
def overlappingAttempts : List Input :=
  [.doConnect ⟨⟨some 5, true, true, true, .failed .EINPROGRESS⟩, true, 0⟩,
    .otherDoConnect,
    .runPosted ⟨⟨some 6, true, true, true, .failed .EINPROGRESS⟩, true, 0⟩,
    .event 5 XE_ERROR 0,
    .event 6 XE_WRITABLE 0,
    .timer 1 ⟨⟨some 5, true, true, true, .connected⟩, true, 0⟩,
    .event 5 XE_WRITABLE 0,
    .doReConnect ⟨⟨some 6, true, true, true, .failed .other⟩, true, 111⟩]

theorem connect_attempts_accounted_overlapping :
    ∃ w, run (step 2) newConnector overlappingAttempts = some w ∧
      w.chains = overlappingAttempts.countP Input.isCall ∧ w.ChainsAccounted ∧
        w.DescriptorsAccounted := by
  have hruns : (run (step 2) newConnector overlappingAttempts).isSome := by decide +kernel
  obtain ⟨w, hrun⟩ := Option.isSome_iff_exists.mp hruns
  exact ⟨w, hrun, connect_attempts_accounted constructed_newConnector hrun⟩

end XConnector

end XFast
