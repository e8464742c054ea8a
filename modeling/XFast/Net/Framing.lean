import XFast.Framework.Framing
import XFast.Net.ConnectionRules
import XFast.Net.ScatterRead

/-! # Framing of the received stream

    A conforming decoder defines a framer of the byte stream.  One read event
    appends what was read to `readBuff_` and cuts off the frames that are
    complete, so the connection frames the stream piece by piece; and
    piecewise framing is the framing of the whole.

    At the end of the stream the source leaves `readMsg` before the parse
    loop: what was read in the same call, and what was left before it, is
    never parsed. -/

namespace XFast

open Program Framing

variable {σ : Type}

/-! ## Section 1: Conforming decoders -/

/-- A decoder that reports the length of the first frame, or that there is
    none yet, and does not change its mind when more bytes arrive. -/
structure ConformingDecoder where
  decode : List UInt8 → Int
  result : ∀ x, decode x = XConnection.XF_MSG_DECODE_NOT_ENOUGH ∨
    (1 ≤ decode x ∧ decode x ≤ x.length)
  stable : ∀ x y, 1 ≤ decode x → decode (x ++ y) = decode x

/-- The framer that a decoder stands for. -/
def ConformingDecoder.framer (D : ConformingDecoder) : Framer UInt8 where
  frame x := if 1 ≤ D.decode x then some (D.decode x).toNat else none
  pos := by
    intro x n h
    split at h
    · cases h
      omega
    · cases h
  le_length := by
    intro x n h
    split at h
    · rename_i hpos
      cases h
      rcases D.result x with hres | ⟨_, hle⟩
      · rw [hres] at hpos
        exact absurd hpos (by decide)
      · omega
    · cases h
  stable := by
    intro x n y h
    split at h
    · rename_i hpos
      rw [D.stable x y hpos, if_pos hpos]
      exact h
    · cases h

theorem ConformingDecoder.frame_eq_none_iff (D : ConformingDecoder) {x : List UInt8} :
    D.framer.frame x = none ↔ D.decode x = XConnection.XF_MSG_DECODE_NOT_ENOUGH := by
  show (if 1 ≤ D.decode x then some (D.decode x).toNat else none) = none ↔ _
  constructor
  · intro h
    rcases D.result x with hres | ⟨hpos, _⟩
    · exact hres
    · rw [if_pos hpos] at h
      cases h
  · intro h
    rw [h]
    rfl

theorem ConformingDecoder.decode_of_frame (D : ConformingDecoder) {x : List UInt8} {n : Nat}
    (hf : D.framer.frame x = some n) : D.decode x = n := by
  have hframe : (if 1 ≤ D.decode x then some (D.decode x).toNat else none) = some n := hf
  split at hframe
  · cases hframe
    omega
  · cases hframe

/-- The frames passed to `msgCommitCb_`. -/
def committed (es : List ConnEvent) : List (List UInt8) :=
  es.filterMap fun e =>
    match e with
    | .msgCommit frame => some frame
    | _ => none

@[simp] theorem committed_snoc_msgCommit (es : List ConnEvent) (frame : List UInt8) :
    committed (es ++ [.msgCommit frame]) = committed es ++ [frame] := by
  simp [committed]

theorem committed_snoc_other (es : List ConnEvent) {e : ConnEvent}
    (he : ∀ frame, e ≠ .msgCommit frame) : committed (es ++ [e]) = committed es := by
  cases e with
  | msgCommit frame => exact absurd rfl (he frame)
  | _ => simp [committed]

namespace XConnection

/-! ## Section 2: The receiving side -/

/-- The receiving side of a connection is the same in both worlds. -/
structure SameReceiver (c : ConnId) (fd : Fd) (w w' : World σ) : Prop where
  readBuff : (w'.conns c).readBuff_ = (w.conns c).readBuff_
  decodeCb : (w'.conns c).decodeCb_ = (w.conns c).decodeCb_
  callback : w'.loop.callbackOf fd = w.loop.callbackOf fd
  reads : w'.reads = w.reads
  commits : committed (w'.trace c) = committed (w.trace c)

/-- A commit callback that neither throws nor closes.  What it does otherwise
    is described by an invariant of its own; `stuck` says whether the world
    may have no outcome for a call that it makes. -/
structure CommitContract (Inv : World σ → Prop) (stuck : Prop) (c : ConnId) (fd : Fd)
    (cbs : Callbacks σ) : Prop where
  ignoresInput : IgnoresInput Inv c
  emit : ∀ w e, isParseEvent e → Inv w → Inv (w.log c e)
  returns : ∀ b w, Inv w → wp (cbs.msgCommitCb_ c b)
    (fun _ w' => Inv w' ∧ SameReceiver c fd w w') (fun e _ => stuck ∧ e = .infeasible) w

/-- A connection that receives: it decodes, and it is registered. -/
structure Receiving (c : ConnId) (fd : Fd) (w : World σ) : Prop where
  valid : (w.conns c).readBuff_.Valid
  decodeCb : (w.conns c).decodeCb_ = true
  callback : w.loop.callbackOf fd = some (.connHandleEvent c)

/-- From `w` to `w'` the readable bytes `x` were framed: their frames are
    committed and their residue is kept. -/
structure Framed (D : ConformingDecoder) (c : ConnId) (fd : Fd) (x : List UInt8)
    (w w' : World σ) : Prop extends Receiving c fd w' where
  residue : (w'.conns c).readBuff_.readable = D.framer.residue x
  commits : committed (w'.trace c) = committed (w.trace c) ++ D.framer.frames x
  storage : (w'.conns c).readBuff_.buffer_.length = (w.conns c).readBuff_.buffer_.length
  reads : w'.reads = w.reads

variable {D : ConformingDecoder} {c : ConnId} {fd : Fd} {cbs : Callbacks σ}
  {Inv : World σ → Prop} {stuck : Prop} {w : World σ}

/-- An event that commits no frame. -/
theorem sameReceiver_log (w : World σ) {e : ConnEvent} (he : ∀ frame, e ≠ .msgCommit frame) :
    SameReceiver c fd w (w.log c e) where
  readBuff := by rw [World.log_conns]
  decodeCb := by rw [World.log_conns]
  callback := by rw [World.log_loop]
  reads := by rw [World.log_reads]
  commits := by rw [World.log_self, committed_snoc_other _ he]

theorem SameReceiver.trans {w₁ w₂ : World σ} (h₁ : SameReceiver c fd w w₁)
    (h₂ : SameReceiver c fd w₁ w₂) : SameReceiver c fd w w₂ where
  readBuff := h₂.readBuff.trans h₁.readBuff
  decodeCb := h₂.decodeCb.trans h₁.decodeCb
  callback := h₂.callback.trans h₁.callback
  reads := h₂.reads.trans h₁.reads
  commits := h₂.commits.trans h₁.commits

theorem Receiving.congr {w' : World σ} (h : Receiving c fd w) (hsame : SameReceiver c fd w w') :
    Receiving c fd w' where
  valid := by rw [hsame.readBuff]; exact h.valid
  decodeCb := by rw [hsame.decodeCb]; exact h.decodeCb
  callback := by rw [hsame.callback]; exact h.callback

/-- Without a complete frame, nothing is cut off. -/
theorem Receiving.framed_of_none {x : List UInt8} {w' : World σ} (h : Receiving c fd w)
    (hx : (w.conns c).readBuff_.readable = x) (hf : D.framer.frame x = none)
    (hsame : SameReceiver c fd w w') : Framed D c fd x w w' where
  toReceiving := h.congr hsame
  residue := by rw [hsame.readBuff, hx, D.framer.residue_of_none hf]
  commits := by rw [hsame.commits, D.framer.frames_of_none hf, List.append_nil]
  storage := by rw [hsame.readBuff]
  reads := hsame.reads

theorem Framed.congr_left {x : List UInt8} {w₁ w' : World σ} (h : Framed D c fd x w₁ w')
    (hsame : SameReceiver c fd w w₁) : Framed D c fd x w w' where
  toReceiving := h.toReceiving
  residue := h.residue
  commits := by rw [h.commits, hsame.commits]
  storage := by rw [h.storage, hsame.readBuff]
  reads := h.reads.trans hsame.reads

/-- From `w` to `w'` the first `n` readable bytes were committed. -/
structure FrameTaken (c : ConnId) (fd : Fd) (n : Nat) (w w' : World σ) : Prop
    extends Receiving c fd w' where
  rest : (w'.conns c).readBuff_.readable = (w.conns c).readBuff_.readable.drop n
  commits : committed (w'.trace c) =
    committed (w.trace c) ++ [(w.conns c).readBuff_.readable.take n]
  storage : (w'.conns c).readBuff_.buffer_.length = (w.conns c).readBuff_.buffer_.length
  reads : w'.reads = w.reads

/-- A frame that was taken, and the framing of the rest. -/
theorem FrameTaken.framed {x : List UInt8} {n : Nat} {w₁ w' : World σ}
    (h : FrameTaken c fd n w w₁) (hx : (w.conns c).readBuff_.readable = x)
    (hf : D.framer.frame x = some n) (hframed : Framed D c fd (x.drop n) w₁ w') :
    Framed D c fd x w w' where
  toReceiving := hframed.toReceiving
  residue := by rw [hframed.residue, D.framer.residue_of_some hf]
  commits := by
    rw [hframed.commits, h.commits, hx, D.framer.frames_of_some hf, List.append_assoc,
      List.singleton_append]
  storage := hframed.storage.trans h.storage
  reads := hframed.reads.trans h.reads

/-! ## Section 3: One frame -/

/-- The buffer that is passed to `msgCommitCb_`. -/
theorem commitBuffer_eq {b : XBuffer} (hv : b.Valid) {n : Nat} (hle : n ≤ b.readableBytes)
    (hmax : n < 2 ^ 31) :
    ∃ b', (XBuffer.fresh n).appendMem b.peek n = .ok b' ∧ b'.readable = b.readable.take n := by
  have hhead : XBuffer.kDiscardableSize = 4 := rfl
  have hvec : vectorMaxSize = 2 ^ 63 - 1 := rfl
  have hmod : sizeModulus = 2 ^ 64 := rfl
  have hfit : XBuffer.kDiscardableSize + n ≤ vectorMaxSize := by omega
  have hpeek : n ≤ b.peek.length := by
    have hr := hv.readableBytes_eq
    have hw := hv.writer_le_size
    simp only [XBuffer.peek, List.length_drop]
    omega
  have hlen : (b.peek.take n).length = n := by
    rw [List.length_take]
    omega
  have hwriter : (XBuffer.fresh n).writerIndex_ = XBuffer.kDiscardableSize := rfl
  rw [XBuffer.appendMem_eq_append hpeek]
  rcases XBuffer.append_spec (b.peek.take n) (XBuffer.valid_fresh hfit) (by omega)
    (by rw [hwriter]; omega) with ⟨b', hok, _, hread⟩ | ⟨_, hbig⟩
  · refine ⟨b', hok, ?_⟩
    rw [hread, XBuffer.readable_fresh, List.nil_append, hv.take_peek hle]
  · rw [hwriter] at hbig
    omega

/-- Taking a frame off the readable bytes. -/
theorem wp_takeFrame_framed {n : Nat} (hv : (w.conns c).readBuff_.Valid)
    (hle : n ≤ (w.conns c).readBuff_.readableBytes) (hmax : n < 2 ^ 31) :
    wp (takeFrame c n)
      (fun commitBuffer w' => commitBuffer.readable = (w.conns c).readBuff_.readable.take n ∧
        ∃ b, b.Valid ∧ b.readable = (w.conns c).readBuff_.readable.drop n ∧
        b.buffer_ = (w.conns c).readBuff_.buffer_ ∧
        w' = (w.setConn c { w.conns c with readBuff_ := b }).log c
          (.msgCommit ((w.conns c).readBuff_.readable.take n)))
      (fun _ _ => False) w := by
  have hmod : (sizeModulus : Int) = 2 ^ 64 := by decide
  have hsize : toSize (n : Int) = n := by
    rw [toSize_of_nonneg (by omega) (by omega)]
    exact Int.toNat_natCast n
  have hnew : XBuffer.new n = .ok (XBuffer.fresh n) := by
    have hhead : XBuffer.kDiscardableSize = 4 := rfl
    have hvec : vectorMaxSize = 2 ^ 63 - 1 := rfl
    exact XBuffer.new_eq (by omega)
  obtain ⟨b₁, happ, hread₁⟩ := commitBuffer_eq hv hle hmax
  obtain ⟨b₂, hmove, hv₂, hread₂, hbuff₂⟩ := XBuffer.moveOver_spec hv hle
  unfold takeFrame
  rw [hsize, wp_bind, hnew, wp_lift_ok, wp_bind, wp_get, wp_bind, happ, wp_lift_ok, wp_bind,
    wp_onReadBuff, hmove]
  dsimp only
  rw [wp_bind, wp_emit, hread₁]
  exact ⟨hread₁, b₂, hv₂, hread₂, hbuff₂, rfl⟩

/-- A frame is taken off and passed to the callback, which returns. -/
theorem wp_commitFrame_framed (hcommit : CommitContract Inv stuck c fd cbs) {n : Nat}
    (hinv : Inv w) (hrec : Receiving c fd w) (hle : n ≤ (w.conns c).readBuff_.readableBytes)
    (hmax : n < 2 ^ 31) :
    wp (takeFrame c n)
      (fun cb => wp (commit cbs c cb) (fun _ w' => Inv w' ∧ FrameTaken c fd n w w')
        (fun e _ => stuck ∧ e = .infeasible))
      (fun _ _ => False) w := by
  apply wp_mono _ (fun _ _ he => he) (wp_takeFrame_framed hrec.valid hle hmax)
  intro cb w₁ hout
  obtain ⟨_, b, hv, hread, hbuff, rfl⟩ := hout
  unfold commit
  rw [wp_bind]
  have hinv₁ := hcommit.emit _ (.msgCommit ((w.conns c).readBuff_.readable.take n)) rfl
    (hcommit.ignoresInput.readBuff w b hinv)
  apply wp_mono _ (fun _ _ he => he) (hcommit.returns cb _ hinv₁)
  intro _ w₂ hout
  obtain ⟨hinv₂, hreturn⟩ := hout
  rw [wp_bind, wp_get, wp_emit]
  -- after the callback the receiving side is the same, and the log has a mark for its return
  have hsame := hreturn.trans (sameReceiver_log w₂
    (e := .commitReturn (w₂.conns c).readBuff_.readableBytes) (by simp))
  have hrec₁ : Receiving c fd ((w.setConn c { w.conns c with readBuff_ := b }).log c
      (.msgCommit ((w.conns c).readBuff_.readable.take n))) :=
    ⟨by simpa using hv, by simpa using hrec.decodeCb, hrec.callback⟩
  refine ⟨hcommit.emit _ _ rfl hinv₂, hrec₁.congr hsame, ?_, ?_, ?_, hsame.reads⟩
  · rw [hsame.readBuff]
    simpa using hread
  · rw [hsame.commits, World.log_self, committed_snoc_msgCommit, World.setConn_trace]
  · rw [hsame.readBuff]
    simpa using congrArg List.length hbuff

/-! ## Section 4: The parse loop -/

/-- The decoder is asked about exactly the readable bytes. -/
theorem wp_decode_framed (hdec : ∀ buffer (len : Int),
      cbs.decodeCb_ c buffer len = pure (D.decode (buffer.take len.toNat)))
    (hv : (w.conns c).readBuff_.Valid) (hmax : (w.conns c).readBuff_.readableBytes < 2 ^ 31) :
    wp (decode cbs c (toInt32 (w.conns c).readBuff_.readableBytes))
      (fun ret w' => ret = D.decode (w.conns c).readBuff_.readable ∧
        w' = (w.log c .decode).log c (.decodeReturn ret))
      (fun _ _ => False) w := by
  have hsize : toInt32 (w.conns c).readBuff_.readableBytes =
      (w.conns c).readBuff_.readableBytes := toInt32_of_range (by omega) (by omega)
  have hlen := hv.length_readable
  have htake : (w.conns c).readBuff_.peek.take (w.conns c).readBuff_.readableBytes =
      (w.conns c).readBuff_.readable := by
    rw [hv.take_peek (Nat.le_refl _), ← hlen, List.take_length]
  have hret : toInt32 (D.decode (w.conns c).readBuff_.readable) =
      D.decode (w.conns c).readBuff_.readable := by
    rcases D.result (w.conns c).readBuff_.readable with hres | ⟨hpos, hle⟩
    · rw [hres]
      decide
    · exact toInt32_of_range (by omega) (by omega)
  unfold decode
  rw [wp_bind, wp_emit, wp_bind, wp_get, wp_bind, hdec, wp_pure, wp_bind, wp_emit, wp_pure]
  simp only [World.log_conns, hsize, Int.toNat_natCast, htake, hret]
  exact ⟨trivial, trivial⟩

/-- Induction along the frames of the readable bytes: the parse loop commits
    them one by one and stops at the residue. -/
theorem wp_parseLoop_framed (hdec : ∀ buffer (len : Int),
      cbs.decodeCb_ c buffer len = pure (D.decode (buffer.take len.toNat)))
    (hcommit : CommitContract Inv stuck c fd cbs) (x : List UInt8) :
    ∀ (fuel : Nat) (w : World σ), (w.conns c).readBuff_.readable = x → Inv w →
      Receiving c fd w → x.length < 2 ^ 31 → x.length < fuel →
      wp (parseLoop cbs c fuel) (fun _ w' => Inv w' ∧ Framed D c fd x w w')
        (fun e _ => stuck ∧ e = .infeasible) w := by
  induction x using D.framer.frame_induction with
  | none x hf =>
    intro fuel w hx hinv hrec hmax hfuel
    obtain ⟨k, rfl⟩ : ∃ k, fuel = k + 1 := ⟨fuel - 1, by omega⟩
    have hlen := hrec.valid.length_readable
    unfold parseLoop
    rw [wp_bind, wp_get, wp_ite]
    split
    · exact ⟨hinv, hrec.framed_of_none hx hf ⟨rfl, rfl, rfl, rfl, rfl⟩⟩
    · dsimp only
      rw [wp_bind]
      apply wp_mono _ (fun _ _ he => absurd he id)
        (wp_decode_framed hdec hrec.valid (by rw [← hlen, hx]; exact hmax))
      intro ret w₁ hout
      obtain ⟨hret, rfl⟩ := hout
      have hnot : ret = XF_MSG_DECODE_NOT_ENOUGH := by
        rw [hret, hx]
        exact D.frame_eq_none_iff.mp hf
      rw [wp_ite, if_neg (by rw [hnot]; decide), wp_ite, if_pos hnot]
      have hsame : SameReceiver c fd w ((w.log c .decode).log c (.decodeReturn ret)) :=
        (sameReceiver_log w (by simp)).trans (sameReceiver_log _ (by simp))
      exact ⟨hcommit.emit _ _ rfl (hcommit.emit _ _ rfl hinv), hrec.framed_of_none hx hf hsame⟩
  | some x n hf ih =>
    intro fuel w hx hinv hrec hmax hfuel
    obtain ⟨k, rfl⟩ : ∃ k, fuel = k + 1 := ⟨fuel - 1, by omega⟩
    have hpos := D.framer.pos hf
    have hle := D.framer.le_length hf
    have hlen := hrec.valid.length_readable
    rw [hx] at hlen
    unfold parseLoop
    rw [wp_bind, wp_get, wp_ite, if_neg (by omega)]
    dsimp only
    rw [wp_bind]
    apply wp_mono _ (fun _ _ he => absurd he id)
      (wp_decode_framed hdec hrec.valid (by rw [← hlen]; exact hmax))
    intro ret w₁ hout
    obtain ⟨hret, rfl⟩ := hout
    rw [hx, D.decode_of_frame hf] at hret
    have hsize : toInt32 (w.conns c).readBuff_.readableBytes = x.length := by
      rw [← hlen]
      exact toInt32_of_range (by omega) (by omega)
    rw [wp_ite, if_neg (by rw [hret, XF_MSG_DECODE_ERR]; omega), wp_ite,
      if_neg (by rw [hret, XF_MSG_DECODE_NOT_ENOUGH]; omega), hsize, if_neg (by omega), hret,
      wp_bind]
    -- the decoder has left the receiving side as it was
    have hsame : SameReceiver c fd w ((w.log c .decode).log c (.decodeReturn n)) :=
      (sameReceiver_log w (by simp)).trans (sameReceiver_log _ (by simp))
    have hinv₁ := hcommit.emit _ (.decodeReturn n) rfl (hcommit.emit w .decode rfl hinv)
    have hx₁ : (((w.log c .decode).log c (.decodeReturn n)).conns c).readBuff_.readable = x := by
      rw [hsame.readBuff, hx]
    -- one frame is taken, and the rest is framed by the induction hypothesis
    apply wp_mono _ (fun _ _ he => absurd he id) (wp_commitFrame_framed hcommit hinv₁
      (hrec.congr hsame) (n := n) (by rw [hsame.readBuff]; omega) (by omega))
    intro cb w₂ hreturn
    rw [wp_bind]
    apply wp_mono _ (fun _ _ he => he) hreturn
    intro _ w₃ hout
    obtain ⟨hinv₃, htaken⟩ := hout
    have hrest : (x.drop n).length = x.length - n := List.length_drop
    apply wp_mono _ (fun _ _ he => he) (ih k w₃ (by rw [htaken.rest, hx₁]) hinv₃
      htaken.toReceiving (by omega) (by omega))
    intro _ w₄ hout
    obtain ⟨hinv₄, hframed⟩ := hout
    exact ⟨hinv₄, (htaken.framed hx₁ hf hframed).congr_left hsame⟩

/-! ## Section 5: One read event -/

/-- The chunks of one `readMsg` call, and how the call ends. -/
def readsOf (chunks : List (List UInt8)) (last : ReadvResult) : List ReadvResult :=
  chunks.map ReadvResult.bytes ++ [last]

/-- The read loop of one call appends the chunks. -/
theorem wp_readAvailable_chunks (hcommit : CommitContract Inv stuck c fd cbs)
    {chunks : List (List UInt8)} {rest : List (List ReadvResult)} (hinv : Inv w)
    (hrec : Receiving c fd w) (hreads : w.reads = readsOf chunks (.fail .EAGAIN) :: rest)
    (hne : ∀ d ∈ chunks, d ≠ []) (hmax : chunks.flatten.length < 2 ^ 31)
    (hstorage : (w.conns c).readBuff_.buffer_.length + chunks.flatten.length ≤ vectorMaxSize) :
    wp (readAvailable c)
      (fun size w₁ => size = some (chunks.flatten.length : Int) ∧ Inv w₁ ∧ Receiving c fd w₁ ∧
        w₁.reads = rest ∧ w₁.trace = w.trace ∧
        (w₁.conns c).readBuff_.readable = (w.conns c).readBuff_.readable ++ chunks.flatten ∧
        (w₁.conns c).readBuff_.buffer_.length ≤
          (w.conns c).readBuff_.buffer_.length + chunks.flatten.length)
      (fun e _ => e = .infeasible ∧ ∃ d ∈ chunks, XBuffer.extrabufSize < d.length) w := by
  unfold readAvailable
  rw [wp_bind, nextReads, wp_nextAnswer, hreads]
  dsimp only
  rw [wp_bind, wp_get, wp_bind]
  dsimp only
  have hint : toInt32 (0 + chunks.flatten.length) = chunks.flatten.length := by
    rw [Int.zero_add]
    exact toInt32_of_range (by omega) (by omega)
  rcases readLoop_spec (fun n b _ => readLoop_eagain n b) 0 hrec.valid hne hstorage rfl with
    ⟨hloop, hbig⟩ | ⟨b, hloop, hv, hread, hlen⟩
  · unfold readsOf
    rw [hloop, wp_lift_error]
    exact ⟨rfl, hbig⟩
  · unfold readsOf
    rw [hloop, wp_lift_ok, wp_bind, wp_modify, wp_pure]
    refine ⟨by rw [hint], ?_, ⟨?_, ?_, hrec.callback⟩, rfl, rfl, ?_, ?_⟩
    · apply hcommit.ignoresInput.errno
      apply hcommit.ignoresInput.readBuff ({ w with reads := rest } : World σ)
      exact hcommit.ignoresInput.reads w rest hinv
    · simpa using hv
    · simpa using hrec.decodeCb
    · simpa using hread
    · simpa using hlen

/-- From `w` to `w'` the connection has read `chunks` until `EAGAIN`: what was
    left and what was read are framed.  `rest` is left of the reads. -/
structure EventRead (D : ConformingDecoder) (c : ConnId) (fd : Fd) (chunks : List (List UInt8))
    (rest : List (List ReadvResult)) (w w' : World σ) : Prop extends Receiving c fd w' where
  reads : w'.reads = rest
  residue : (w'.conns c).readBuff_.readable =
    D.framer.residue ((w.conns c).readBuff_.readable ++ chunks.flatten)
  commits : committed (w'.trace c) = committed (w.trace c) ++
    D.framer.frames ((w.conns c).readBuff_.readable ++ chunks.flatten)
  storage : (w'.conns c).readBuff_.buffer_.length ≤
    (w.conns c).readBuff_.buffer_.length + chunks.flatten.length

/-- After an event nothing readable is a complete frame. -/
theorem EventRead.frame_eq_none {chunks : List (List UInt8)} {rest : List (List ReadvResult)}
    {w' : World σ} (h : EventRead D c fd chunks rest w w') :
    D.framer.frame (w'.conns c).readBuff_.readable = none := by
  rw [h.residue]
  exact D.framer.frame_residue _

theorem EventRead.length_le {chunks : List (List UInt8)} {rest : List (List ReadvResult)}
    {w' : World σ} (h : EventRead D c fd chunks rest w w') :
    (w'.conns c).readBuff_.readable.length ≤
      (w.conns c).readBuff_.readable.length + chunks.flatten.length := by
  have hres := D.framer.length_residue_le ((w.conns c).readBuff_.readable ++ chunks.flatten)
  rw [← h.residue, List.length_append] at hres
  exact hres

/-- Why a read event may not be possible: the commit callback has no outcome
    left, or a chunk is longer than any kernel would read at once. -/
def NoEvent (stuck : Prop) (chunks : List (List UInt8)) (e : Halt) : Prop :=
  e = .infeasible ∧ (stuck ∨ ∃ d ∈ chunks, XBuffer.extrabufSize < d.length)

theorem NoEvent.mono {chunks chunks' : List (List UInt8)} {e : Halt} (h : NoEvent stuck chunks e)
    (hsubset : chunks ⊆ chunks') : NoEvent stuck chunks' e := by
  obtain ⟨he, hstuck | ⟨d, hd, hbig⟩⟩ := h
  · exact ⟨he, Or.inl hstuck⟩
  · exact ⟨he, Or.inr ⟨d, hsubset hd, hbig⟩⟩

/-- The connection reads `chunks` until `EAGAIN`: it frames what was left and
    what was read. -/
theorem wp_readMsg_framed (hdec : ∀ buffer (len : Int),
      cbs.decodeCb_ c buffer len = pure (D.decode (buffer.take len.toNat)))
    (hcommit : CommitContract Inv stuck c fd cbs) {chunks : List (List UInt8)}
    {rest : List (List ReadvResult)} {fuel : Nat} (hinv : Inv w) (hrec : Receiving c fd w)
    (hreads : w.reads = readsOf chunks (.fail .EAGAIN) :: rest) (hne : ∀ d ∈ chunks, d ≠ [])
    (hframe : chunks = [] → D.framer.frame (w.conns c).readBuff_.readable = none)
    (hmax : (w.conns c).readBuff_.readable.length + chunks.flatten.length < 2 ^ 31)
    (hfuel : (w.conns c).readBuff_.readable.length + chunks.flatten.length < fuel)
    (hstorage : (w.conns c).readBuff_.buffer_.length + chunks.flatten.length ≤ vectorMaxSize) :
    wp (readMsg cbs fuel c)
      (fun ret w' => 0 ≤ ret ∧ Inv w' ∧ EventRead D c fd chunks rest w w')
      (fun e _ => NoEvent stuck chunks e) w := by
  unfold readMsg
  rw [wp_bind]
  apply wp_mono _ _ (wp_readAvailable_chunks hcommit hinv hrec hreads hne (by omega) hstorage)
  rotate_left
  · intro e _ hout
    obtain ⟨he, hbig⟩ := hout
    exact ⟨he, Or.inr hbig⟩
  intro _ w₁ hout
  obtain ⟨rfl, hinv₁, hrec₁, hreads₁, htrace₁, hread₁, hlen₁⟩ := hout
  dsimp only
  rw [wp_ite]
  split
  · -- something was read: it is parsed behind what was left
    rename_i hpos
    have hlength := congrArg List.length hread₁
    rw [List.length_append] at hlength
    have hloop := wp_parseLoop_framed hdec hcommit _ fuel w₁ rfl hinv₁ hrec₁ (by omega) (by omega)
    unfold parseProtocol
    rw [wp_bind, wp_bind, wp_get, wp_ite, if_pos hrec₁.decodeCb, wp_catching]
    apply wp_mono _ _ hloop
    · intro _ w₂ hout
      obtain ⟨hinv₂, hframed⟩ := hout
      refine ⟨by omega, hinv₂, hframed.toReceiving, ?_, ?_, ?_, ?_⟩
      · rw [hframed.reads, hreads₁]
      · rw [hframed.residue, hread₁]
      · rw [hframed.commits, htrace₁, hread₁]
      · rw [hframed.storage]
        exact hlen₁
    · intro e w₂ hout
      obtain ⟨hstuck, rfl⟩ := hout
      rw [if_neg (by decide)]
      exact ⟨rfl, Or.inl hstuck⟩
  · -- nothing was read: nothing is parsed
    rename_i hzero
    have hnil : chunks = [] := by
      cases chunks with
      | nil => rfl
      | cons d chunks =>
        have hd := List.length_pos_of_ne_nil (hne d List.mem_cons_self)
        simp only [List.flatten_cons, List.length_append] at hzero
        omega
    have hsame : (w₁.conns c).readBuff_.readable = (w.conns c).readBuff_.readable := by
      rw [hread₁, hnil, List.flatten_nil, List.append_nil]
    refine ⟨by omega, hinv₁, hrec₁, hreads₁, ?_, ?_, hlen₁⟩
    · rw [← hread₁, hsame, D.framer.residue_of_none (hframe hnil)]
    · rw [htrace₁, ← hread₁, hsame, D.framer.frames_of_none (hframe hnil), List.append_nil]

/-! ## Section 6: Any number of read events -/

/-- The world in which the loop is about to dispatch read events: each `readMsg`
    call will read its chunks and then meet `EAGAIN`. -/
structure AboutToRead (c : ConnId) (fd : Fd) (cuts : List (List (List UInt8)))
    (w : World σ) : Prop extends Receiving c fd w where
  reads : w.reads = cuts.map (readsOf · (.fail .EAGAIN))
  nonempty : ∀ chunks ∈ cuts, ∀ d ∈ chunks, d ≠ []

/-- One event: the loop dispatches it, and the connection reads. -/
theorem wp_readEvent_framed (hdec : ∀ buffer (len : Int),
      cbs.decodeCb_ c buffer len = pure (D.decode (buffer.take len.toNat)))
    (hcommit : CommitContract Inv stuck c fd cbs) {chunks : List (List UInt8)}
    {cuts : List (List (List UInt8))} {fuel : Nat} (hinv : Inv w)
    (habout : AboutToRead c fd (chunks :: cuts) w)
    (hframe : D.framer.frame (w.conns c).readBuff_.readable = none)
    (hmax : (w.conns c).readBuff_.readable.length + chunks.flatten.length < 2 ^ 31)
    (hfuel : (w.conns c).readBuff_.readable.length + chunks.flatten.length < fuel)
    (hstorage : (w.conns c).readBuff_.buffer_.length + chunks.flatten.length ≤ vectorMaxSize) :
    wp (dispatch cbs fuel c fd XE_READABLE)
      (fun _ w' => Inv w' ∧ AboutToRead c fd cuts w' ∧
        EventRead D c fd chunks (cuts.map (readsOf · (.fail .EAGAIN))) w w')
      (fun e _ => NoEvent stuck chunks e) w := by
  have hreads : w.reads =
      readsOf chunks (.fail .EAGAIN) :: cuts.map (readsOf · (.fail .EAGAIN)) := habout.reads
  have hread := wp_readMsg_framed hdec hcommit hinv habout.toReceiving hreads
    (habout.nonempty chunks List.mem_cons_self) (fun _ => hframe) hmax hfuel hstorage
  unfold dispatch HandleEvent handleWritable
  rw [wp_bind, wp_get, wp_ite, if_pos habout.callback, wp_ite, if_neg (by decide), wp_ite,
    if_pos (by decide), wp_bind]
  apply wp_mono _ (fun _ _ he => he) hread
  intro ret w' hout
  obtain ⟨hret, hinv', hevent⟩ := hout
  -- the size is not negative, so nothing is closed; and there is nothing to write
  rw [wp_ite, if_neg (by omega), wp_ite, if_neg (by decide)]
  have habout' : AboutToRead c fd cuts w' :=
    ⟨hevent.toReceiving, hevent.reads,
      fun ds hds => habout.nonempty ds (List.mem_cons_of_mem _ hds)⟩
  exact ⟨hinv', habout', hevent⟩

/-- Induction on the events: each of them frames a piece of the stream. -/
theorem wp_readEvents_framed (hdec : ∀ buffer (len : Int),
      cbs.decodeCb_ c buffer len = pure (D.decode (buffer.take len.toNat)))
    (hcommit : CommitContract Inv stuck c fd cbs) {fuel : Nat} :
    ∀ (cuts : List (List (List UInt8))) (w : World σ), Inv w → AboutToRead c fd cuts w →
      D.framer.frame (w.conns c).readBuff_.readable = none →
      (w.conns c).readBuff_.readable.length + cuts.flatten.flatten.length < 2 ^ 31 →
      (w.conns c).readBuff_.readable.length + cuts.flatten.flatten.length < fuel →
      (w.conns c).readBuff_.buffer_.length + cuts.flatten.flatten.length ≤ vectorMaxSize →
      wp (sequence (fun _ => dispatch cbs fuel c fd XE_READABLE) cuts)
        (fun _ w' =>
          committed (w'.trace c) = committed (w.trace c) ++
            (D.framer.framesOfPieces (cuts.map List.flatten)
              (w.conns c).readBuff_.readable).1 ∧
          (w'.conns c).readBuff_.readable =
            (D.framer.framesOfPieces (cuts.map List.flatten)
              (w.conns c).readBuff_.readable).2)
        (fun e _ => NoEvent stuck cuts.flatten e) w := by
  intro cuts
  induction cuts with
  | nil =>
    intro w _ _ _ _ _ _
    exact ⟨by simp [Framer.framesOfPieces], by simp [Framer.framesOfPieces]⟩
  | cons chunks cuts ih =>
    intro w hinv habout hframe hmax hfuel hstorage
    simp only [List.flatten_cons, List.flatten_append, List.length_append] at hmax hfuel hstorage
    show wp (dispatch cbs fuel c fd XE_READABLE >>= fun _ => sequence _ cuts) _ _ w
    rw [wp_bind]
    apply wp_mono _ _
      (wp_readEvent_framed hdec hcommit hinv habout hframe (by omega) (by omega) (by omega))
    · intro _ w₁ hout
      obtain ⟨hinv₁, habout₁, hevent⟩ := hout
      have hlength := hevent.length_le
      have hlen := hevent.storage
      apply wp_mono _ _
        (ih w₁ hinv₁ habout₁ hevent.frame_eq_none (by omega) (by omega) (by omega))
      · intro _ w₂ hout
        obtain ⟨hcommits₂, hread₂⟩ := hout
        rw [hcommits₂, hread₂, hevent.commits, hevent.residue, List.append_assoc]
        exact ⟨rfl, rfl⟩
      · exact fun e _ hnone => hnone.mono (List.subset_append_right _ _)
    · exact fun e _ hnone => hnone.mono (List.subset_append_left _ _)

/-- **Framing does not depend on segmentation.**  A connection whose read
    buffer is fresh receives a stream of fewer than 2^31 bytes, cut into
    read events and these into chunks in any way.  The frames that are
    committed are the greedy framing of the whole stream, and the read buffer
    finally holds the residue.  The only other outcome is that the kernel
    cannot behave as assumed: a chunk is longer than the second buffer and
    there was no room for it, or the commit callback is `stuck`. -/
theorem framing_of_stream (D : ConformingDecoder) (hdec : ∀ buffer (len : Int),
      cbs.decodeCb_ c buffer len = pure (D.decode (buffer.take len.toNat)))
    (hcommit : CommitContract Inv stuck c fd cbs) (cuts : List (List (List UInt8)))
    {fuel : Nat} (hinv : Inv w) (habout : AboutToRead c fd cuts w)
    (hfresh : (w.conns c).readBuff_ = XBuffer.fresh XBuffer.kInitialSize)
    (hmax : cuts.flatten.flatten.length < 2 ^ 31) (hfuel : cuts.flatten.flatten.length < fuel) :
    wp (sequence (fun _ => dispatch cbs fuel c fd XE_READABLE) cuts)
      (fun _ w' =>
        committed (w'.trace c) = committed (w.trace c) ++ D.framer.frames cuts.flatten.flatten ∧
        (w'.conns c).readBuff_.readable = D.framer.residue cuts.flatten.flatten)
      (fun e _ => e = .infeasible ∧
        (stuck ∨ ∃ d ∈ cuts.flatten, XBuffer.extrabufSize < d.length)) w := by
  have hnil : (w.conns c).readBuff_.readable = [] := by
    rw [hfresh]
    exact XBuffer.readable_fresh XBuffer.kInitialSize
  have hframe : D.framer.frame [] = none := by
    cases hf : D.framer.frame [] with
    | none => rfl
    | some n =>
      have hpos := D.framer.pos hf
      have hle := D.framer.le_length hf
      rw [List.length_nil] at hle
      omega
  have hstorage : (w.conns c).readBuff_.buffer_.length + cuts.flatten.flatten.length ≤
      vectorMaxSize := by
    have hlen : XBuffer.kDiscardableSize + XBuffer.kInitialSize = 1024 := rfl
    have hvec : vectorMaxSize = 2 ^ 63 - 1 := rfl
    rw [hfresh, XBuffer.length_fresh, hlen]
    omega
  have hmax' : (w.conns c).readBuff_.readable.length + cuts.flatten.flatten.length < 2 ^ 31 := by
    rw [hnil]
    simpa using hmax
  have hfuel' : (w.conns c).readBuff_.readable.length + cuts.flatten.flatten.length < fuel := by
    rw [hnil]
    simpa using hfuel
  have hrun := wp_readEvents_framed hdec hcommit cuts w hinv habout (by rw [hnil]; exact hframe)
    hmax' hfuel' hstorage
  rw [hnil, D.framer.framesOfPieces_eq _ hframe, List.nil_append, ← List.flatten_flatten] at hrun
  exact hrun

end XConnection

/-! ## Section 7: A user who only listens -/

/-- Frames of two bytes. -/
def twoByteDecoder : ConformingDecoder where
  decode x := if 2 ≤ x.length then 2 else -2
  result := by
    intro x
    by_cases h : 2 ≤ x.length
    · rw [if_pos h]
      exact Or.inr ⟨by decide, by omega⟩
    · rw [if_neg h]
      exact Or.inl rfl
  stable := by
    intro x y h
    have hx : 2 ≤ x.length := by
      by_contra hno
      rw [if_neg hno] at h
      exact absurd h (by decide)
    rw [if_pos hx, if_pos (by rw [List.length_append]; omega)]

/-- Callbacks that decode and do nothing else. -/
def listen (D : ConformingDecoder) : Callbacks Unit where
  decodeCb_ _ buffer buffLen := pure (D.decode (buffer.take buffLen.toNat))
  msgCommitCb_ _ _ := pure ()
  sentBytesCb_ _ _ := pure ()
  connCloseCb_ _ := pure ()
  connFinishCb_ _ := pure ()

/-- A world with connection 0 registered on descriptor 0. -/
def World.listening (reads : List (List ReadvResult)) : World Unit :=
  { World.start false true true [] reads [] with
    loop := ⟨fun fd => if fd = 0 then some ⟨XE_READABLE, 0, .connHandleEvent 0⟩ else none,
      fun fd => if fd = 0 then some EPOLLIN else none⟩ }

namespace XConnection

theorem commitContract_listen (D : ConformingDecoder) (c : ConnId) (fd : Fd) :
    CommitContract (fun _ => True) False c fd (listen D) where
  ignoresInput := ⟨fun _ _ h => h, fun _ _ h => h, fun _ _ h => h, fun _ _ h => h⟩
  emit := fun _ _ _ h => h
  returns := fun _ _ _ => ⟨trivial, ⟨rfl, rfl, rfl, rfl, rfl⟩⟩

theorem receiving_listening (reads : List (List ReadvResult)) :
    Receiving 0 0 (World.listening reads) :=
  ⟨XBuffer.valid_fresh (by decide), rfl, rfl⟩

/-- Five bytes in two events, the second one in two chunks. -/
theorem framing_of_stream_five :
    wp (sequence (fun _ => dispatch (listen twoByteDecoder) 6 0 0 XE_READABLE)
        [[[1, 2, 3]], [[4], [5]]])
      (fun _ w' => committed (w'.trace 0) = [[1, 2], [3, 4]] ∧
        (w'.conns 0).readBuff_.readable = [5])
      (fun _ _ => False)
      (World.listening [[.bytes [1, 2, 3], .fail .EAGAIN],
        [.bytes [4], .bytes [5], .fail .EAGAIN]]) := by
  generalize hw : World.listening [[.bytes [1, 2, 3], .fail .EAGAIN],
    [.bytes [4], .bytes [5], .fail .EAGAIN]] = w
  have habout : AboutToRead 0 0 [[[1, 2, 3]], [[4], [5]]] w := by
    rw [← hw]
    exact ⟨receiving_listening _, rfl, by decide⟩
  have hfresh : (w.conns 0).readBuff_ = XBuffer.fresh XBuffer.kInitialSize := by
    rw [← hw]
    rfl
  have hnone : committed (w.trace 0) = [] := by
    rw [← hw]
    rfl
  have hframes : twoByteDecoder.framer.frames [1, 2, 3, 4, 5] = [[1, 2], [3, 4]] := by
    decide +kernel
  have hresidue : twoByteDecoder.framer.residue [1, 2, 3, 4, 5] = [5] := by decide +kernel
  apply wp_mono _ _ (framing_of_stream twoByteDecoder (fun _ _ => rfl)
    (commitContract_listen twoByteDecoder 0 0) [[[1, 2, 3]], [[4], [5]]] trivial habout hfresh
    (by decide) (by decide))
  · intro _ w' hout
    obtain ⟨hcommits, hread⟩ := hout
    rw [hnone] at hcommits
    exact ⟨hcommits.trans hframes, hread.trans hresidue⟩
  · intro e _ hout
    obtain ⟨_, hstuck | ⟨d, hd, hbig⟩⟩ := hout
    · exact hstuck
    · revert d
      decide

/-! ## Section 8: The end of the stream -/

/-- When `readMsg` meets the end of the stream, `HandleEvent` goes on to close
    the connection at once: what was read is in `readBuff_`, and nothing has
    been committed. -/
theorem HandleEvent_eof {σ : Type} {c : ConnId} {cbs : Callbacks σ} {w : World σ} {fuel : Nat}
    {emask : Mask} {chunks : List (List UInt8)} {rest : List (List ReadvResult)}
    (hv : (w.conns c).readBuff_.Valid)
    (hmask : emask &&& XE_ERROR = 0 ∧ emask &&& XE_HUP = 0 ∧ emask &&& XE_READABLE ≠ 0)
    (hne : ∀ d ∈ chunks, d ≠ []) (hreads : w.reads = readsOf chunks (.bytes []) :: rest)
    (hread : (readLoop (readsOf chunks (.bytes [])) 0 (w.conns c).readBuff_).isOk) :
    ∃ w', (HandleEvent cbs fuel c emask).run w = (closeConn cbs c).run w' ∧
      w'.trace = w.trace ∧
      (w'.conns c).readBuff_.readable =
        (w.conns c).readBuff_.readable ++ chunks.flatten := by
  obtain ⟨herr, hhup, hreadable⟩ := hmask
  obtain ⟨⟨size, errno, b⟩, hloop⟩ := exists_of_isOk hread
  have hsize : size = none := readLoop_eof hne hloop
  obtain ⟨_, hread'⟩ := readLoop_ok hv hloop
  have hdata : (readsOf chunks (.bytes [])).flatMap ReadvResult.data = chunks.flatten := by
    simp [readsOf, List.flatMap_map, ReadvResult.data, List.flatMap_id']
  refine ⟨{ ({ w with reads := rest } : World σ).setConn c { w.conns c with readBuff_ := b } with
    errno := errno.getD w.errno }, ?_, rfl, ?_⟩
  · apply run_eq_of_wp
    intro Q E
    unfold HandleEvent readMsg readAvailable
    rw [wp_ite, if_neg (by simp [herr, hhup]), wp_ite, if_pos hreadable, wp_bind, wp_bind, wp_bind,
      nextReads, wp_nextAnswer, hreads]
    dsimp only
    rw [wp_bind, wp_get, wp_bind]
    dsimp only
    rw [hloop, wp_lift_ok, wp_bind, wp_modify, wp_pure, hsize]
    dsimp only
    rw [wp_pure, wp_ite, if_pos (by decide)]
  · rw [hdata] at hread'
    simpa using hread'

/-- **Bytes before the end of the stream.**  When a read call meets the end of
    the stream behind some chunks, then up to the point where `HandleEvent`
    closes the connection, the frames of what was left and what was read are
    committed if and only if there are none. -/
theorem eof_commits_iff {σ : Type} (D : ConformingDecoder) {c : ConnId} {cbs : Callbacks σ}
    {w : World σ} {fuel : Nat} {emask : Mask} {chunks : List (List UInt8)}
    {rest : List (List ReadvResult)} (hv : (w.conns c).readBuff_.Valid)
    (hmask : emask &&& XE_ERROR = 0 ∧ emask &&& XE_HUP = 0 ∧ emask &&& XE_READABLE ≠ 0)
    (hne : ∀ d ∈ chunks, d ≠ []) (hreads : w.reads = readsOf chunks (.bytes []) :: rest)
    (hread : (readLoop (readsOf chunks (.bytes [])) 0 (w.conns c).readBuff_).isOk) :
    ∃ w', (HandleEvent cbs fuel c emask).run w = (closeConn cbs c).run w' ∧
      (committed (w'.trace c) = committed (w.trace c) ++
          D.framer.frames ((w.conns c).readBuff_.readable ++ chunks.flatten) ↔
        D.framer.frame ((w.conns c).readBuff_.readable ++ chunks.flatten) = none) := by
  obtain ⟨w', hrun, htrace, _⟩ := HandleEvent_eof hv hmask hne hreads hread
  refine ⟨w', hrun, ?_⟩
  rw [htrace, List.self_eq_append_right, D.framer.frames_eq_nil_iff]

/-- One byte is no frame: nothing is lost at the end of the stream. -/
theorem eof_commits_iff_one_byte : ∃ w : World Unit, ∃ w' : World Unit,
    w = World.listening [[.bytes [1], .bytes []]] ∧
    (HandleEvent (listen twoByteDecoder) 2 0 XE_READABLE).run w =
      (closeConn (listen twoByteDecoder) 0).run w' ∧
    committed (w'.trace 0) = committed (w.trace 0) ++ twoByteDecoder.framer.frames
      ((w.conns 0).readBuff_.readable ++ [[1]].flatten) := by
  generalize hw : World.listening [[.bytes [1], .bytes []]] = w
  have hv : (w.conns 0).readBuff_.Valid := by
    rw [← hw]
    exact (receiving_listening _).valid
  have hreads : w.reads = readsOf [[1]] (.bytes []) :: [] := by
    rw [← hw]
    rfl
  have hread : (readLoop (readsOf [[1]] (.bytes [])) 0 (w.conns 0).readBuff_).isOk := by
    rw [← hw]
    decide +kernel
  have hmask : XE_READABLE &&& XE_ERROR = 0 ∧ XE_READABLE &&& XE_HUP = 0 ∧
      XE_READABLE &&& XE_READABLE ≠ 0 := by decide
  obtain ⟨w', hrun, hiff⟩ := eof_commits_iff twoByteDecoder hv hmask (by decide) hreads hread
  refine ⟨w, w', rfl, hrun, hiff.mpr ?_⟩
  rw [← hw]
  decide +kernel

/-- A whole frame arrives in the same read call as the end of the stream: it
    is dropped.  With `EAGAIN` in between it is committed. -/
theorem frame_lost_at_eof : ∃ w w' : World Unit,
    w = World.listening [[.bytes [1, 2], .bytes []]] ∧ (w.conns 0).readBuff_.Valid ∧
    (HandleEvent (listen twoByteDecoder) 3 0 XE_READABLE).run w = .ok () w' ∧
    (w'.conns 0).connStatus_ = .XF_CONN_STATUS_DISCONNECTING ∧
    committed (w'.trace 0) = [] ∧ twoByteDecoder.framer.frames [1, 2] = [[1, 2]] ∧
    committed ((finalState ((sequence
      (fun _ => HandleEvent (listen twoByteDecoder) 3 0 XE_READABLE) [1, 2]).run
      (World.listening [[.bytes [1, 2], .fail .EAGAIN], [.bytes []]]))).trace 0) = [[1, 2]] := by
  refine ⟨_, _, rfl, (receiving_listening _).valid, eq_ok_of_returned ?_, ?_, ?_, ?_, ?_⟩
  all_goals decide +kernel

end XConnection

end XFast
