import XFast.Net.ParseLoop

/-! # The length of what is received

    The number of bytes that `readMsg` has read goes into an `int`, and so
    does the number of readable bytes that `parseProtocol` hands to the
    decoder.  The first is added up over the loop, and what comes out is read
    as an error code and as "something was read"; the second is read as a
    length, and is the bound for what the decoder answers.

    To say that the decoder is given the right length, it is run as a decoder
    that asserts so. -/

namespace XFast

open Program

variable {σ : Type}

namespace XConnection

/-! ## Section 1: What should hold -/

/-- The callbacks, with a decoder that asserts that it is given the number of
    readable bytes. -/
def asserting (cbs : Callbacks σ) : Callbacks σ :=
  { cbs with
    decodeCb_ := fun c buffer buffLen => do
      let w ← get
      lift (cAssert (buffLen = ((w.conns c).readBuff_.readableBytes : Int)))
      cbs.decodeCb_ c buffer buffLen }

/-- `readMsg` with another program in the place of `parseProtocol`. -/
def readMsgWith (parse : LoopM σ Unit) (c : ConnId) : LoopM σ Int := do
  let size ← readAvailable c
  match size with
  | none => return -1
  | some readSize =>
      if readSize > 0 then do
        parse
        return readSize
      else
        return readSize

theorem readMsg_eq (cbs : Callbacks σ) (fuel : Nat) (c : ConnId) :
    readMsg cbs fuel c = readMsgWith (parseProtocol cbs fuel c) c := rfl

/-- `readMsg`, reading so many bytes: it returns no error, `parseProtocol` is
    run if anything was read, and no call of the decoder is given another
    length than the number of readable bytes. -/
structure Undistorted (cbs : Callbacks σ) (c : ConnId) (total : Nat) (w : World σ) : Prop where
  nonneg : ∀ fuel, wp (readMsg cbs fuel c) (fun ret _ => 0 ≤ ret) (fun _ _ => True) w
  parses : 0 < total → wp (readMsgWith (throw .assertFailed) c) (fun _ _ => False)
    (fun e _ => e = .assertFailed) w
  lengths : ∀ fuel, wp (readMsg (asserting cbs) fuel c) (fun _ _ => True)
    (fun e _ => e ≠ .assertFailed) w

/-! ## Section 2: The accumulator -/

/-- A read loop that meets `EAGAIN` returns the sum of the lengths as an
    `int`. -/
theorem readLoop_sum : ∀ {chunks : List (List UInt8)} {readSize : Int} {b b' : XBuffer}
    {size : Option Int} {errno : Option Errno}, b.Valid → (∀ d ∈ chunks, d ≠ []) →
      toInt32 readSize = readSize →
      readLoop (readsOf chunks (.fail .EAGAIN)) readSize b = .ok (size, errno, b') →
        size = some (toInt32 (readSize + chunks.flatten.length)) := by
  intro chunks
  induction chunks with
  | nil =>
    intro readSize b b' size errno _ _ hint h
    cases h
    rw [List.flatten_nil, List.length_nil, Int.natCast_zero, Int.add_zero, hint]
  | cons d chunks ih =>
    intro readSize b b' size errno hv hne hint h
    obtain ⟨x, d', rfl⟩ := List.exists_cons_of_ne_nil (hne d List.mem_cons_self)
    obtain ⟨⟨n, b₁⟩, hfill, h⟩ := bind_eq_ok h
    obtain ⟨hv₁, hn, -⟩ := XBuffer.fillFromFd_ok hv hfill
    dsimp only at h
    split at h
    · cases h
    · rename_i hmoved
      have hlen : n = (x :: d').length := by
        rw [hn]
        exact toInt32_of_moved (Nat.not_lt.mp hmoved)
      -- what the loop carries on is an `int` again
      have hagain : toInt32 (toInt32 (readSize + n)) = toInt32 (readSize + n) :=
        toInt32_of_range (le_toInt32 _) (toInt32_lt _)
      have hsum := ih hv₁ (fun e he => hne e (List.mem_cons_of_mem _ he)) hagain h
      rw [hsum, toInt32_toInt32_add, hlen, List.flatten_cons, List.length_append,
        Int.natCast_add, Int.add_assoc]

/-- The read call of `readMsg` is over, and `EAGAIN` was met. -/
structure HasRead (c : ConnId) (total : Nat) (w w₁ : World σ) : Prop where
  valid : (w₁.conns c).readBuff_.Valid
  decodeCb : (w₁.conns c).decodeCb_ = (w.conns c).decodeCb_
  readable : (w₁.conns c).readBuff_.readableBytes = (w.conns c).readBuff_.readableBytes + total

section readMsg

variable {c : ConnId} {cbs : Callbacks σ} {w : World σ} {chunks : List (List UInt8)}
  {rest : List (List ReadvResult)}

/-- What `readMsg` does with a number of bytes depends on that number as an
    `int`. -/
theorem wp_readMsgWith (hv : (w.conns c).readBuff_.Valid)
    (hreads : w.reads = readsOf chunks (.fail .EAGAIN) :: rest) (hne : ∀ d ∈ chunks, d ≠ [])
    (hread : (readLoop (readsOf chunks (.fail .EAGAIN)) 0 (w.conns c).readBuff_).isOk) :
    ∃ w₁, HasRead c chunks.flatten.length w w₁ ∧
      ∀ (parse : LoopM σ Unit) (Q : Int → World σ → Prop) (E : Halt → World σ → Prop),
        wp (readMsgWith parse c) Q E w ↔
          if 0 < toInt32 chunks.flatten.length then
            wp parse (fun _ w' => Q (toInt32 chunks.flatten.length) w') E w₁
          else Q (toInt32 chunks.flatten.length) w₁ := by
  obtain ⟨⟨size, errno, b⟩, hloop⟩ := exists_of_isOk hread
  have hsize := readLoop_sum hv hne rfl hloop
  rw [Int.zero_add] at hsize
  obtain ⟨hv', hreadable⟩ := readLoop_ok hv hloop
  have hdata : (readsOf chunks (.fail .EAGAIN)).flatMap ReadvResult.data = chunks.flatten := by
    simp [readsOf, List.flatMap_map, ReadvResult.data, List.flatMap_id']
  rw [hdata] at hreadable
  refine ⟨{ ({ w with reads := rest } : World σ).setConn c { w.conns c with readBuff_ := b } with
    errno := errno.getD w.errno }, ⟨?_, ?_, ?_⟩, ?_⟩
  · simpa using hv'
  · simp
  · have hlen := congrArg List.length hreadable
    rw [List.length_append, hv'.length_readable, hv.length_readable] at hlen
    simpa using hlen
  · intro parse Q E
    unfold readMsgWith readAvailable
    rw [wp_bind, wp_bind, nextReads, wp_nextAnswer, hreads]
    dsimp only
    rw [wp_bind, wp_get, wp_bind]
    dsimp only
    rw [hloop, wp_lift_ok, wp_bind, wp_modify, wp_pure, hsize]
    dsimp only
    rw [wp_ite, wp_bind]
    rfl

/-! ## Section 3: The decoder -/

variable {answer : Int → Prop} {raise : Halt → Prop}

/-- Where the length is right, the assertion passes. -/
theorem wp_decode_asserting (h : ParseCallbacks answer raise c cbs) {bufferSize : Int}
    (hsize : bufferSize = (w.conns c).readBuff_.readableBytes) :
    wp (decode (asserting cbs) c bufferSize)
      (fun ret w' => -(2 ^ 31) ≤ ret ∧ (w'.conns c).readBuff_ = (w.conns c).readBuff_)
      (fun e _ => raise e) w := by
  unfold decode asserting
  rw [wp_bind, wp_emit, wp_bind, wp_get, wp_bind]
  dsimp only
  rw [wp_bind, wp_get, wp_bind, World.log_conns, cAssert_true hsize, wp_lift_ok]
  apply wp_mono _ (fun _ _ he => he) (h.decodeCb _ _ _)
  intro ret w' hout
  rw [wp_bind, wp_emit, wp_pure]
  exact ⟨le_toInt32 ret, by simpa using hout.2⟩

/-- Where it is not, the assertion fails. -/
theorem wp_decode_asserting_fails {bufferSize : Int}
    (hsize : bufferSize ≠ (w.conns c).readBuff_.readableBytes) :
    wp (decode (asserting cbs) c bufferSize) (fun _ _ => False)
      (fun e _ => e = .assertFailed) w := by
  unfold decode asserting
  rw [wp_bind, wp_emit, wp_bind, wp_get, wp_bind]
  dsimp only
  rw [wp_bind, wp_get, wp_bind, World.log_conns, cAssert_false hsize, wp_lift_error]

/-- Whatever the answer, the round fails no assertion, and leaves no more
    readable bytes. -/
theorem wp_handleAnswer_shrinks (h : ParseCallbacks answer (· ≠ .assertFailed) c cbs) {ret : Int}
    (hret : -(2 ^ 31) ≤ ret) (hv : (w.conns c).readBuff_.Valid)
    (hmax : (w.conns c).readBuff_.readableBytes < 2 ^ 31) :
    wp (handleAnswer cbs c ((w.conns c).readBuff_.readableBytes : Nat) ret)
      (fun again w' => again = true → (w'.conns c).readBuff_.Valid ∧
        (w'.conns c).readBuff_.readableBytes < 2 ^ 31)
      (fun e _ => e ≠ .assertFailed) w := by
  by_cases herr : ret = XF_MSG_DECODE_ERR
  · rw [wp_handleAnswer, if_pos herr]
    exact fun hagain => absurd hagain Bool.false_ne_true
  by_cases hmore : ret = XF_MSG_DECODE_NOT_ENOUGH
  · rw [wp_handleAnswer, if_neg herr, if_pos hmore]
    exact fun hagain => absurd hagain Bool.false_ne_true
  have hlow : -(2 ^ 31) ≤ frameLength ((w.conns c).readBuff_.readableBytes : Nat) ret := by
    unfold frameLength
    split <;> omega
  rcases Int.lt_or_le (frameLength ((w.conns c).readBuff_.readableBytes : Nat) ret) 0 with
    hneg | hpos
  · -- below -4 an exception is thrown; from -4 to -1 memory outside is touched
    rcases Int.lt_or_le (frameLength ((w.conns c).readBuff_.readableBytes : Nat) ret) (-4) with
      hrefused | hwrapped
    · refine wp_mono (fun _ _ hf => hf.elim) (fun e _ he => ?_)
        (wp_handleAnswer_refused herr hmore hlow hrefused)
      rw [he]
      decide
    · refine wp_mono (fun _ _ hf => hf.elim) (fun e _ he => ?_)
        (wp_handleAnswer_wrapped herr hmore hwrapped hneg hv)
      rw [he]
      decide
  · refine wp_mono ?_ (fun _ _ he => he)
      (wp_handleAnswer_bytes h herr hmore hpos (by omega) (Int.le_refl _) hv)
    rintro again w' ⟨-, hv', hread'⟩ _
    refine ⟨hv', ?_⟩
    rw [← hv'.length_readable, hread', List.length_drop, hv.length_readable]
    omega

/-- One round with the asserting decoder. -/
theorem wp_parseRound_asserting (h : ParseCallbacks answer (· ≠ .assertFailed) c cbs)
    (hv : (w.conns c).readBuff_.Valid)
    (hmax : (w.conns c).readBuff_.readableBytes < 2 ^ 31) :
    wp (parseRound (asserting cbs) c)
      (fun again w' => again = true → (w'.conns c).readBuff_.Valid ∧
        (w'.conns c).readBuff_.readableBytes < 2 ^ 31)
      (fun e _ => e ≠ .assertFailed) w := by
  have hsize : toInt32 (w.conns c).readBuff_.readableBytes =
      (w.conns c).readBuff_.readableBytes := toInt32_of_range (by omega) (by omega)
  rw [wp_parseRound, hsize]
  split
  · exact fun hagain => absurd hagain Bool.false_ne_true
  · refine wp_mono ?_ (fun _ _ he => he) (wp_decode_asserting h rfl)
    rintro ret w' ⟨hret, hsame⟩
    rw [← hsame] at hv hmax ⊢
    exact wp_handleAnswer_shrinks h hret hv hmax

theorem wp_parseProtocol {Q : Unit → World σ → Prop} {E : Halt → World σ → Prop} {fuel : Nat} :
    wp (parseProtocol cbs fuel c) Q E w ↔
      if (w.conns c).decodeCb_ then
        wp (repeatFor .outOfFuel (parseRound cbs c) fuel) Q (fun e w' =>
          if isException e then
            Q () (w'.setConn c { w'.conns c with readBuff_ := (w'.conns c).readBuff_.reset })
          else E e w') w
      else Q () w := by
  unfold parseProtocol
  rw [wp_bind, wp_get, wp_ite, wp_catching, parseLoop_eq]
  simp only [wp_onReadBuff, wp_pure]

/-- With fewer than 2^31 readable bytes, no call of the decoder is given a
    wrong length. -/
theorem wp_parseProtocol_asserting (h : ParseCallbacks answer (· ≠ .assertFailed) c cbs)
    (hv : (w.conns c).readBuff_.Valid)
    (hmax : (w.conns c).readBuff_.readableBytes < 2 ^ 31) (fuel : Nat) :
    wp (parseProtocol (asserting cbs) fuel c) (fun _ _ => True)
      (fun e _ => e ≠ .assertFailed) w := by
  rw [wp_parseProtocol]
  split
  · have hloop : wp (repeatFor .outOfFuel (parseRound (asserting cbs) c) fuel) (fun _ _ => True)
        (fun e _ => e ≠ .assertFailed) w :=
      errors_of_invariant
        (I := fun w' => (w'.conns c).readBuff_.Valid ∧
          (w'.conns c).readBuff_.readableBytes < 2 ^ 31)
        (by decide) (fun w' hI => wp_parseRound_asserting h hI.1 hI.2) fuel w ⟨hv, hmax⟩
    refine wp_mono (fun _ _ ht => ht) (fun e w' he => ?_) hloop
    split
    · trivial
    · exact he
  · trivial

/-- With more, the first call is. -/
theorem wp_parseProtocol_distorted (hdecode : (w.conns c).decodeCb_ = true)
    (hmax : 2 ^ 31 ≤ (w.conns c).readBuff_.readableBytes) :
    wp (parseProtocol (asserting cbs) 1 c) (fun _ _ => False)
      (fun e _ => e = .assertFailed) w := by
  have hlt := toInt32_lt (w.conns c).readBuff_.readableBytes
  have hround : wp (parseRound (asserting cbs) c) (fun _ _ => False)
      (fun e _ => e = .assertFailed) w := by
    rw [wp_parseRound, if_neg (by omega)]
    generalize toInt32 (w.conns c).readBuff_.readableBytes = bufferSize at hlt
    exact wp_mono (fun _ _ hf => hf.elim) (fun _ _ he => he)
      (wp_decode_asserting_fails (by omega))
  rw [wp_parseProtocol, if_pos hdecode, wp_repeatFor_succ]
  unfold wp at hround
  cases hrun : (parseRound (asserting cbs) c).run w with
  | ok again w' =>
    rw [hrun] at hround
    exact hround.elim
  | error e w' =>
    rw [hrun] at hround
    dsimp only at hround ⊢
    rw [hround]
    exact rfl

/-! ## Section 4: When the length is right -/

/-- Nothing was read; or the number of bytes read is a positive `int`, and if
    there is a decoder, all that is readable then is fewer than 2^31 bytes. -/
def Fits (x : XConnection) (total : Nat) : Prop :=
  total = 0 ∨ (0 < toInt32 total ∧
    (x.decodeCb_ = true → x.readBuff_.readableBytes + total < 2 ^ 31))

theorem undistorted_of_fits (h : ParseCallbacks answer (· ≠ .assertFailed) c cbs)
    (hv : (w.conns c).readBuff_.Valid)
    (hreads : w.reads = readsOf chunks (.fail .EAGAIN) :: rest) (hne : ∀ d ∈ chunks, d ≠ [])
    (hread : (readLoop (readsOf chunks (.fail .EAGAIN)) 0 (w.conns c).readBuff_).isOk)
    (hfits : Fits (w.conns c) chunks.flatten.length) :
    Undistorted cbs c chunks.flatten.length w := by
  obtain ⟨w₁, hhas, hmsg⟩ := wp_readMsgWith hv hreads hne hread
  rcases hfits with hzero | ⟨hpos, hmax⟩
  · have hint : toInt32 chunks.flatten.length = 0 := by
      rw [hzero]
      rfl
    refine ⟨fun fuel => ?_, fun hpos => absurd hzero (Nat.pos_iff_ne_zero.mp hpos), fun fuel => ?_⟩
    · rw [readMsg_eq, hmsg, if_neg (by omega)]
      exact Int.le_of_eq hint.symm
    · rw [readMsg_eq, hmsg, if_neg (by omega)]
      trivial
  · refine ⟨fun fuel => ?_, fun _ => ?_, fun fuel => ?_⟩
    · rw [readMsg_eq, hmsg, if_pos hpos]
      unfold wp
      cases (parseProtocol cbs fuel c).run w₁ with
      | ok _ _ => exact Int.le_of_lt hpos
      | error _ _ => trivial
    · rw [hmsg, if_pos hpos]
      rfl
    · rw [readMsg_eq, hmsg, if_pos hpos]
      by_cases hdecode : (w.conns c).decodeCb_ = true
      · apply wp_parseProtocol_asserting h hhas.valid
        rw [hhas.readable]
        exact hmax hdecode
      · rw [wp_parseProtocol, if_neg (by rw [hhas.decodeCb]; exact hdecode)]
        trivial

theorem fits_of_undistorted (hv : (w.conns c).readBuff_.Valid)
    (hreads : w.reads = readsOf chunks (.fail .EAGAIN) :: rest) (hne : ∀ d ∈ chunks, d ≠ [])
    (hread : (readLoop (readsOf chunks (.fail .EAGAIN)) 0 (w.conns c).readBuff_).isOk)
    (hund : Undistorted cbs c chunks.flatten.length w) :
    Fits (w.conns c) chunks.flatten.length := by
  obtain ⟨w₁, hhas, hmsg⟩ := wp_readMsgWith hv hreads hne hread
  rcases Nat.eq_zero_or_pos chunks.flatten.length with hzero | hsome
  · exact .inl hzero
  · have hpos : 0 < toInt32 chunks.flatten.length := by
      by_contra hnot
      have hparses := hund.parses hsome
      rw [hmsg, if_neg hnot] at hparses
      exact hparses
    refine .inr ⟨hpos, fun hdecode => ?_⟩
    by_contra hlarge
    have hlengths := hund.lengths 1
    rw [readMsg_eq, hmsg, if_pos hpos] at hlengths
    refine not_wp_of_wp (fun _ _ hf => hf.elim) (fun e _ he hne => hne he)
      (wp_parseProtocol_distorted (hhas.decodeCb.trans hdecode) ?_) hlengths
    rw [hhas.readable]
    omega

/-- `readMsg` and the decoder see the right lengths exactly if the bytes read
    and, for the decoder, the readable bytes are fewer than 2^31; without a
    decoder more is possible, as long as the `int` comes out positive. -/
theorem receive_length_iff (h : ParseCallbacks (fun _ => True) (· ≠ .assertFailed) c cbs)
    (hv : (w.conns c).readBuff_.Valid)
    (hreads : w.reads = readsOf chunks (.fail .EAGAIN) :: rest) (hne : ∀ d ∈ chunks, d ≠ [])
    (hread : (readLoop (readsOf chunks (.fail .EAGAIN)) 0 (w.conns c).readBuff_).isOk) :
    Undistorted cbs c chunks.flatten.length w ↔ Fits (w.conns c) chunks.flatten.length :=
  ⟨fits_of_undistorted hv hreads hne hread, undistorted_of_fits h hv hreads hne hread⟩

end readMsg

/-- A world in which connection 0 has some bytes and reads the chunks next. -/
def receiving (content : List UInt8) (chunks : List (List UInt8)) : World Unit :=
  { received content with reads := [readsOf chunks (.fail .EAGAIN)] }

theorem receive_length_iff_two :
    Undistorted (answering 1) 0 [[1, 2]].flatten.length (receiving [7] [[1, 2]]) ↔
      Fits ((receiving [7] [[1, 2]]).conns 0) [[1, 2]].flatten.length := by
  have hv : ((receiving [7] [[1, 2]]).conns 0).readBuff_.Valid := valid_received (by decide)
  have hreads : (receiving [7] [[1, 2]]).reads = readsOf [[1, 2]] (.fail .EAGAIN) :: [] := rfl
  have hread : (readLoop (readsOf [[1, 2]] (.fail .EAGAIN)) 0
      ((receiving [7] [[1, 2]]).conns 0).readBuff_).isOk := by decide +kernel
  exact receive_length_iff (parseCallbacks_answering trivial) hv hreads (by decide) hread

theorem readableBytes_received {content : List UInt8} (h : 4 + content.length ≤ vectorMaxSize) :
    ((received content).conns 0).readBuff_.readableBytes = content.length := by
  rw [(valid_received h).readableBytes_eq]
  exact Nat.add_sub_cancel_left 4 content.length

/-- One byte more than fits. -/
theorem not_undistorted_of_full {cbs : Callbacks Unit} {content : List UInt8}
    (hfull : content.length + 1 = 2 ^ 31) :
    ¬ Undistorted cbs 0 [[1]].flatten.length (receiving content [[1]]) := by
  have hmax : vectorMaxSize = 2 ^ 63 - 1 := rfl
  have hlen : 4 + content.length ≤ vectorMaxSize := by omega
  have hv : ((receiving content [[1]]).conns 0).readBuff_.Valid := valid_received hlen
  have hreads : (receiving content [[1]]).reads = readsOf [[1]] (.fail .EAGAIN) :: [] := rfl
  have hold : ((receiving content [[1]]).conns 0).readBuff_.readableBytes = content.length :=
    readableBytes_received hlen
  have hstorage : ((receiving content [[1]]).conns 0).readBuff_.buffer_.length +
      [[(1 : UInt8)]].flatten.length ≤ vectorMaxSize := by
    show ([0, 0, 0, 0] ++ content).length + 1 ≤ vectorMaxSize
    rw [List.length_append]
    show 4 + content.length + 1 ≤ vectorMaxSize
    omega
  have hread : (readLoop (readsOf [[1]] (.fail .EAGAIN)) 0
      ((receiving content [[1]]).conns 0).readBuff_).isOk := by
    rcases readLoop_spec (fun n b _ => readLoop_eagain n b) 0 hv (by decide) hstorage rfl with
      ⟨-, d, hd, hbig⟩ | ⟨b', hok, -⟩
    · rw [List.mem_singleton.mp hd] at hbig
      exact absurd hbig (by decide)
    · unfold readsOf
      rw [hok]
      rfl
  intro hund
  rcases fits_of_undistorted hv hreads (by decide) hread hund with hzero | ⟨-, hfits⟩
  · cases hzero
  · have hsmall := hfits rfl
    rw [hold] at hsmall
    exact absurd hsmall (hfull ▸ Nat.lt_irrefl _)

/-- With 2^31 - 1 bytes of an incomplete frame in the buffer, one more byte
    makes the length that the decoder is given negative. -/
theorem receive_length_wrapped :
    toInt32 (2 ^ 31 : Nat) = -(2 ^ 31) ∧
    ¬ Undistorted (answering XF_MSG_DECODE_NOT_ENOUGH) 0 [[1]].flatten.length
      (receiving (List.replicate (2 ^ 31 - 1) 0) [[1]]) := by
  refine ⟨by decide, not_undistorted_of_full ?_⟩
  rw [List.length_replicate, Nat.sub_add_cancel (by decide)]

end XConnection

end XFast
