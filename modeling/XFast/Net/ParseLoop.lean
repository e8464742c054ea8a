import XFast.Framework.Loop
import XFast.Net.Framing

/-! # The parse loop and its decoder

    `parseProtocol` asks the decoder about the readable bytes until none are
    left.  What the decoder answers becomes the length of a frame, after a
    comparison with the number of readable bytes from above only: an answer of
    zero takes nothing off the buffer, and a small negative one that is none
    of the two codes wraps around when the length of the reserved header is
    added to it.

    Section 1 cuts the loop into rounds; section 3 says what a round does for
    each length; the rest is about whole loops and single rounds. -/

namespace XFast

open Program Slice

variable {σ : Type}

namespace XConnection

/-! ## Section 1: Rounds -/

def XF_MSG_DECODE_OK : Int := 0

/-- The length of the frame for the answer `ret` of the decoder. -/
def frameLength (bufferSize ret : Int) : Int := if ret > bufferSize then bufferSize else ret

/-- What an iteration does with the answer; says whether the loop goes on. -/
def handleAnswer (cbs : Callbacks σ) (c : ConnId) (bufferSize ret : Int) : LoopM σ Bool :=
  if ret = XF_MSG_DECODE_ERR then do
    onReadBuff c (fun b => .ok b.reset)
    return false
  else if ret = XF_MSG_DECODE_NOT_ENOUGH then
    return false
  else do
    let commitBuffer ← takeFrame c (frameLength bufferSize ret)
    commit cbs c commitBuffer
    return true

/-- One iteration of the loop of `parseProtocol`. -/
def parseRound (cbs : Callbacks σ) (c : ConnId) : LoopM σ Bool := do
  let w ← get
  if (w.conns c).readBuff_.readableBytes = 0 then
    return false
  else do
    let bufferSize := toInt32 (w.conns c).readBuff_.readableBytes
    let ret ← decode cbs c bufferSize
    handleAnswer cbs c bufferSize ret

/-- One iteration inside the `try` of `parseProtocol`. -/
def parseIteration (cbs : Callbacks σ) (c : ConnId) : LoopM σ Bool :=
  catching isException (parseRound cbs c) do
    onReadBuff c (fun b => .ok b.reset)
    return false

variable {c : ConnId} {cbs : Callbacks σ} {w : World σ}

theorem wp_handleAnswer {Q : Bool → World σ → Prop} {E : Halt → World σ → Prop}
    (bufferSize ret : Int) :
    wp (handleAnswer cbs c bufferSize ret) Q E w ↔
      if ret = XF_MSG_DECODE_ERR then
        Q false (w.setConn c { w.conns c with readBuff_ := (w.conns c).readBuff_.reset })
      else if ret = XF_MSG_DECODE_NOT_ENOUGH then Q false w
      else
        wp (takeFrame c (frameLength bufferSize ret))
          (fun b w' => wp (commit cbs c b) (fun _ w'' => Q true w'') E w') E w := by
  simp only [handleAnswer, wp_ite, wp_bind, wp_onReadBuff, wp_pure]

theorem wp_parseRound {Q : Bool → World σ → Prop} {E : Halt → World σ → Prop} :
    wp (parseRound cbs c) Q E w ↔
      if (w.conns c).readBuff_.readableBytes = 0 then Q false w
      else
        wp (decode cbs c (toInt32 (w.conns c).readBuff_.readableBytes))
          (fun ret w' => wp (handleAnswer cbs c
            (toInt32 (w.conns c).readBuff_.readableBytes) ret) Q E w') E w := by
  simp only [parseRound, wp_bind, wp_get, wp_ite, wp_pure]

/-- The loop is a repetition of its iterations. -/
theorem parseLoop_eq (cbs : Callbacks σ) (c : ConnId) (fuel : Nat) :
    parseLoop cbs c fuel = repeatFor .outOfFuel (parseRound cbs c) fuel := by
  induction fuel with
  | zero => rfl
  | succ fuel ih =>
    funext w
    apply run_eq_of_wp
    intro Q E
    simp only [wp_bind, wp_get, wp_ite, wp_parseRound, wp_handleAnswer,
      wp_onReadBuff, wp_pure, frameLength, ih, Bool.false_eq_true, if_false, if_true]

/-! ## Section 2: A frame of any length -/

/-- Lengths -1 to -4: the reserved header makes them wrap around, so a buffer
    of at most three bytes is constructed that believes in a huge free space,
    and the copy runs over the end of `readBuff_`. -/
theorem wp_takeFrame_wrapped {len : Int} (hlo : -4 ≤ len) (hneg : len < 0)
    (hv : (w.conns c).readBuff_.Valid) :
    wp (takeFrame c len) (fun _ _ => False) (fun e w' => e = .memoryFault ∧ w' = w) w := by
  have hsize := toSize_neg (by omega) hneg
  have hshort : (w.conns c).readBuff_.peek.length ≤ vectorMaxSize := by
    have hmax := hv.size_le_max
    rw [XBuffer.peek, List.length_drop]
    omega
  have hvec : vectorMaxSize = 2 ^ 63 - 1 := rfl
  -- the constructor passes its assertions, which wrap around like the sum
  have hnew : XBuffer.new (toSize len) =
      .ok (XBuffer.initial (List.replicate (4 - (-len).toNat) 0)) := by
    have hcases : len = -1 ∨ len = -2 ∨ len = -3 ∨ len = -4 := by omega
    rcases hcases with rfl | rfl | rfl | rfl <;> decide +kernel
  have hroom : (XBuffer.initial (List.replicate (4 - (-len).toNat) 0)).writableBytes =
      toSize len := by
    have hcases : len = -1 ∨ len = -2 ∨ len = -3 ∨ len = -4 := by omega
    rcases hcases with rfl | rfl | rfl | rfl <;> decide +kernel
  have hcopy : (XBuffer.initial (List.replicate (4 - (-len).toNat) 0)).appendMem
      (w.conns c).readBuff_.peek (toSize len) = .error .memoryFault := by
    have hfault : readMem (w.conns c).readBuff_.peek 0 (toSize len) = .error .memoryFault :=
      if_neg (by omega)
    simp only [XBuffer.appendMem, XBuffer.ensureWritableBytes, hroom, Nat.lt_irrefl, if_false,
      pure_eq_ok, ok_bind, Nat.le_refl, cAssert_true, hfault, error_bind]
  unfold takeFrame
  rw [wp_bind, hnew, wp_lift_ok, wp_bind, wp_get, wp_bind, hcopy, wp_lift_error]
  exact ⟨rfl, rfl⟩

/-- Lengths below: no vector has such a size. -/
theorem wp_takeFrame_refused {len : Int} (hlo : -(2 ^ 31) ≤ len) (hhi : len < -4) :
    wp (takeFrame c len) (fun _ _ => False) (fun e w' => e = .exception ∧ w' = w) w := by
  have hsize := toSize_neg hlo (by omega)
  have hhead : XBuffer.kDiscardableSize = 4 := rfl
  have hvec : vectorMaxSize = 2 ^ 63 - 1 := rfl
  have hmod : sizeModulus = 2 ^ 64 := rfl
  have hnew : XBuffer.new (toSize len) = .error .exception :=
    XBuffer.new_exception (by omega) (by omega)
  unfold takeFrame
  rw [wp_bind, hnew, wp_lift_error]
  exact ⟨rfl, rfl⟩

/-- Any other length is one of bytes that are there. -/
theorem wp_takeFrame_bytes {len : Int} (h0 : 0 ≤ len)
    (hle : len ≤ (w.conns c).readBuff_.readableBytes) (hmax : len < 2 ^ 31)
    (hv : (w.conns c).readBuff_.Valid) :
    wp (takeFrame c len)
      (fun commitBuffer w' =>
        commitBuffer.readable = (w.conns c).readBuff_.readable.take len.toNat ∧
        (w'.conns c).readBuff_.Valid ∧
        (w'.conns c).readBuff_.readable = (w.conns c).readBuff_.readable.drop len.toNat)
      (fun _ _ => False) w := by
  obtain ⟨n, rfl⟩ := Int.eq_ofNat_of_zero_le h0
  apply wp_mono _ (fun _ _ he => he) (wp_takeFrame_framed hv (by omega) (by omega))
  intro commitBuffer w' hout
  obtain ⟨htaken, b, hvb, hread, _, rfl⟩ := hout
  refine ⟨htaken, ?_, ?_⟩
  · simpa using hvb
  · simpa using hread

/-! ## Section 3: One round -/

/-- What the callbacks may do: the decoder gives an answer of some kind, each
    of them may raise errors of some kind, and `readBuff_`, which is private
    to the connection, is not theirs to change. -/
structure ParseCallbacks (answer : Int → Prop) (raise : Halt → Prop) (c : ConnId)
    (cbs : Callbacks σ) : Prop where
  decodeCb : ∀ buffer buffLen w, wp (cbs.decodeCb_ c buffer buffLen)
    (fun ret w' => answer (toInt32 ret) ∧ (w'.conns c).readBuff_ = (w.conns c).readBuff_)
    (fun e _ => raise e) w
  msgCommitCb : ∀ b w, wp (cbs.msgCommitCb_ c b)
    (fun _ w' => (w'.conns c).readBuff_ = (w.conns c).readBuff_) (fun e _ => raise e) w

/-- The decoder is asked, and gives the answer `ret`. -/
def Answers (cbs : Callbacks σ) (c : ConnId) (w : World σ) (ret : Int) : Prop :=
  (w.conns c).readBuff_.readableBytes ≠ 0 ∧
    ∃ w', (decode cbs c (toInt32 (w.conns c).readBuff_.readableBytes)).run w = .ok ret w'

variable {answer : Int → Prop} {raise : Halt → Prop}

theorem wp_decode_answer (h : ParseCallbacks answer raise c cbs) (bufferSize : Int) :
    wp (decode cbs c bufferSize)
      (fun ret w' => answer ret ∧ (w'.conns c).readBuff_ = (w.conns c).readBuff_)
      (fun e _ => raise e) w := by
  unfold decode
  rw [wp_bind, wp_emit, wp_bind, wp_get, wp_bind]
  apply wp_mono _ (fun _ _ he => he) (h.decodeCb _ _ _)
  intro ret w' hout
  rw [wp_bind, wp_emit, wp_pure]
  simpa using hout

theorem wp_commit_returns (h : ParseCallbacks answer raise c cbs) (b : XBuffer) :
    wp (commit cbs c b) (fun _ w' => (w'.conns c).readBuff_ = (w.conns c).readBuff_)
      (fun e _ => raise e) w := by
  unfold commit
  rw [wp_bind]
  apply wp_mono _ (fun _ _ he => he) (h.msgCommitCb b w)
  intro _ w' hsame
  rw [wp_bind, wp_get, wp_emit]
  simpa using hsame

theorem frameLength_le (bufferSize ret : Int) : frameLength bufferSize ret ≤ bufferSize := by
  unfold frameLength
  split <;> omega

/-- An answer that becomes a length of bytes that are there: the frame is
    taken off and committed. -/
theorem wp_handleAnswer_bytes (h : ParseCallbacks answer raise c cbs) {bufferSize ret : Int}
    (herr : ret ≠ XF_MSG_DECODE_ERR) (hmore : ret ≠ XF_MSG_DECODE_NOT_ENOUGH)
    (h0 : 0 ≤ frameLength bufferSize ret) (hmax : bufferSize < 2 ^ 31)
    (hle : bufferSize ≤ (w.conns c).readBuff_.readableBytes)
    (hv : (w.conns c).readBuff_.Valid) :
    wp (handleAnswer cbs c bufferSize ret)
      (fun again w' => again = true ∧ (w'.conns c).readBuff_.Valid ∧
        (w'.conns c).readBuff_.readable =
          (w.conns c).readBuff_.readable.drop (frameLength bufferSize ret).toNat)
      (fun e _ => raise e) w := by
  have hlen := frameLength_le bufferSize ret
  rw [wp_handleAnswer, if_neg herr, if_neg hmore]
  refine wp_mono ?_ (fun _ _ he => he.elim)
    (wp_takeFrame_bytes h0 (Int.le_trans hlen hle) (Int.lt_of_le_of_lt hlen hmax) hv)
  intro commitBuffer w₁ hout
  obtain ⟨_, hv₁, hread₁⟩ := hout
  apply wp_mono _ (fun _ _ he => he) (wp_commit_returns h commitBuffer)
  intro _ w₂ hsame
  rw [hsame]
  exact ⟨rfl, hv₁, hread₁⟩

/-- An answer that becomes one of the lengths -1 to -4. -/
theorem wp_handleAnswer_wrapped {bufferSize ret : Int}
    (herr : ret ≠ XF_MSG_DECODE_ERR) (hmore : ret ≠ XF_MSG_DECODE_NOT_ENOUGH)
    (hlo : -4 ≤ frameLength bufferSize ret) (hneg : frameLength bufferSize ret < 0)
    (hv : (w.conns c).readBuff_.Valid) :
    wp (handleAnswer cbs c bufferSize ret) (fun _ _ => False)
      (fun e _ => e = .memoryFault) w := by
  rw [wp_handleAnswer, if_neg herr, if_neg hmore]
  exact wp_mono (fun _ _ hf => hf.elim) (fun _ _ he => he.1) (wp_takeFrame_wrapped hlo hneg hv)

/-- An answer that becomes a length below. -/
theorem wp_handleAnswer_refused {bufferSize ret : Int}
    (herr : ret ≠ XF_MSG_DECODE_ERR) (hmore : ret ≠ XF_MSG_DECODE_NOT_ENOUGH)
    (hlo : -(2 ^ 31) ≤ frameLength bufferSize ret) (hhi : frameLength bufferSize ret < -4) :
    wp (handleAnswer cbs c bufferSize ret) (fun _ _ => False)
      (fun e _ => e = .exception) w := by
  rw [wp_handleAnswer, if_neg herr, if_neg hmore]
  exact wp_mono (fun _ _ hf => hf.elim) (fun _ _ he => he.1) (wp_takeFrame_refused hlo hhi)

/-! ## Section 4: The whole loop -/

/-- The documented results of a decoder: one of the codes, or a length. -/
def Documented (ret : Int) : Prop :=
  ret = XF_MSG_DECODE_OK ∨ ret = XF_MSG_DECODE_ERR ∨ ret = XF_MSG_DECODE_NOT_ENOUGH ∨ 0 < ret

/-- The answer `ret` about so many readable bytes becomes a length that takes
    nothing off, or that wraps around. -/
def Stalls (readableBytes : Nat) (ret : Int) : Prop :=
  0 ≤ ret ∧ -4 ≤ frameLength (toInt32 readableBytes) ret ∧
    frameLength (toInt32 readableBytes) ret ≤ 0

/-- For buffers whose size is an `int`, that is `XF_MSG_DECODE_OK`. -/
theorem stalls_iff {readableBytes : Nat} (h0 : 0 < readableBytes) (hmax : readableBytes < 2 ^ 31)
    (ret : Int) : Stalls readableBytes ret ↔ ret = XF_MSG_DECODE_OK := by
  have hsize : toInt32 readableBytes = readableBytes := toInt32_of_range (by omega) (by omega)
  unfold Stalls frameLength XF_MSG_DECODE_OK
  rw [hsize]
  split <;> omega

/-- The parse loop ends, and each of its iterations leaves it or makes the
    readable bytes fewer. -/
structure ParseEnds (cbs : Callbacks σ) (c : ConnId) (w : World σ) : Prop where
  returns : ∃ fuel w', (parseProtocol cbs fuel c).run w = .ok () w'
  shrinks : ∀ w₁ w₂, Rounds (parseRound cbs c) w w₁ → (parseRound cbs c).run w₁ = .ok true w₂ →
    (w₂.conns c).readBuff_.readableBytes < (w₁.conns c).readBuff_.readableBytes

/-- A decoder that always answers does so with one answer, and the rest of the
    round depends on it. -/
theorem exists_answer (h : ParseCallbacks answer (fun _ => False) c cbs)
    (hn : (w.conns c).readBuff_.readableBytes ≠ 0) :
    ∃ ret w₁, answer ret ∧ (w₁.conns c).readBuff_ = (w.conns c).readBuff_ ∧
      (∀ ret', Answers cbs c w ret' ↔ ret' = ret) ∧
      ∀ Q E, wp (parseRound cbs c) Q E w ↔
        wp (handleAnswer cbs c (toInt32 (w.conns c).readBuff_.readableBytes) ret) Q E w₁ := by
  obtain ⟨ret, w₁, hrun, hanswer, hsame⟩ := returns_of_wp (wp_decode_answer h
    (toInt32 (w.conns c).readBuff_.readableBytes) (w := w))
  refine ⟨ret, w₁, hanswer, hsame, ?_, ?_⟩
  · intro ret'
    constructor
    · intro hans
      obtain ⟨_, w', hrun'⟩ := hans
      rw [hrun] at hrun'
      cases hrun'
      rfl
    · intro heq
      exact ⟨hn, w₁, heq ▸ hrun⟩
  · intro Q E
    rw [wp_parseRound, if_neg hn, wp_of_run hrun]

/-- A documented answer that does not stall makes progress. -/
theorem wp_handleAnswer_progress (h : ParseCallbacks answer (fun _ => False) c cbs) {ret : Int}
    (hdoc : Documented ret) (hv : (w.conns c).readBuff_.Valid)
    (hn : (w.conns c).readBuff_.readableBytes ≠ 0)
    (hstall : ¬ Stalls (w.conns c).readBuff_.readableBytes ret) :
    wp (handleAnswer cbs c (toInt32 (w.conns c).readBuff_.readableBytes) ret)
      (fun again w' => again = true → (w'.conns c).readBuff_.Valid ∧
        (w'.conns c).readBuff_.readableBytes < (w.conns c).readBuff_.readableBytes)
      (fun e _ => e = .exception) w := by
  by_cases herr : ret = XF_MSG_DECODE_ERR
  · rw [wp_handleAnswer, if_pos herr]
    exact fun hagain => absurd hagain Bool.false_ne_true
  · by_cases hmore : ret = XF_MSG_DECODE_NOT_ENOUGH
    · rw [wp_handleAnswer, if_neg herr, if_pos hmore]
      exact fun hagain => absurd hagain Bool.false_ne_true
    · have h0 : 0 ≤ ret := by
        unfold Documented XF_MSG_DECODE_OK at hdoc
        omega
      have hlow := le_toInt32 (w.conns c).readBuff_.readableBytes
      have hhigh := toInt32_lt (w.conns c).readBuff_.readableBytes
      have hsize := toInt32_le (Int.natCast_nonneg (w.conns c).readBuff_.readableBytes)
      by_cases hpos : 0 < frameLength (toInt32 (w.conns c).readBuff_.readableBytes) ret
      · -- some bytes are taken off
        apply wp_mono _ (fun _ _ he => he.elim)
          (wp_handleAnswer_bytes h herr hmore (by omega) hhigh hsize hv)
        intro again w' hout _
        obtain ⟨_, hv', hread'⟩ := hout
        refine ⟨hv', ?_⟩
        rw [← hv'.length_readable, hread', List.length_drop, hv.length_readable]
        omega
      · -- the number of readable bytes is no positive `int`
        have hlo : -(2 ^ 31) ≤
            frameLength (toInt32 (w.conns c).readBuff_.readableBytes) ret := by
          unfold frameLength
          split <;> omega
        have hhi : frameLength (toInt32 (w.conns c).readBuff_.readableBytes) ret < -4 := by
          by_contra hge
          exact hstall ⟨h0, by omega, by omega⟩
        exact wp_mono (fun _ _ hf => hf.elim) (fun _ _ he => he)
          (wp_handleAnswer_refused herr hmore hlo hhi)

/-- An answer that stalls makes none: the loop goes on with the same bytes, or
    memory outside of the buffer is read. -/
theorem wp_handleAnswer_stalled (h : ParseCallbacks answer (fun _ => False) c cbs) {ret : Int}
    (hv : (w.conns c).readBuff_.Valid)
    (hstall : Stalls (w.conns c).readBuff_.readableBytes ret) :
    wp (handleAnswer cbs c (toInt32 (w.conns c).readBuff_.readableBytes) ret)
      (fun again w' => again = true ∧ (w'.conns c).readBuff_.Valid ∧
        (w'.conns c).readBuff_.readableBytes = (w.conns c).readBuff_.readableBytes)
      (fun e _ => e = .memoryFault) w := by
  obtain ⟨h0, hlo, hhi⟩ := hstall
  have herr : ret ≠ XF_MSG_DECODE_ERR := by
    unfold XF_MSG_DECODE_ERR
    omega
  have hmore : ret ≠ XF_MSG_DECODE_NOT_ENOUGH := by
    unfold XF_MSG_DECODE_NOT_ENOUGH
    omega
  by_cases hneg : frameLength (toInt32 (w.conns c).readBuff_.readableBytes) ret < 0
  · exact wp_mono (fun _ _ hf => hf.elim) (fun _ _ he => he)
      (wp_handleAnswer_wrapped herr hmore hlo hneg hv)
  · have hzero : frameLength (toInt32 (w.conns c).readBuff_.readableBytes) ret = 0 := by omega
    apply wp_mono _ (fun _ _ he => he.elim) (wp_handleAnswer_bytes h herr hmore (by omega)
      (toInt32_lt _) (toInt32_le (Int.natCast_nonneg _)) hv)
    intro again w' hout
    obtain ⟨hagain, hv', hread'⟩ := hout
    refine ⟨hagain, hv', ?_⟩
    rw [← hv'.length_readable, hread', hzero, Int.toNat_zero, List.drop_zero, hv.length_readable]

/-- A round that goes on leaves a valid buffer with no more bytes, and fewer
    exactly if the answer does not stall. -/
theorem parseRound_spec (h : ParseCallbacks Documented (fun _ => False) c cbs)
    (hv : (w.conns c).readBuff_.Valid) :
    (∀ w', (parseRound cbs c).run w = .ok true w' → (w'.conns c).readBuff_.Valid ∧
        (w'.conns c).readBuff_.readableBytes ≤ (w.conns c).readBuff_.readableBytes) ∧
      (RoundProgresses (parseRound cbs c) (· = .exception)
          (fun w => (w.conns c).readBuff_.readableBytes) w ↔
        ∀ ret, Answers cbs c w ret → ¬ Stalls (w.conns c).readBuff_.readableBytes ret) := by
  rw [roundProgresses_iff_wp]
  by_cases hn : (w.conns c).readBuff_.readableBytes = 0
  · -- nothing to parse: the loop is left
    have hleft : ∀ Q E, wp (parseRound cbs c) Q E w ↔ Q false w := by
      intro Q E
      rw [wp_parseRound, if_pos hn]
    constructor
    · intro w' hrun
      have hfalse := (hleft (fun again _ => again = false) (fun _ _ => True)).mpr rfl
      exact absurd (wp_run_ok hfalse hrun) (by decide)
    · rw [hleft]
      exact iff_of_true (fun hagain => absurd hagain Bool.false_ne_true)
        fun ret hans => absurd hn hans.1
  · obtain ⟨ret, w₁, hdoc, hsame, hunique, hround⟩ := exists_answer h hn
    have hv₁ : (w₁.conns c).readBuff_.Valid := hsame ▸ hv
    by_cases hstall : Stalls (w.conns c).readBuff_.readableBytes ret
    · have hout := wp_handleAnswer_stalled h hv₁ (hsame ▸ hstall)
      rw [hsame, ← hround] at hout
      constructor
      · intro w' hrun
        obtain ⟨_, hv', hequal⟩ := wp_run_ok hout hrun
        exact ⟨hv', Nat.le_of_eq hequal⟩
      · refine iff_of_false ?_ (fun hnone => hnone ret ((hunique ret).mpr rfl) hstall)
        apply not_wp_of_wp _ _ hout
        · intro again w' hgone hless
          have hsmaller := hless hgone.1
          have hequal := hgone.2.2
          omega
        · intro e _ he hex
          rw [he] at hex
          cases hex
    · have hout := wp_handleAnswer_progress h hdoc hv₁ (hsame ▸ hn) (hsame ▸ hstall)
      rw [hsame, ← hround] at hout
      constructor
      · intro w' hrun
        obtain ⟨hv', hless⟩ := wp_run_ok hout hrun rfl
        exact ⟨hv', Nat.le_of_lt hless⟩
      · refine iff_of_true ?_ (fun ret' hans => (hunique ret').mp hans ▸ hstall)
        exact wp_mono (fun _ _ hprogress hagain => (hprogress hagain).2) (fun _ _ he => he) hout

/-- `parseProtocol` returns if its loop is left, by a return or by a
    `std::exception`. -/
theorem wp_parseProtocol_returns (hset : (w.conns c).decodeCb_ = true) (fuel : Nat) :
    wp (parseProtocol cbs fuel c) (fun _ _ => True) (fun _ _ => False) w ↔
      wp (repeatFor .outOfFuel (parseRound cbs c) fuel) (fun _ _ => True)
        (fun e _ => e = .exception) w := by
  unfold parseProtocol
  simp only [wp_bind, wp_get, hset, if_true, wp_catching, wp_onReadBuff, parseLoop_eq]
  constructor
  · apply wp_mono (fun _ _ _ => trivial)
    intro e w' he
    by_cases hcaught : isException e = true
    · exact eq_of_isException hcaught
    · rw [if_neg hcaught] at he
      exact he.elim
  · apply wp_mono (fun _ _ _ => trivial)
    intro e w' he
    rw [he]
    trivial

theorem parseEnds_iff_progresses (hset : (w.conns c).decodeCb_ = true) :
    ParseEnds cbs c w ↔ Progresses .outOfFuel (parseRound cbs c) (· = .exception)
      (fun w => (w.conns c).readBuff_.readableBytes) w := by
  constructor
  · intro h
    obtain ⟨fuel, w', hrun⟩ := h.returns
    exact ⟨⟨fuel, (wp_parseProtocol_returns hset fuel).mp ((wp_of_run hrun).mpr trivial)⟩,
      h.shrinks⟩
  · intro h
    obtain ⟨fuel, hends⟩ := h.ends
    obtain ⟨_, w', hrun, _⟩ := returns_of_wp ((wp_parseProtocol_returns hset fuel).mpr hends)
    exact ⟨⟨fuel, w', hrun⟩, h.smaller⟩

/-- **The parse loop.**  For every content of `readBuff_`, every decoder that
    gives documented results and every commit callback that returns: the loop
    ends, each of its iterations leaving it or making the readable bytes fewer,
    exactly if the decoder is never answered into a stall.  For a content whose
    size is an `int` this means that the decoder never answers
    `XF_MSG_DECODE_OK`. -/
theorem parseEnds_iff (h : ParseCallbacks Documented (fun _ => False) c cbs)
    (hv : (w.conns c).readBuff_.Valid) (hset : (w.conns c).decodeCb_ = true) :
    (ParseEnds cbs c w ↔ ∀ w₁, Rounds (parseRound cbs c) w w₁ → ∀ ret, Answers cbs c w₁ ret →
      ¬ Stalls (w₁.conns c).readBuff_.readableBytes ret) ∧
    ((w.conns c).readBuff_.readableBytes < 2 ^ 31 →
      (ParseEnds cbs c w ↔ ∀ w₁, Rounds (parseRound cbs c) w w₁ →
        ¬ Answers cbs c w₁ XF_MSG_DECODE_OK)) := by
  -- along the rounds the buffer stays valid and does not grow
  have hround : ∀ w₁, Rounds (parseRound cbs c) w w₁ → (w₁.conns c).readBuff_.Valid ∧
      (w₁.conns c).readBuff_.readableBytes ≤ (w.conns c).readBuff_.readableBytes := by
    intro w₁ hrounds
    refine hrounds.invariant (I := fun w₁ => (w₁.conns c).readBuff_.Valid ∧
      (w₁.conns c).readBuff_.readableBytes ≤ (w.conns c).readBuff_.readableBytes) ?_
      ⟨hv, Nat.le_refl _⟩
    intro w₂ w₃ hI hrun
    obtain ⟨hv₃, hle⟩ := (parseRound_spec h hI.1).1 w₃ hrun
    exact ⟨hv₃, Nat.le_trans hle hI.2⟩
  have hends : ParseEnds cbs c w ↔ ∀ w₁, Rounds (parseRound cbs c) w w₁ →
      ∀ ret, Answers cbs c w₁ ret → ¬ Stalls (w₁.conns c).readBuff_.readableBytes ret := by
    rw [parseEnds_iff_progresses hset, progresses_iff (by decide)]
    apply forall_congr'
    intro w₁
    apply forall_congr'
    intro hrounds
    exact (parseRound_spec h (hround w₁ hrounds).1).2
  refine ⟨hends, ?_⟩
  intro hmax
  rw [hends]
  apply forall_congr'
  intro w₁
  apply forall_congr'
  intro hrounds
  obtain ⟨_, hle⟩ := hround w₁ hrounds
  constructor
  · intro hnone hok
    have hpos := Nat.pos_of_ne_zero hok.1
    exact hnone _ hok ((stalls_iff hpos (by omega) _).mpr rfl)
  · intro hnever ret hans hstall
    have hpos := Nat.pos_of_ne_zero hans.1
    rw [stalls_iff hpos (by omega)] at hstall
    exact hnever (hstall ▸ hans)

/-- Callbacks whose decoder gives one answer, whatever it is asked. -/
def answering (ret : Int) : Callbacks Unit :=
  { listen twoByteDecoder with decodeCb_ := fun _ _ _ => pure ret }

/-- A world in which connection 0 has received the bytes. -/
def received (content : List UInt8) : World Unit :=
  let w := World.listening []
  w.setConn 0 { w.conns 0 with readBuff_ := ⟨[0, 0, 0, 0] ++ content, 4, 4 + content.length⟩ }

theorem parseCallbacks_answering {ret : Int} (hanswer : answer (toInt32 ret)) :
    ParseCallbacks answer raise c (answering ret) :=
  ⟨fun _ _ _ => ⟨hanswer, rfl⟩, fun _ w => Eq.refl (w.conns c).readBuff_⟩

theorem valid_received {content : List UInt8} (h : 4 + content.length ≤ vectorMaxSize) :
    ((received content).conns 0).readBuff_.Valid := by
  have hlen : ([0, 0, 0, 0] ++ content).length = 4 + content.length := by
    rw [List.length_append]
    rfl
  constructor
  · exact hlen ▸ Nat.le_add_right 4 content.length
  · exact Nat.le_add_right 4 content.length
  · exact Nat.le_of_eq hlen.symm
  · exact hlen ▸ h

/-- Three bytes and a decoder that takes one at a time. -/
theorem parseEnds_iff_three : ParseEnds (answering 1) 0 (received [1, 2, 3]) := by
  refine ((parseEnds_iff (parseCallbacks_answering (Or.inr (Or.inr (Or.inr (by decide)))))
    (valid_received (by decide)) rfl).2 (by decide)).mpr ?_
  intro w₁ _ hok
  obtain ⟨_, w', hrun⟩ := hok
  have hone : ParseCallbacks (· = 1) (fun _ => False) 0 (answering 1) :=
    parseCallbacks_answering (by decide)
  exact absurd (wp_run_ok (wp_decode_answer hone _) hrun).1 (by decide)

/-- A decoder that answers `XF_MSG_DECODE_OK` leaves the bytes where they are. -/
theorem wp_parseRound_ok (h : ParseCallbacks (· = XF_MSG_DECODE_OK) (fun _ => False) c cbs)
    {content : List UInt8} (hne : content ≠ []) (hmax : content.length < 2 ^ 31)
    (hv : (w.conns c).readBuff_.Valid) (hread : (w.conns c).readBuff_.readable = content) :
    wp (parseRound cbs c)
      (fun again w' => again = true ∧ (w'.conns c).readBuff_.Valid ∧
        (w'.conns c).readBuff_.readable = content)
      (fun _ _ => False) w := by
  have hlen := hv.length_readable
  rw [hread] at hlen
  have hpos : 0 < content.length := List.length_pos_of_ne_nil hne
  have hsize : toInt32 (w.conns c).readBuff_.readableBytes = content.length := by
    rw [← hlen]
    exact toInt32_of_range (by omega) (by omega)
  obtain ⟨ret, w₁, hok, hsame, _, hround⟩ := exists_answer h (w := w) (by omega)
  have hzero : frameLength content.length ret = 0 := by
    unfold frameLength
    rw [hok]
    exact if_neg (by unfold XF_MSG_DECODE_OK; omega)
  rw [hround, hsize]
  apply wp_mono _ (fun _ _ he => he) (wp_handleAnswer_bytes h (hok ▸ by decide) (hok ▸ by decide)
    (Int.le_of_eq hzero.symm) (by omega) (by rw [hsame]; omega) (hsame ▸ hv))
  intro again w' hout
  obtain ⟨hagain, hv', hread'⟩ := hout
  refine ⟨hagain, hv', ?_⟩
  rw [hread', hzero, hsame, hread]
  rfl

/-- So the loop never ends. -/
theorem parseProtocol_never_returns
    (h : ParseCallbacks (· = XF_MSG_DECODE_OK) (fun _ => False) c cbs) {content : List UInt8}
    (hne : content ≠ []) (hmax : content.length < 2 ^ 31) (hset : (w.conns c).decodeCb_ = true)
    (hv : (w.conns c).readBuff_.Valid) (hread : (w.conns c).readBuff_.readable = content)
    (fuel : Nat) (w' : World σ) : (parseProtocol cbs fuel c).run w ≠ .ok () w' := by
  intro hrun
  have hexhausts : wp (repeatFor .outOfFuel (parseRound cbs c) fuel) (fun _ _ => False)
      (fun e _ => e = .outOfFuel) w :=
    exhausts_of_again
      (I := fun w => (w.conns c).readBuff_.Valid ∧ (w.conns c).readBuff_.readable = content)
      (fun w hI => wp_parseRound_ok h hne hmax hI.1 hI.2) fuel w ⟨hv, hread⟩
  have hreturns := (wp_parseProtocol_returns hset fuel).mp ((wp_of_run hrun).mpr trivial)
  apply not_wp_of_wp (fun _ _ hf => hf.elim) _ hexhausts hreturns
  intro e _ he hex
  rw [he] at hex
  cases hex

/-- One byte and a decoder that answers `XF_MSG_DECODE_OK`. -/
theorem decode_ok_never_returns :
    (∀ fuel w', (parseProtocol (answering XF_MSG_DECODE_OK) fuel 0).run (received [1]) ≠
      .ok () w') ∧ ¬ ParseEnds (answering XF_MSG_DECODE_OK) 0 (received [1]) := by
  have hok : ParseCallbacks (· = XF_MSG_DECODE_OK) (fun _ => False) 0
      (answering XF_MSG_DECODE_OK) := parseCallbacks_answering (by decide)
  have hread : ((received [1]).conns 0).readBuff_.readable = [1] := rfl
  have hnever := parseProtocol_never_returns hok (by decide) (by decide) rfl
    (valid_received (by decide)) hread
  refine ⟨hnever, ?_⟩
  intro hends
  obtain ⟨fuel, w', hrun⟩ := hends.returns
  exact hnever fuel w' hrun

/-! ## Section 5: One iteration -/

/-- The iteration is left normally, so no assertion has failed and no memory
    outside of an object was touched; the readable bytes are a suffix of those
    before; and no more than these were copied to the commit buffer. -/
structure IterationSafe (cbs : Callbacks σ) (c : ConnId) (w : World σ) : Prop where
  suffix : wp (parseIteration cbs c)
    (fun _ w' => (w'.conns c).readBuff_.readable <:+ (w.conns c).readBuff_.readable)
    (fun _ _ => False) w
  copied : ∀ ret w₁ commitBuffer w₂,
    (decode cbs c (toInt32 (w.conns c).readBuff_.readableBytes)).run w = .ok ret w₁ →
    (takeFrame c (frameLength (toInt32 (w.conns c).readBuff_.readableBytes) ret)).run w₁ =
      .ok commitBuffer w₂ →
    commitBuffer.readable.length ≤ (w.conns c).readBuff_.readableBytes

/-- Whatever the length, a copy that returns has copied readable bytes. -/
theorem takeFrame_copied {len : Int} (hlo : -(2 ^ 31) ≤ len) (hmax : len < 2 ^ 31)
    (hle : len ≤ (w.conns c).readBuff_.readableBytes) (hv : (w.conns c).readBuff_.Valid)
    {commitBuffer : XBuffer} {w' : World σ}
    (hrun : (takeFrame c len).run w = .ok commitBuffer w') :
    commitBuffer.readable.length ≤ (w.conns c).readBuff_.readableBytes := by
  by_cases h0 : 0 ≤ len
  · obtain ⟨htaken, _⟩ := wp_run_ok (wp_takeFrame_bytes h0 hle hmax hv) hrun
    rw [htaken, List.length_take, hv.length_readable]
    exact Nat.min_le_right _ _
  · by_cases hwrapped : -4 ≤ len
    · exact (wp_run_ok (wp_takeFrame_wrapped hwrapped (by omega) hv) hrun).elim
    · exact (wp_run_ok (wp_takeFrame_refused (w := w) (c := c) hlo (by omega)) hrun).elim

/-- The iteration is the round, with a handler that empties `readBuff_`. -/
theorem wp_parseIteration {Q : World σ → Prop}
    (hreset : ∀ w', (w'.conns c).readBuff_.readable = [] → Q w') :
    wp (parseIteration cbs c) (fun _ w' => Q w') (fun _ _ => False) w ↔
      wp (parseRound cbs c) (fun _ w' => Q w') (fun e _ => e = .exception) w := by
  unfold parseIteration
  rw [wp_catching]
  constructor
  · apply wp_mono (fun _ _ hQ => hQ)
    intro e w' he
    by_cases hcaught : isException e = true
    · exact eq_of_isException hcaught
    · rw [if_neg hcaught] at he
      exact he.elim
  · apply wp_mono (fun _ _ hQ => hQ)
    intro e w' he
    rw [he, if_pos (by decide), wp_bind, wp_onReadBuff]
    apply hreset
    rw [World.setConn_self]
    exact XBuffer.readable_reset _

/-- The answers that wrap around. -/
def Wraps (ret : Int) : Prop := ret = -3 ∨ ret = -4

instance (ret : Int) : Decidable (Wraps ret) := inferInstanceAs (Decidable (_ ∨ _))

/-- What an iteration does with an answer about a buffer whose size is an `int`. -/
theorem wp_handleAnswer_suffix (h : ParseCallbacks answer (· = .exception) c cbs) {ret : Int}
    (hlo : -(2 ^ 31) ≤ ret) (hv : (w.conns c).readBuff_.Valid)
    (hpos : 0 < (w.conns c).readBuff_.readableBytes)
    (hmax : (w.conns c).readBuff_.readableBytes < 2 ^ 31) :
    wp (handleAnswer cbs c (toInt32 (w.conns c).readBuff_.readableBytes) ret)
      (fun _ w' => (w'.conns c).readBuff_.readable <:+ (w.conns c).readBuff_.readable)
      (fun e _ => e = .exception) w ↔ ¬ Wraps ret := by
  have hsize : toInt32 (w.conns c).readBuff_.readableBytes =
      (w.conns c).readBuff_.readableBytes := toInt32_of_range (by omega) (by omega)
  rw [hsize]
  by_cases herr : ret = XF_MSG_DECODE_ERR
  · rw [wp_handleAnswer, if_pos herr, World.setConn_self, XBuffer.readable_reset]
    refine iff_of_true (List.nil_suffix) ?_
    rw [herr]
    decide
  · by_cases hmore : ret = XF_MSG_DECODE_NOT_ENOUGH
    · rw [wp_handleAnswer, if_neg herr, if_pos hmore]
      refine iff_of_true (List.suffix_refl _) ?_
      rw [hmore]
      decide
    · by_cases h0 : 0 ≤ ret
      · -- zero, or a length, cut to what is there
        have hnonneg : 0 ≤ frameLength (w.conns c).readBuff_.readableBytes ret := by
          unfold frameLength
          split <;> omega
        refine iff_of_true ?_ (by unfold Wraps; omega)
        apply wp_mono _ (fun _ _ he => he)
          (wp_handleAnswer_bytes h herr hmore hnonneg (by omega) (Int.le_refl _) hv)
        intro _ w' hout
        obtain ⟨_, _, hread'⟩ := hout
        rw [hread']
        exact List.drop_suffix _ _
      · have hneg : frameLength (w.conns c).readBuff_.readableBytes ret = ret :=
          if_neg (by omega)
        unfold XF_MSG_DECODE_ERR at herr
        unfold XF_MSG_DECODE_NOT_ENOUGH at hmore
        by_cases hwraps : Wraps ret
        · have hfault : wp (handleAnswer cbs c (w.conns c).readBuff_.readableBytes ret)
              (fun _ _ => False) (fun e _ => e = .memoryFault) w :=
            wp_handleAnswer_wrapped herr hmore
              (by rw [hneg]; unfold Wraps at hwraps; omega) (by omega) hv
          refine iff_of_false ?_ (not_not_intro hwraps)
          apply not_wp_of_wp (fun _ _ hf => hf.elim) _ hfault
          intro e _ he hex
          rw [he] at hex
          cases hex
        · refine iff_of_true ?_ hwraps
          exact wp_mono (fun _ _ hf => hf.elim) (fun _ _ he => he)
            (wp_handleAnswer_refused herr hmore (by omega)
              (by rw [hneg]; unfold Wraps at hwraps; omega))

/-- **One iteration of the parse loop.**  For every content of `readBuff_` of
    1 to 2^31 - 1 bytes, whatever the decoder returns or throws, and whether or
    not the commit callback throws: the iteration is safe exactly if the
    decoder does not answer -3 or -4. -/
theorem iterationSafe_iff (h : ParseCallbacks (fun _ => True) (· = .exception) c cbs)
    (hv : (w.conns c).readBuff_.Valid) (hpos : 0 < (w.conns c).readBuff_.readableBytes)
    (hmax : (w.conns c).readBuff_.readableBytes < 2 ^ 31) :
    IterationSafe cbs c w ↔ ∀ ret, Answers cbs c w ret → ¬ Wraps ret := by
  have hint : ParseCallbacks (fun ret => -(2 ^ 31) ≤ ret ∧ ret < 2 ^ 31) (· = .exception) c cbs :=
    ⟨fun buffer buffLen w => wp_mono
      (fun ret _ hout => ⟨⟨le_toInt32 ret, toInt32_lt ret⟩, hout.2⟩) (fun _ _ he => he)
      (h.decodeCb buffer buffLen w), h.msgCommitCb⟩
  have hn : (w.conns c).readBuff_.readableBytes ≠ 0 := by omega
  have hsize : toInt32 (w.conns c).readBuff_.readableBytes =
      (w.conns c).readBuff_.readableBytes := toInt32_of_range (by omega) (by omega)
  have hsuffix : wp (parseIteration cbs c)
      (fun _ w' => (w'.conns c).readBuff_.readable <:+ (w.conns c).readBuff_.readable)
      (fun _ _ => False) w ↔ wp (parseRound cbs c)
      (fun _ w' => (w'.conns c).readBuff_.readable <:+ (w.conns c).readBuff_.readable)
      (fun e _ => e = .exception) w := by
    apply wp_parseIteration
    intro w' hempty
    rw [hempty]
    exact List.nil_suffix
  have hdecode := wp_decode_answer hint (w := w) (toInt32 (w.conns c).readBuff_.readableBytes)
  cases hrun : (decode cbs c (toInt32 (w.conns c).readBuff_.readableBytes)).run w with
  | error e w₁ =>
    -- the decoder throws, and the handler empties the buffer
    rw [wp, hrun] at hdecode
    refine iff_of_true ⟨?_, fun ret w₂ b w₃ hok => ?_⟩ (fun ret hans => ?_)
    · rw [hsuffix, wp_parseRound, if_neg hn, wp, hrun]
      exact hdecode
    · rw [hrun] at hok
      cases hok
    · obtain ⟨_, w', hok⟩ := hans
      rw [hrun] at hok
      cases hok
  | ok ret w₁ =>
    obtain ⟨⟨hlo, hhi⟩, hsame⟩ := wp_run_ok hdecode hrun
    have hanswers : (∀ ret', Answers cbs c w ret' → ¬ Wraps ret') ↔ ¬ Wraps ret := by
      constructor
      · intro hall
        exact hall ret ⟨hn, w₁, hrun⟩
      · intro hret ret' hans
        obtain ⟨_, w', hok⟩ := hans
        rw [hrun] at hok
        cases hok
        exact hret
    have hround : wp (parseRound cbs c)
        (fun _ w' => (w'.conns c).readBuff_.readable <:+ (w.conns c).readBuff_.readable)
        (fun e _ => e = .exception) w ↔ ¬ Wraps ret := by
      rw [wp_parseRound, if_neg hn, wp_of_run hrun, ← hsame]
      exact wp_handleAnswer_suffix hint hlo (hsame ▸ hv) (hsame ▸ hpos) (hsame ▸ hmax)
    rw [hanswers]
    constructor
    · intro hsafe
      exact hround.mp (hsuffix.mp hsafe.suffix)
    · intro hret
      refine ⟨hsuffix.mpr (hround.mpr hret), ?_⟩
      intro ret' w₂ commitBuffer w₃ hok htake
      rw [hrun] at hok
      cases hok
      rw [hsize] at htake
      have hlen := frameLength_le (w.conns c).readBuff_.readableBytes ret
      have hlow : -(2 ^ 31) ≤ frameLength (w.conns c).readBuff_.readableBytes ret := by
        unfold frameLength
        split <;> omega
      rw [← hsame] at htake hlen hmax hlow ⊢
      exact takeFrame_copied hlow (by omega) hlen (hsame ▸ hv) htake

/-- Two bytes and a decoder that answers -7: no vector has the size, and the
    buffer is emptied. -/
theorem iterationSafe_iff_seven : IterationSafe (answering (-7)) 0 (received [1, 2]) := by
  refine (iterationSafe_iff (parseCallbacks_answering trivial) (valid_received (by decide))
    (by decide) (by decide)).mpr ?_
  intro ret hans
  obtain ⟨_, w', hrun⟩ := hans
  have hseven : ParseCallbacks (· = -7) (fun _ => False) 0 (answering (-7)) :=
    parseCallbacks_answering (by decide)
  rw [(wp_run_ok (wp_decode_answer hseven _) hrun).1]
  decide

/-- One byte and a decoder that answers -3: a buffer of one byte of storage is
    constructed, and the copy leaves `readBuff_`. -/
theorem wrapped_length_faults :
    raised .memoryFault ((parseIteration (answering (-3)) 0).run (received [1])) = true ∧
    ¬ IterationSafe (answering (-3)) 0 (received [1]) := by
  have hraised : raised .memoryFault
      ((parseIteration (answering (-3)) 0).run (received [1])) = true := by
    decide +kernel
  refine ⟨hraised, ?_⟩
  intro hsafe
  have hsuffix := hsafe.suffix
  rw [wp, eq_error_of_raised hraised] at hsuffix
  exact hsuffix

end XConnection

end XFast
