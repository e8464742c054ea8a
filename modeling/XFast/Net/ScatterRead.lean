import XFast.Net.Connection

/-! # Scatter read

    `fillFromFd` reads into the tail of the storage and into a second buffer
    on the stack, and appends what landed there.  To the readable bytes this
    is a plain append, whichever of the two took the bytes.  `readLoop`
    repeats it until the socket is empty, fails or is at its end. -/

namespace XFast

open Slice

namespace XBuffer

/-! ## Section 1: One `readv` -/

/-- The storage with its tail filled by the first iovec. -/
theorem Valid.fill_tail {b : XBuffer} {data : List UInt8} (hv : b.Valid)
    (hlen : data.length = b.writableBytes) :
    (⟨overwrite b.buffer_ b.writerIndex_ data, b.readerIndex_,
        (overwrite b.buffer_ b.writerIndex_ data).length⟩ : XBuffer).Valid ∧
      (⟨overwrite b.buffer_ b.writerIndex_ data, b.readerIndex_,
        (overwrite b.buffer_ b.writerIndex_ data).length⟩ : XBuffer).readable =
          b.readable ++ data := by
  have hw := hv.writableBytes_eq
  have hle := hv.writer_le_size
  have hend : b.writerIndex_ + data.length = b.buffer_.length := by omega
  rw [length_overwrite (Nat.le_of_eq hend), ← hend]
  exact ⟨hv.overwrite_writer (Nat.le_of_eq hend), readable_overwrite_writer hv (Nat.le_of_eq hend)⟩

/-- A scatter read of bytes that the vectors can take appends them, unless the
    storage would have to grow beyond what a vector can have. -/
theorem fillFromFd_bytes {b : XBuffer} {d : List UInt8} (hv : b.Valid)
    (hiov : d.length ≤ b.iovLength) :
    (∃ b', b.fillFromFd (.bytes d) = .ok (toInt32 d.length, b') ∧ b'.Valid ∧
        b'.readable = b.readable ++ d ∧ b'.buffer_.length ≤ b.buffer_.length + d.length) ∨
      (b.fillFromFd (.bytes d) = .error .exception ∧
        vectorMaxSize < b.buffer_.length + (d.length - b.writableBytes)) := by
  have hw := hv.writableBytes_eq
  have hle := hv.writer_le_size
  have hmax := hv.size_le_max
  have hmod := size_lt_modulus hv.size_le_max
  by_cases htail : d.length ≤ b.writableBytes
  · -- everything fits behind the writer index
    have hfit : b.writerIndex_ + d.length ≤ b.buffer_.length := by omega
    have hadd : sizeAdd b.writerIndex_ d.length = b.writerIndex_ + d.length :=
      sizeAdd_of_lt (by omega)
    left
    refine ⟨⟨overwrite b.buffer_ b.writerIndex_ d, b.readerIndex_,
      b.writerIndex_ + d.length⟩, ?_, hv.overwrite_writer hfit, readable_overwrite_writer hv hfit,
      ?_⟩
    · unfold fillFromFd
      dsimp only
      rw [if_neg (Nat.not_lt.mpr hiov), if_pos htail, writeMem_eq hfit, ok_bind, hadd, pure_eq_ok]
    · rw [length_overwrite hfit]
      exact Nat.le_add_right _ _
  · -- the rest landed in the second buffer and is appended
    have hlen : (d.take b.writableBytes).length = b.writableBytes := by
      rw [List.length_take]
      omega
    have hfit : b.writerIndex_ + (d.take b.writableBytes).length ≤ b.buffer_.length := by omega
    obtain ⟨hv₁, hread₁⟩ := hv.fill_tail hlen
    have hsize := length_overwrite hfit
    have hrest : (d.drop b.writableBytes).length = d.length - b.writableBytes :=
      List.length_drop
    -- there is a second vector only if the tail is short, and it is short itself
    have hextra : d.length - b.writableBytes ≤ extrabufSize := by
      unfold iovLength at hiov
      split at hiov <;> omega
    have hroom : vectorMaxSize + extrabufSize + kDiscardableSize < sizeModulus := by decide
    have hfill : b.fillFromFd (.bytes d) =
        ((⟨overwrite b.buffer_ b.writerIndex_ (d.take b.writableBytes), b.readerIndex_,
          (overwrite b.buffer_ b.writerIndex_ (d.take b.writableBytes)).length⟩ : XBuffer).append
            (d.drop b.writableBytes) >>= fun b' => .ok (toInt32 d.length, b')) := by
      unfold fillFromFd
      dsimp only
      rw [if_neg (Nat.not_lt.mpr hiov), if_neg htail, writeMem_eq hfit, ok_bind]
      rfl
    rw [hfill]
    rcases append_spec (d.drop b.writableBytes) hv₁ (by omega) (by dsimp only; omega) with
      ⟨b', hok, hv', hread'⟩ | ⟨herr, hbig⟩
    · left
      refine ⟨b', by rw [hok, ok_bind], hv', ?_, ?_⟩
      · rw [hread', hread₁, List.append_assoc, List.take_append_drop]
      · rcases append_length hok with hsame | hgrown
        · dsimp only at hsame
          omega
        · have hgrow := hgrown.length_eq
          dsimp only at hgrow
          rw [sizeAdd_of_lt (by omega)] at hgrow
          omega
    · right
      refine ⟨by rw [herr, error_bind], ?_⟩
      dsimp only at hbig
      omega

/-- A scatter read that returns has appended what `readv` gave. -/
theorem fillFromFd_ok {b b' : XBuffer} {r : ReadvResult} {n : Int} (hv : b.Valid)
    (h : b.fillFromFd r = .ok (n, b')) :
    b'.Valid ∧
      match r with
      | .fail _ => n = -1 ∧ b' = b
      | .bytes d => n = toInt32 d.length ∧ b'.readable = b.readable ++ d := by
  cases r with
  | fail e =>
    simp only [fillFromFd, Except.ok.injEq, Prod.mk.injEq] at h
    obtain ⟨rfl, rfl⟩ := h
    exact ⟨hv, rfl, rfl⟩
  | bytes d =>
    by_cases hiov : b.iovLength < d.length
    · rw [show b.fillFromFd (.bytes d) = .error .infeasible from if_pos hiov] at h
      cases h
    · rcases fillFromFd_bytes hv (Nat.not_lt.mp hiov) with ⟨b₁, hok, hv₁, hread, _⟩ | ⟨herr, _⟩
      · rw [hok, Except.ok.injEq, Prod.mk.injEq] at h
        obtain ⟨rfl, rfl⟩ := h
        exact ⟨hv₁, rfl, hread⟩
      · rw [herr] at h
        cases h

/-- Where the storage may grow by the bytes read, the scatter read returns. -/
theorem fillFromFd_spec {b : XBuffer} {d : List UInt8} (hv : b.Valid)
    (hiov : d.length ≤ b.iovLength) (hmax : b.buffer_.length + d.length ≤ vectorMaxSize) :
    ∃ b', b.fillFromFd (.bytes d) = .ok (toInt32 d.length, b') ∧ b'.Valid ∧
      b'.readable = b.readable ++ d ∧ b'.buffer_.length ≤ b.buffer_.length + d.length := by
  rcases fillFromFd_bytes hv hiov with hok | ⟨_, hbig⟩
  · exact hok
  · omega

/-- **Scatter read equals plain append.**  For every valid buffer and every
    result of `readv`: bytes that the vectors can take are appended, whichever
    vector they landed in, the indexes stay in order and no assertion fails,
    unless the vector refuses to grow beyond its maximal size; and an error
    changes nothing. -/
theorem fillFromFd_appends {b : XBuffer} (hv : b.Valid) :
    (∀ d : List UInt8, d.length ≤ b.iovLength →
      (∃ b', b.fillFromFd (.bytes d) = .ok (toInt32 d.length, b') ∧
          b'.readable = b.readable ++ d ∧ b'.readerIndex_ ≤ b'.writerIndex_ ∧
          b'.writerIndex_ ≤ b'.buffer_.length) ∨
        (b.fillFromFd (.bytes d) = .error .exception ∧
          vectorMaxSize < b.buffer_.length + (d.length - b.writableBytes))) ∧
    ∀ errno, b.fillFromFd (.fail errno) = .ok (-1, b) := by
  refine ⟨?_, fun _ => rfl⟩
  intro d hiov
  rcases fillFromFd_bytes hv hiov with ⟨b', hok, hv', hread, _⟩ | hrefused
  · exact Or.inl ⟨b', hok, hread, hv'.reader_le_writer, hv'.writer_le_size⟩
  · exact Or.inr hrefused

/-- A buffer with two bytes read, two to be read and one byte free takes four
    bytes: one behind the writer index, and three that are appended. -/
theorem fillFromFd_appends_four : ∃ b', (⟨[0, 0, 0, 0, 1, 2, 3, 4, 0], 6, 8⟩ :
      XBuffer).fillFromFd (.bytes [5, 6, 7, 8]) = .ok (4, b') ∧
    b'.readable = [3, 4] ++ [5, 6, 7, 8] := by
  have hv : (⟨[0, 0, 0, 0, 1, 2, 3, 4, 0], 6, 8⟩ : XBuffer).Valid := by
    constructor <;> decide
  rcases (fillFromFd_appends hv).1 [5, 6, 7, 8] (by decide) with ⟨b', hok, hread, _⟩ | ⟨_, hbig⟩
  · exact ⟨b', hok, hread⟩
  · exact absurd hbig (by decide)

end XBuffer

/-! ## Section 2: The read loop -/

/-- The bytes of one result. -/
def ReadvResult.data : ReadvResult → List UInt8
  | .bytes d => d
  | .fail _ => []

namespace XConnection

/-- A read loop that ends has appended everything that was read. -/
theorem readLoop_ok : ∀ {outs : List ReadvResult} {readSize : Int} {b b' : XBuffer}
    {size : Option Int} {errno : Option Errno}, b.Valid →
      readLoop outs readSize b = .ok (size, errno, b') →
        b'.Valid ∧ b'.readable = b.readable ++ outs.flatMap ReadvResult.data := by
  intro outs
  induction outs with
  | nil =>
    intro readSize b b' size errno _ h
    cases h
  | cons r rest ih =>
    intro readSize b b' size errno hv h
    unfold readLoop at h
    obtain ⟨⟨n, b₁⟩, hfill, h⟩ := bind_eq_ok h
    obtain ⟨hv₁, hr⟩ := XBuffer.fillFromFd_ok hv hfill
    have hlast : rest = [] → ∀ b₂, b₁ = b₂ →
        b₁.readable = b.readable ++ r.data →
        b₂.Valid ∧ b₂.readable = b.readable ++ (r :: rest).flatMap ReadvResult.data := by
      intro hrest b₂ heq hread
      subst heq hrest
      exact ⟨hv₁, by simpa using hread⟩
    cases r with
    | fail e =>
      obtain ⟨_, hsame⟩ := hr
      have hread : b₁.readable = b.readable ++ (ReadvResult.fail e).data := by
        rw [hsame]
        exact (List.append_nil _).symm
      dsimp only at h
      by_cases hrest : rest = []
      · rw [if_neg (not_not_intro hrest)] at h
        split at h
        · simp only [pure_eq_ok, Except.ok.injEq, Prod.mk.injEq] at h
          exact hlast hrest b' h.2.2 hread
        · simp only [pure_eq_ok, Except.ok.injEq, Prod.mk.injEq] at h
          exact hlast hrest b' h.2.2 hread
      · rw [if_pos hrest] at h
        cases h
    | bytes d =>
      obtain ⟨_, hread⟩ := hr
      cases d with
      -- the end of the stream
      | nil =>
        dsimp only at h
        by_cases hrest : rest = []
        · rw [if_neg (not_not_intro hrest)] at h
          simp only [pure_eq_ok, Except.ok.injEq, Prod.mk.injEq] at h
          exact hlast hrest b' h.2.2 hread
        · rw [if_pos hrest] at h
          cases h
      | cons x d =>
        dsimp only at h
        split at h
        · cases h
        obtain ⟨hv', hread'⟩ := ih hv₁ h
        refine ⟨hv', ?_⟩
        rw [hread', hread, List.flatMap_cons, List.append_assoc]
        rfl

theorem readLoop_eagain (n : Int) (b : XBuffer) :
    readLoop [.fail .EAGAIN] n b = .ok (some n, some .EAGAIN, b) := rfl

/-- A read loop that meets the end of the stream returns no size. -/
theorem readLoop_eof : ∀ {chunks : List (List UInt8)} {readSize : Int} {b b' : XBuffer}
    {size : Option Int} {errno : Option Errno}, (∀ d ∈ chunks, d ≠ []) →
      readLoop (chunks.map ReadvResult.bytes ++ [.bytes []]) readSize b = .ok (size, errno, b') →
        size = none := by
  intro chunks
  induction chunks with
  | nil =>
    intro readSize b b' size errno _ h
    obtain ⟨⟨n, b₁⟩, _, h⟩ := bind_eq_ok h
    cases h
    rfl
  | cons d chunks ih =>
    intro readSize b b' size errno hne h
    obtain ⟨x, d', rfl⟩ := List.exists_cons_of_ne_nil (hne d List.mem_cons_self)
    obtain ⟨⟨n, b₁⟩, _, h⟩ := bind_eq_ok h
    dsimp only at h
    split at h
    · cases h
    · exact ih (fun d hd => hne d (List.mem_cons_of_mem _ hd)) h

/-- The number of bytes that a call moves is an `int`. -/
theorem toInt32_of_moved {n : Nat} (h : n ≤ MAX_RW_COUNT) : toInt32 n = n := by
  have hmax : MAX_RW_COUNT < 2 ^ 31 := by decide
  exact toInt32_of_range (by omega) (by omega)

/-- A read loop over chunks that fit goes through, unless a chunk is longer
    than the second buffer and the kernel could not give it; the sum of the
    lengths is an `int`. -/
theorem readLoop_spec {last : ReadvResult} {size : Int → Option Int} {errno : Option Errno}
    (hlast : ∀ n {b : XBuffer}, b.Valid → readLoop [last] n b = .ok (size n, errno, b)) :
    ∀ {chunks : List (List UInt8)} (readSize : Int) {b : XBuffer}, b.Valid →
      (∀ d ∈ chunks, d ≠ []) → b.buffer_.length + chunks.flatten.length ≤ vectorMaxSize →
      toInt32 readSize = readSize →
      (readLoop (chunks.map ReadvResult.bytes ++ [last]) readSize b = .error .infeasible ∧
          ∃ d ∈ chunks, XBuffer.extrabufSize < d.length) ∨
        ∃ b', readLoop (chunks.map ReadvResult.bytes ++ [last]) readSize b =
            .ok (size (toInt32 (readSize + chunks.flatten.length)), errno, b') ∧ b'.Valid ∧
          b'.readable = b.readable ++ chunks.flatten ∧
          b'.buffer_.length ≤ b.buffer_.length + chunks.flatten.length := by
  intro chunks
  induction chunks with
  | nil =>
    intro readSize b hv _ _ hint
    refine Or.inr ⟨b, ?_, hv, by simp, by simp⟩
    have hsum : readSize + ([] : List (List UInt8)).flatten.length = readSize := by simp
    rw [hsum, hint]
    exact hlast readSize hv
  | cons d chunks ih =>
    intro readSize b hv hne hstorage _
    have hd : d ≠ [] := hne d List.mem_cons_self
    have hne' : ∀ d' ∈ chunks, d' ≠ [] := fun d' h => hne d' (List.mem_cons_of_mem d h)
    have hextra : XBuffer.extrabufSize ≤ b.iovLength := by
      unfold XBuffer.iovLength
      split <;> omega
    simp only [List.flatten_cons, List.length_append] at hstorage ⊢
    obtain ⟨x, d', rfl⟩ := List.exists_cons_of_ne_nil hd
    by_cases hiov : (x :: d').length ≤ b.iovLength
    · obtain ⟨b₁, hfill, hv₁, hread₁, hlen₁⟩ := XBuffer.fillFromFd_spec hv hiov (by omega)
      have hstorage₁ : b₁.buffer_.length + chunks.flatten.length ≤ vectorMaxSize := by omega
      by_cases hfits : (x :: d').length ≤ MAX_RW_COUNT
      · have hint : toInt32 (x :: d').length = (x :: d').length := toInt32_of_moved hfits
        have hagain : toInt32 (toInt32 (readSize + (x :: d').length)) =
            toInt32 (readSize + (x :: d').length) := toInt32_of_range (le_toInt32 _) (toInt32_lt _)
        -- one `readv`, then the loop goes on with the sum
        have hstep : readLoop (((x :: d') :: chunks).map ReadvResult.bytes ++ [last]) readSize b =
            readLoop (chunks.map ReadvResult.bytes ++ [last])
              (toInt32 (readSize + (x :: d').length)) b₁ := by
          show readLoop (.bytes (x :: d') :: _) readSize b = _
          rw [readLoop, hfill, ok_bind, hint]
          dsimp only
          rw [if_neg (Nat.not_lt.mpr hfits)]
          rfl
        rw [hstep]
        rcases ih (toInt32 (readSize + (x :: d').length)) hv₁ hne' hstorage₁ hagain with
          ⟨herr, d, hmem, hbig⟩ | ⟨b', hok, hv', hread', hlen'⟩
        · exact Or.inl ⟨herr, d, List.mem_cons_of_mem _ hmem, hbig⟩
        · have hlen : b'.buffer_.length ≤
              b.buffer_.length + ((x :: d').length + chunks.flatten.length) := by
            clear hfits
            omega
          refine Or.inr ⟨b', ?_, hv', ?_, hlen⟩
          · rw [hok, toInt32_toInt32_add, Int.natCast_add, Int.add_assoc]
          · rw [hread', hread₁, List.append_assoc]
      · -- the kernel moves no such chunk
        left
        have hcount : XBuffer.extrabufSize ≤ MAX_RW_COUNT := by decide
        refine ⟨?_, x :: d', List.mem_cons_self, Nat.lt_of_le_of_lt hcount (Nat.not_le.mp hfits)⟩
        show readLoop (.bytes (x :: d') :: _) readSize b = _
        rw [readLoop, hfill, ok_bind]
        dsimp only
        rw [if_pos (Nat.not_le.mp hfits)]
    · -- the chunk does not fit the vectors, so no `readv` returns it
      left
      refine ⟨?_, x :: d', List.mem_cons_self, by omega⟩
      show readLoop (.bytes (x :: d') :: _) readSize b = _
      rw [readLoop]
      have hfill : b.fillFromFd (.bytes (x :: d')) = .error .infeasible := if_pos (by omega)
      rw [hfill, error_bind]

end XConnection

end XFast
