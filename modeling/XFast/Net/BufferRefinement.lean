import Mathlib.Tactic.Common
import XFast.Framework.Refinement
import XFast.Net.Buffer

/-! # xBuffer refines a list of bytes

    The purpose of the buffer is a queue of bytes that is written at the
    back, read from the front, and lets a header be put before the front.
    `Valid` is the invariant of the indexes; each operation gets one lemma
    that says what it does to a valid buffer, and the run lemma of
    `Refinement` lifts them to every sequence of operations. -/

namespace XFast

open Slice Refinement

namespace XBuffer

/-! ## Section 1: Valid buffers -/

/-- The indexes are in order and the storage is one that a vector can have. -/
structure Valid (b : XBuffer) : Prop where
  header_le_size : kDiscardableSize ≤ b.buffer_.length
  reader_le_writer : b.readerIndex_ ≤ b.writerIndex_
  writer_le_size : b.writerIndex_ ≤ b.buffer_.length
  size_le_max : b.buffer_.length ≤ vectorMaxSize

theorem vectorMaxSize_lt : vectorMaxSize + vectorMaxSize < sizeModulus := by decide

theorem size_lt_modulus {n : Nat} (h : n ≤ vectorMaxSize) : n < sizeModulus := by
  have := vectorMaxSize_lt
  omega

namespace Valid

variable {b : XBuffer}

theorem readableBytes_eq (hv : b.Valid) :
    b.readableBytes = b.writerIndex_ - b.readerIndex_ :=
  sizeSub_of_le hv.reader_le_writer
    (size_lt_modulus (Nat.le_trans hv.writer_le_size hv.size_le_max))

theorem writableBytes_eq (hv : b.Valid) :
    b.writableBytes = b.buffer_.length - b.writerIndex_ :=
  sizeSub_of_le hv.writer_le_size (size_lt_modulus hv.size_le_max)

theorem length_readable (hv : b.Valid) : b.readable.length = b.readableBytes := by
  rw [hv.readableBytes_eq]
  exact length_slice hv.writer_le_size

theorem take_peek (hv : b.Valid) {n : Nat} (h : n ≤ b.readableBytes) :
    b.peek.take n = b.readable.take n := by
  rw [hv.readableBytes_eq] at h
  show (b.buffer_.drop b.readerIndex_).take n =
    ((b.buffer_.drop b.readerIndex_).take (b.writerIndex_ - b.readerIndex_)).take n
  rw [List.take_take, Nat.min_eq_left h]

theorem readable_eq_nil_iff (hv : b.Valid) : b.readable = [] ↔ b.readableBytes = 0 := by
  rw [← hv.length_readable, List.length_eq_zero_iff]

end Valid

@[simp] theorem readable_reset (b : XBuffer) : b.reset.readable = [] := by
  simp [readable, reset]

theorem Valid.reset {b : XBuffer} (hv : b.Valid) : b.reset.Valid :=
  ⟨hv.header_le_size, Nat.le_refl _, hv.header_le_size, hv.size_le_max⟩

/-! ## Section 2: Memory operations inside their object -/

theorem vectorOfSize_eq {n : Nat} (h : n ≤ vectorMaxSize) :
    vectorOfSize n = .ok (List.replicate n 0) := by
  simp [vectorOfSize, h]

theorem readMem_eq {xs : List UInt8} {i n : Nat} (h : i + n ≤ xs.length) :
    readMem xs i n = .ok (slice xs i (i + n)) := by
  simp [readMem, h]

theorem writeMem_eq {xs ys : List UInt8} {i : Nat} (h : i + ys.length ≤ xs.length) :
    writeMem xs i ys = .ok (overwrite xs i ys) := by
  simp [writeMem, h]

/-- A write that returns was inside its object. -/
theorem writeMem_ok {xs ys zs : List UInt8} {i : Nat} (h : writeMem xs i ys = .ok zs) :
    i + ys.length ≤ xs.length ∧ zs.length = xs.length := by
  unfold writeMem at h
  split at h
  · rename_i hroom
    cases h
    exact ⟨hroom, length_overwrite hroom⟩
  · cases h

theorem readMem_all (xs : List UInt8) : readMem xs 0 xs.length = .ok xs := by
  rw [readMem_eq (by omega)]
  simp [slice]

/-- Writing at the writer index appends to the readable bytes. -/
theorem readable_overwrite_writer {b : XBuffer} {data : List UInt8} (hv : b.Valid)
    (h : b.writerIndex_ + data.length ≤ b.buffer_.length) :
    slice (overwrite b.buffer_ b.writerIndex_ data) b.readerIndex_
      (b.writerIndex_ + data.length) = b.readable ++ data := by
  rw [← slice_append_slice hv.reader_le_writer (Nat.le_add_right _ _),
    slice_overwrite_below (Nat.le_refl _) hv.writer_le_size, slice_overwrite_self h]
  rfl

theorem Valid.overwrite_writer {b : XBuffer} {data : List UInt8} (hv : b.Valid)
    (h : b.writerIndex_ + data.length ≤ b.buffer_.length) :
    (⟨overwrite b.buffer_ b.writerIndex_ data, b.readerIndex_,
      b.writerIndex_ + data.length⟩ : XBuffer).Valid := by
  have hlen := length_overwrite h
  have hr := hv.reader_le_writer
  exact ⟨by rw [hlen]; exact hv.header_le_size, by simp only; omega,
    by simp only [hlen]; exact h, by rw [hlen]; exact hv.size_le_max⟩

/-! ## Section 3: One lemma for each operation -/

/-- What the constructor builds. -/
def fresh (initialSize : Nat) : XBuffer :=
  initial (List.replicate (kDiscardableSize + initialSize) 0)

theorem length_fresh (initialSize : Nat) :
    (fresh initialSize).buffer_.length = kDiscardableSize + initialSize :=
  List.length_replicate

@[simp] theorem readable_fresh (initialSize : Nat) : (fresh initialSize).readable = [] :=
  slice_self _ _

theorem valid_fresh {initialSize : Nat} (h : kDiscardableSize + initialSize ≤ vectorMaxSize) :
    (fresh initialSize).Valid where
  header_le_size := by rw [length_fresh]; exact Nat.le_add_right _ _
  reader_le_writer := Nat.le_refl _
  writer_le_size := by rw [length_fresh]; exact Nat.le_add_right _ _
  size_le_max := by rw [length_fresh]; exact h

/-- The constructor gives an empty valid buffer when the vector can exist. -/
theorem new_eq {initialSize : Nat} (h : kDiscardableSize + initialSize ≤ vectorMaxSize) :
    new initialSize = .ok (fresh initialSize) := by
  have hadd : sizeAdd kDiscardableSize initialSize = kDiscardableSize + initialSize :=
    sizeAdd_of_lt (size_lt_modulus h)
  have hv := valid_fresh h
  have hr : (fresh initialSize).readableBytes = 0 := by
    rw [← hv.length_readable, readable_fresh, List.length_nil]
  have hw : (fresh initialSize).writableBytes = initialSize := by
    rw [hv.writableBytes_eq, length_fresh]
    exact Nat.add_sub_cancel_left _ _
  have hd : (fresh initialSize).discardableBytes = kDiscardableSize := rfl
  unfold new
  rw [hadd, vectorOfSize_eq h, ok_bind]
  have hinit : initial (List.replicate (kDiscardableSize + initialSize) 0) =
      fresh initialSize := rfl
  simp only [hinit, cAssert_true hr, cAssert_true hw, cAssert_true hd, pure_eq_ok, ok_bind]

/-- Above the maximal size of a vector the constructor throws. -/
theorem new_exception {initialSize : Nat}
    (h : kDiscardableSize + initialSize < sizeModulus)
    (hmax : vectorMaxSize < kDiscardableSize + initialSize) :
    new initialSize = .error .exception := by
  have hadd : sizeAdd kDiscardableSize initialSize = kDiscardableSize + initialSize :=
    sizeAdd_of_lt h
  have hvec : vectorOfSize (kDiscardableSize + initialSize) = .error .exception :=
    if_neg (Nat.not_le.mpr hmax)
  unfold new
  rw [hadd, hvec]
  rfl

theorem moveOver_spec {b : XBuffer} {len : Nat} (hv : b.Valid) (h : len ≤ b.readableBytes) :
    ∃ b', b.moveOver len = .ok b' ∧ b'.Valid ∧ b'.readable = b.readable.drop len ∧
      b'.buffer_ = b.buffer_ := by
  by_cases hlt : len < b.readableBytes
  · -- some bytes are left: only the reader index moves
    have hr := hv.readableBytes_eq
    have hw := size_lt_modulus (Nat.le_trans hv.writer_le_size hv.size_le_max)
    have hadd : sizeAdd b.readerIndex_ len = b.readerIndex_ + len :=
      sizeAdd_of_lt (by omega)
    refine ⟨{ b with readerIndex_ := b.readerIndex_ + len }, ?_, ?_, ?_, rfl⟩
    · simp only [moveOver, cAssert_true h, hlt, hadd, ok_bind, if_true]
      rfl
    · exact ⟨hv.header_le_size, by simp only; omega, hv.writer_le_size, hv.size_le_max⟩
    · simp only [readable, drop_slice]
  · -- all bytes are consumed: both indexes go back to the start
    refine ⟨b.reset, ?_, hv.reset, ?_, rfl⟩
    · simp only [moveOver, cAssert_true h, hlt, ok_bind, if_false]
      rfl
    · rw [readable_reset, List.drop_eq_nil_of_le]
      rw [hv.length_readable]
      omega

theorem readStr_spec {b : XBuffer} {len : Nat} (hv : b.Valid) (h : len ≤ b.readableBytes) :
    ∃ b', b.readStr len = .ok (b.readable.take len, b') ∧ b'.Valid ∧
      b'.readable = b.readable.drop len := by
  obtain ⟨b', hmove, hv', hread, _⟩ := moveOver_spec hv h
  have hr := hv.readableBytes_eq
  have hw := hv.writer_le_size
  have hlw := hv.reader_le_writer
  have htake : slice b.buffer_ b.readerIndex_ (b.readerIndex_ + len) = b.readable.take len :=
    (take_slice (by omega)).symm
  refine ⟨b', ?_, hv', hread⟩
  simp only [readStr, cAssert_true h, readMem_eq (show b.readerIndex_ + len ≤ b.buffer_.length by
    omega), htake, hmove, pure_eq_ok, ok_bind]

/-- `makeSpace`, called as `ensureWritableBytes` calls it: either the buffer
    has the room and the same content, or the vector refuses to grow. -/
theorem makeSpace_spec {b : XBuffer} {len : Nat} (hv : b.Valid)
    (hlack : b.writableBytes < len) (hlen : len + kDiscardableSize < sizeModulus)
    (hsum : b.writerIndex_ + len < sizeModulus) :
    (∃ b', b.makeSpace len = .ok b' ∧ b'.Valid ∧ b'.readable = b.readable ∧
        b'.writerIndex_ + len ≤ b'.buffer_.length) ∨
      (b.makeSpace len = .error .exception ∧ vectorMaxSize < b.writerIndex_ + len) := by
  have hr := hv.reader_le_writer
  have hw := hv.writer_le_size
  have hhead := hv.header_le_size
  have hmax := size_lt_modulus hv.size_le_max
  have hwb := hv.writableBytes_eq
  have hrb := hv.readableBytes_eq
  have hroom : sizeAdd b.writableBytes b.discardableBytes =
      b.buffer_.length - b.writerIndex_ + b.readerIndex_ := by
    rw [hwb]
    exact sizeAdd_of_lt (by simp only [discardableBytes]; omega)
  have hneed : sizeAdd len kDiscardableSize = len + kDiscardableSize := sizeAdd_of_lt hlen
  have hend : sizeAdd b.writerIndex_ len = b.writerIndex_ + len := sizeAdd_of_lt hsum
  by_cases hgrow : b.buffer_.length - b.writerIndex_ + b.readerIndex_ < len + kDiscardableSize
  · -- the consumed prefix is too short: the storage grows behind the writer index
    by_cases hfit : b.writerIndex_ + len ≤ vectorMaxSize
    · left
      -- `resize` keeps every byte there is
      have hext : b.buffer_.take (b.writerIndex_ + len) = b.buffer_ :=
        List.take_of_length_le (by omega)
      have hlen' : (b.buffer_ ++ List.replicate (b.writerIndex_ + len - b.buffer_.length)
          (0 : UInt8)).length = b.writerIndex_ + len := by
        simp only [List.length_append, List.length_replicate]; omega
      refine ⟨⟨b.buffer_ ++ List.replicate (b.writerIndex_ + len - b.buffer_.length) 0,
        b.readerIndex_, b.writerIndex_⟩, ?_, ?_, ?_, ?_⟩
      · simp only [makeSpace, hroom, hneed, hgrow, hend, vectorResize, hfit, hext, if_true,
          pure_eq_ok, ok_bind]
      · exact ⟨by simp only [hlen']; omega, hr, by simp only [hlen']; omega,
          by simp only [hlen']; exact hfit⟩
      · exact slice_append_left hw
      · simp only [hlen']; omega
    · right
      refine ⟨?_, by omega⟩
      simp only [makeSpace, hroom, hneed, hgrow, hend, vectorResize, hfit, if_true, if_false,
        error_bind]
  · -- the readable bytes move down to the reserved header
    left
    -- the assert holds because the caller lacks room: `writableBytes < len`
    have hassert : kDiscardableSize < b.readerIndex_ := by omega
    have hrl : b.readable.length = b.writerIndex_ - b.readerIndex_ := by
      rw [hv.length_readable, hrb]
    have hfit : kDiscardableSize + b.readable.length ≤ b.buffer_.length := by omega
    have hsrc : readMem b.buffer_ b.readerIndex_ b.readableBytes = .ok b.readable := by
      rw [hrb, readMem_eq (by omega), Nat.add_sub_cancel' hr]
      rfl
    let b' : XBuffer := ⟨overwrite b.buffer_ kDiscardableSize b.readable, kDiscardableSize,
      kDiscardableSize + b.readable.length⟩
    have hlen' : b'.buffer_.length = b.buffer_.length := length_overwrite hfit
    have hv' : b'.Valid :=
      ⟨by rw [hlen']; exact hhead, Nat.le_add_right _ _, by rw [hlen']; exact hfit,
        by rw [hlen']; exact hv.size_le_max⟩
    have hread : b'.readable = b.readable := slice_overwrite_self hfit
    -- the last assert compares the number of readable bytes before and after
    have hcount : b.readableBytes = b'.readableBytes := by
      rw [← hv.length_readable, ← hv'.length_readable, hread]
    have hidx : sizeAdd kDiscardableSize b.readableBytes =
        kDiscardableSize + b.readable.length := by
      rw [hv.length_readable]; exact sizeAdd_of_lt (by omega)
    refine ⟨b', ?_, hv', hread, by simp only [hlen', b']; omega⟩
    simp only [makeSpace, hroom, hneed, hgrow, cAssert_true hassert, hsrc, writeMem_eq hfit, hidx,
      if_false, ok_bind]
    rw [show (⟨overwrite b.buffer_ kDiscardableSize b.readable, kDiscardableSize,
      kDiscardableSize + b.readable.length⟩ : XBuffer) = b' from rfl, cAssert_true hcount]
    rfl

theorem ensureWritableBytes_spec {b : XBuffer} (len : Nat) (hv : b.Valid)
    (hlen : len + kDiscardableSize < sizeModulus) (hsum : b.writerIndex_ + len < sizeModulus) :
    (∃ b', b.ensureWritableBytes len = .ok b' ∧ b'.Valid ∧ b'.readable = b.readable ∧
        b'.writerIndex_ + len ≤ b'.buffer_.length) ∨
      (b.ensureWritableBytes len = .error .exception ∧
        vectorMaxSize < b.writerIndex_ + len) := by
  by_cases hlack : b.writableBytes < len
  · rcases makeSpace_spec hv hlack hlen hsum with ⟨b', hok, hv', hread, hroom⟩ | ⟨herr, hbig⟩
    · have hassert : len ≤ b'.writableBytes := by rw [hv'.writableBytes_eq]; omega
      refine Or.inl ⟨b', ?_, hv', hread, hroom⟩
      simp only [ensureWritableBytes, hlack, hok, cAssert_true hassert, if_true, pure_eq_ok, ok_bind]
    · refine Or.inr ⟨?_, hbig⟩
      simp only [ensureWritableBytes, hlack, herr, if_true, error_bind]
  · have hw := hv.writer_le_size
    have hwb := hv.writableBytes_eq
    refine Or.inl ⟨b, ?_, hv, rfl, by omega⟩
    simp only [ensureWritableBytes, hlack, cAssert_true (Nat.le_of_not_lt hlack), if_false,
      pure_eq_ok, ok_bind]

theorem fillAndHasWritten_spec {b : XBuffer} (data : List UInt8) (hv : b.Valid)
    (h : data.length ≤ b.writableBytes) :
    ∃ b', b.fillAndHasWritten data = .ok b' ∧ b'.Valid ∧ b'.readable = b.readable ++ data := by
  have hwb := hv.writableBytes_eq
  have hw := hv.writer_le_size
  have hmax := size_lt_modulus hv.size_le_max
  have hfit : b.writerIndex_ + data.length ≤ b.buffer_.length := by omega
  have hadd : sizeAdd b.writerIndex_ data.length = b.writerIndex_ + data.length :=
    sizeAdd_of_lt (by omega)
  have hassert : data.length ≤
      ({ b with buffer_ := overwrite b.buffer_ b.writerIndex_ data } : XBuffer).writableBytes := by
    simpa only [writableBytes, length_overwrite hfit] using h
  refine ⟨⟨overwrite b.buffer_ b.writerIndex_ data, b.readerIndex_,
    b.writerIndex_ + data.length⟩, ?_, hv.overwrite_writer hfit, readable_overwrite_writer hv hfit⟩
  simp only [fillAndHasWritten, writeMem_eq hfit, hasWritten, cAssert_true hassert, hadd, pure_eq_ok, ok_bind]

/-- `append` is `ensureWritableBytes` and then a fill. -/
theorem append_spec {b : XBuffer} (data : List UInt8) (hv : b.Valid)
    (hlen : data.length + kDiscardableSize < sizeModulus)
    (hsum : b.writerIndex_ + data.length < sizeModulus) :
    (∃ b', b.append data = .ok b' ∧ b'.Valid ∧ b'.readable = b.readable ++ data) ∨
      (b.append data = .error .exception ∧ vectorMaxSize < b.writerIndex_ + data.length) := by
  rcases ensureWritableBytes_spec _ hv hlen hsum with ⟨b₁, hok, hv₁, hread, hroom⟩ | ⟨herr, hbig⟩
  · have hw := hv₁.writableBytes_eq
    obtain ⟨b', hfill, hv', hread'⟩ := fillAndHasWritten_spec data hv₁ (by omega)
    refine Or.inl ⟨b', ?_, hv', by rw [hread', hread]⟩
    have hstep : b.append data = b₁.fillAndHasWritten data := by
      simp only [append, appendMem, fillAndHasWritten, hok, readMem_all, ok_bind]
    rw [hstep, hfill]
  · refine Or.inr ⟨?_, hbig⟩
    simp only [append, appendMem, herr, error_bind]

/-- With room for the data, the reader stays where it is. -/
theorem append_of_room {b : XBuffer} {data : List UInt8} (hv : b.Valid)
    (h : data.length ≤ b.writableBytes) :
    ∃ b', b.append data = .ok b' ∧ b'.readerIndex_ = b.readerIndex_ := by
  have hwb := hv.writableBytes_eq
  have hw := hv.writer_le_size
  have hfit : b.writerIndex_ + data.length ≤ b.buffer_.length := by omega
  have hensure : b.ensureWritableBytes data.length = .ok b := by
    simp only [ensureWritableBytes, if_neg (Nat.not_lt.mpr h), cAssert_true h, pure_eq_ok, ok_bind]
  obtain ⟨b', hfill, _⟩ := fillAndHasWritten_spec data hv h
  have hstep : b.append data = b.fillAndHasWritten data := by
    simp only [append, appendMem, fillAndHasWritten, hensure, readMem_all, ok_bind]
  refine ⟨b', by rw [hstep, hfill], ?_⟩
  simp only [fillAndHasWritten, writeMem_eq hfit, ok_bind, hasWritten] at hfill
  obtain ⟨_, _, heq⟩ := bind_eq_ok hfill
  cases heq
  rfl

theorem unwrite_spec {b : XBuffer} {len : Nat} (hv : b.Valid) (h : len ≤ b.readableBytes) :
    ∃ b', b.unwrite len = .ok b' ∧ b'.Valid ∧
      b'.readable = b.readable.take (b.readable.length - len) := by
  have hr := hv.readableBytes_eq
  have hlw := hv.reader_le_writer
  have hw := hv.writer_le_size
  have hmax := size_lt_modulus hv.size_le_max
  have hsub : sizeSub b.writerIndex_ len = b.writerIndex_ - len :=
    sizeSub_of_le (by omega) (by omega)
  refine ⟨{ b with writerIndex_ := b.writerIndex_ - len }, ?_, ?_, ?_⟩
  · simp only [unwrite, cAssert_true h, hsub, pure_eq_ok, ok_bind]
  · exact ⟨hv.header_le_size, by simp only; omega, by simp only; omega, hv.size_le_max⟩
  · have hl := hv.length_readable
    have hend : b.readerIndex_ + (b.readable.length - len) = b.writerIndex_ - len := by omega
    simp only [readable] at hend ⊢
    rw [take_slice (by simp only [readable] at hl; omega), hend]

theorem prepend_spec {b : XBuffer} {data : List UInt8} (hv : b.Valid)
    (h : data.length ≤ b.discardableBytes) :
    ∃ b', b.prepend data = .ok b' ∧ b'.Valid ∧ b'.readable = data ++ b.readable := by
  have hlw := hv.reader_le_writer
  have hw := hv.writer_le_size
  have hmax := size_lt_modulus hv.size_le_max
  have hle : data.length ≤ b.readerIndex_ := h
  have hsub : sizeSub b.readerIndex_ data.length = b.readerIndex_ - data.length :=
    sizeSub_of_le hle (by omega)
  have hback : b.readerIndex_ - data.length + data.length = b.readerIndex_ := by omega
  have hfit : b.readerIndex_ - data.length + data.length ≤ b.buffer_.length := by omega
  have hlen := length_overwrite hfit
  refine ⟨⟨overwrite b.buffer_ (b.readerIndex_ - data.length) data,
    b.readerIndex_ - data.length, b.writerIndex_⟩, ?_, ?_, ?_⟩
  · simp only [prepend, cAssert_true h, hsub, writeMem_eq hfit, pure_eq_ok, ok_bind]
  · exact ⟨by rw [hlen]; exact hv.header_le_size, by simp only; omega, by rw [hlen]; exact hw,
      by rw [hlen]; exact hv.size_le_max⟩
  · -- the new content is the written slice followed by the old one
    have hself := slice_overwrite_self hfit
    rw [hback] at hself
    have habove : slice (overwrite b.buffer_ (b.readerIndex_ - data.length) data)
        b.readerIndex_ b.writerIndex_ = b.readable :=
      slice_overwrite_above (Nat.le_of_eq hback) hfit
    change slice _ _ _ = data ++ b.readable
    rw [← slice_append_slice (Nat.sub_le _ _) hlw, hself, habove]

/-! ## Section 4: What a normal return says

    The storage is checked whenever it is written, so an operation that
    returns normally had the room, whatever its argument. -/

theorem moveOver_ok {b b' : XBuffer} {len : Nat} (hv : b.Valid) (h : b.moveOver len = .ok b') :
    len ≤ b.readableBytes ∧ b'.Valid ∧ b'.readable = b.readable.drop len := by
  by_cases hle : len ≤ b.readableBytes
  · obtain ⟨b₁, hok, hv₁, hread, _⟩ := moveOver_spec hv hle
    rw [hok] at h
    cases h
    exact ⟨hle, hv₁, hread⟩
  · simp only [moveOver, cAssert_false hle, error_bind] at h
    cases h

/-- `moveOver` fails by its `assert` only. -/
theorem eq_of_moveOver_error {b : XBuffer} {len : Nat} {e : Halt}
    (h : b.moveOver len = .error e) : e = .assertFailed := by
  by_cases hle : len ≤ b.readableBytes
  · rw [moveOver, cAssert_true hle, ok_bind] at h
    split at h <;> cases h
  · rw [moveOver, cAssert_false hle, error_bind] at h
    cases h
    rfl

/-- The storage has grown to the writer index plus the length asked for, which
    happens when the consumed prefix is too short for the bytes to move down. -/
structure Grown (b b' : XBuffer) (len : Nat) : Prop where
  length_eq : b'.buffer_.length = sizeAdd b.writerIndex_ len
  le_max : b'.buffer_.length ≤ vectorMaxSize
  lacks : sizeAdd b.writableBytes b.discardableBytes < sizeAdd len kDiscardableSize

/-- The storage grows, or stays as long as it is. -/
theorem makeSpace_length {b b' : XBuffer} {len : Nat} (h : b.makeSpace len = .ok b') :
    b'.buffer_.length = b.buffer_.length ∨ b.Grown b' len := by
  unfold makeSpace at h
  split at h
  · -- the branch that resizes
    rename_i hlacks
    right
    by_cases hfit : sizeAdd b.writerIndex_ len ≤ vectorMaxSize
    · simp only [vectorResize, if_pos hfit, ok_bind, pure_eq_ok, Except.ok.injEq] at h
      have hlen : b'.buffer_.length = sizeAdd b.writerIndex_ len := by
        rw [← h]
        simp only [List.length_append, List.length_take, List.length_replicate]
        omega
      exact ⟨hlen, hlen ▸ hfit, hlacks⟩
    · simp only [vectorResize, if_neg hfit, error_bind] at h
      cases h
  · -- the branch that moves the bytes: assert, read, write, assert
    left
    obtain ⟨_, _, h⟩ := bind_eq_ok h
    obtain ⟨bytes, _, h⟩ := bind_eq_ok h
    obtain ⟨buffer, hwrite, h⟩ := bind_eq_ok h
    obtain ⟨_, _, h⟩ := bind_eq_ok h
    have hb : buffer = b'.buffer_ := by
      rw [pure_eq_ok, Except.ok.injEq] at h
      rw [← h]
    rw [← hb]
    exact (writeMem_ok hwrite).2

theorem ensureWritableBytes_length {b b' : XBuffer} {len : Nat}
    (h : b.ensureWritableBytes len = .ok b') :
    b'.buffer_.length = b.buffer_.length ∨ b.Grown b' len := by
  unfold ensureWritableBytes at h
  by_cases hlack : b.writableBytes < len
  · simp only [if_pos hlack] at h
    obtain ⟨b₁, hspace, h⟩ := bind_eq_ok h
    obtain ⟨_, _, h⟩ := bind_eq_ok h
    cases h
    exact makeSpace_length hspace
  · simp only [if_neg hlack, pure_eq_ok, ok_bind] at h
    obtain ⟨_, _, h⟩ := bind_eq_ok h
    cases h
    exact Or.inl rfl

/-- How long the storage can be after `append`. -/
theorem append_length {b b' : XBuffer} {data : List UInt8} (h : b.append data = .ok b') :
    b'.buffer_.length = b.buffer_.length ∨ b.Grown b' data.length := by
  unfold append appendMem at h
  obtain ⟨b₁, hensure, h⟩ := bind_eq_ok h
  obtain ⟨bytes, _, h⟩ := bind_eq_ok h
  obtain ⟨buffer, hwrite, h⟩ := bind_eq_ok h
  have hsame : b'.buffer_ = buffer := by
    unfold hasWritten at h
    obtain ⟨_, _, h⟩ := bind_eq_ok h
    cases h
    rfl
  have hlen : b'.buffer_.length = b₁.buffer_.length := by rw [hsame, (writeMem_ok hwrite).2]
  rcases ensureWritableBytes_length hensure with hsize | hgrown
  · exact Or.inl (hlen.trans hsize)
  · exact Or.inr ⟨hlen.trans hgrown.length_eq, hlen ▸ hgrown.le_max, hgrown.lacks⟩

/-- Data that was appended fits into a vector. -/
theorem append_fits {b b' : XBuffer} {data : List UInt8} (hv : b.Valid)
    (h : b.append data = .ok b') : data.length ≤ vectorMaxSize := by
  unfold append appendMem at h
  obtain ⟨b₁, hensure, h⟩ := bind_eq_ok h
  obtain ⟨bytes, hread, h⟩ := bind_eq_ok h
  obtain ⟨buffer, hwrite, _⟩ := bind_eq_ok h
  rw [readMem_all] at hread
  cases hread
  have hroom := (writeMem_ok hwrite).1
  rcases ensureWritableBytes_length hensure with hlen | hgrown
  · have := hv.size_le_max
    omega
  · have := hgrown.le_max
    omega

/-- `append` that returns has appended: no length makes it return otherwise. -/
theorem append_ok {b b' : XBuffer} {data : List UInt8} (hv : b.Valid)
    (h : b.append data = .ok b') : b'.Valid ∧ b'.readable = b.readable ++ data := by
  have hfit := append_fits hv h
  have hw := Nat.le_trans hv.writer_le_size hv.size_le_max
  have hmod := vectorMaxSize_lt
  have hhead : vectorMaxSize + kDiscardableSize < sizeModulus := by decide
  rcases append_spec data hv (by omega) (by omega) with ⟨b₁, hok, hv₁, hread⟩ | ⟨herr, _⟩
  · rw [hok] at h
    cases h
    exact ⟨hv₁, hread⟩
  · rw [herr] at h
    cases h

/-- No more can be appended than the source has. -/
theorem appendMem_le_length {b b' : XBuffer} {src : List UInt8} {len : Nat}
    (h : b.appendMem src len = .ok b') : len ≤ src.length := by
  unfold appendMem at h
  obtain ⟨_, _, h⟩ := bind_eq_ok h
  obtain ⟨_, hread, _⟩ := bind_eq_ok h
  unfold readMem at hread
  split at hread
  · omega
  · cases hread

theorem appendMem_eq_append {b : XBuffer} {src : List UInt8} {len : Nat}
    (h : len ≤ src.length) : b.appendMem src len = b.append (src.take len) := by
  have hlen : (src.take len).length = len := by
    rw [List.length_take]
    omega
  have hsrc : readMem src 0 len = .ok (src.take len) := by
    rw [readMem_eq (by omega), Nat.zero_add]
    rfl
  have htake := readMem_all (src.take len)
  rw [hlen] at htake
  simp only [append, appendMem, hlen, hsrc, htake]

/-! ## Section 5: The operations and their abstract counterparts -/

/-- The operations of the public interface that change the buffer. -/
inductive Op where
  | append (data : List UInt8)
  | prepend (data : List UInt8)
  | moveOver (len : Nat)
  | readStr (len : Nat)
  | readAll
  | unwrite (len : Nat)
  | fillAndHasWritten (data : List UInt8)
  | ensureWritableBytes (len : Nat)
  | reset
  deriving DecidableEq, Repr

/-- Run one operation; the output is the string it returns, if any. -/
def Op.exec : Op → XBuffer → Except Halt (List UInt8 × XBuffer)
  | .append data, b => (b.append data).map ([], ·)
  | .prepend data, b => (b.prepend data).map ([], ·)
  | .moveOver len, b => (b.moveOver len).map ([], ·)
  | .readStr len, b => b.readStr len
  | .readAll, b => b.readAll
  | .unwrite len, b => (b.unwrite len).map ([], ·)
  | .fillAndHasWritten data, b => (b.fillAndHasWritten data).map ([], ·)
  | .ensureWritableBytes len, b => (b.ensureWritableBytes len).map ([], ·)
  | .reset, b => .ok ([], b.reset)

/-- The same operation on a plain list of bytes. -/
def Op.spec : Op → List UInt8 → List UInt8 × List UInt8
  | .append data, c => ([], c ++ data)
  | .prepend data, c => ([], data ++ c)
  | .moveOver len, c => ([], c.drop len)
  | .readStr len, c => (c.take len, c.drop len)
  | .readAll, c => (c, [])
  | .unwrite len, c => ([], c.take (c.length - len))
  | .fillAndHasWritten data, c => ([], c ++ data)
  | .ensureWritableBytes _, c => ([], c)
  | .reset, _ => ([], [])

/-- The room an operation asks of the storage behind the writer index. -/
def Op.room : Op → Nat
  | .append data => data.length
  | .ensureWritableBytes len => len
  | _ => 0

/-- What the operation's own `assert` demands of its argument. -/
def Op.Demand : Op → XBuffer → Prop
  | .prepend data, b => data.length ≤ b.discardableBytes
  | .moveOver len, b => len ≤ b.readableBytes
  | .readStr len, b => len ≤ b.readableBytes
  | .unwrite len, b => len ≤ b.readableBytes
  | .fillAndHasWritten data, b => data.length ≤ b.writableBytes
  | _, _ => True

instance (op : Op) (b : XBuffer) : Decidable (op.Demand b) := by
  cases op <;> simp only [Op.Demand] <;> infer_instance

/-- The `size_t` sums that the operation forms do not wrap around. -/
def Op.NoOverflow (op : Op) (b : XBuffer) : Prop :=
  op.room + kDiscardableSize < sizeModulus ∧ b.writerIndex_ + op.room < sizeModulus

instance (op : Op) (b : XBuffer) : Decidable (op.NoOverflow b) :=
  inferInstanceAs (Decidable (_ ∧ _))

/-- The precondition of an operation. -/
def Op.Pre (op : Op) (b : XBuffer) : Prop := op.Demand b ∧ op.NoOverflow b

instance (op : Op) (b : XBuffer) : Decidable (op.Pre b) :=
  inferInstanceAs (Decidable (_ ∧ _))

/-- A valid buffer stands for its readable bytes. -/
def Represents (b : XBuffer) (c : List UInt8) : Prop := b.Valid ∧ b.readable = c

/-- The only admitted error: the vector refuses a size above its maximum. -/
def LengthError (op : Op) (b : XBuffer) (h : Halt) : Prop :=
  h = .exception ∧ vectorMaxSize < b.writerIndex_ + op.room

theorem op_refines (op : Op) (b : XBuffer) (c : List UInt8) (hrep : b.Represents c)
    (hpre : op.Pre b) : StepRefines Represents Op.exec Op.spec LengthError op b c := by
  obtain ⟨hv, rfl⟩ := hrep
  obtain ⟨hdem, hlen, hsum⟩ := hpre
  cases op with
  | append data =>
    rcases append_spec data hv hlen hsum with ⟨b', hok, hv', hread⟩ | ⟨herr, hbig⟩
    · exact Or.inl ⟨b', by simp [Op.exec, Op.spec, hok, Except.map], hv', hread⟩
    · exact Or.inr ⟨.exception, by simp [Op.exec, herr, Except.map], rfl, hbig⟩
  | prepend data =>
    obtain ⟨b', hok, hv', hread⟩ := prepend_spec hv hdem
    exact Or.inl ⟨b', by simp [Op.exec, Op.spec, hok, Except.map], hv', hread⟩
  | moveOver len =>
    obtain ⟨b', hok, hv', hread, _⟩ := moveOver_spec hv hdem
    exact Or.inl ⟨b', by simp [Op.exec, Op.spec, hok, Except.map], hv', hread⟩
  | readStr len =>
    obtain ⟨b', hok, hv', hread⟩ := readStr_spec hv hdem
    exact Or.inl ⟨b', hok, hv', hread⟩
  | readAll =>
    -- `readAll` is `readStr` of everything
    obtain ⟨b', hok, hv', hread⟩ := readStr_spec hv (Nat.le_refl b.readableBytes)
    rw [← hv.length_readable, List.take_length] at hok
    rw [← hv.length_readable, List.drop_length] at hread
    exact Or.inl ⟨b', by simp [Op.exec, Op.spec, readAll, ← hv.length_readable, hok], hv', hread⟩
  | unwrite len =>
    obtain ⟨b', hok, hv', hread⟩ := unwrite_spec hv hdem
    exact Or.inl ⟨b', by simp [Op.exec, Op.spec, hok, Except.map], hv', hread⟩
  | fillAndHasWritten data =>
    obtain ⟨b', hok, hv', hread⟩ := fillAndHasWritten_spec data hv hdem
    exact Or.inl ⟨b', by simp [Op.exec, Op.spec, hok, Except.map], hv', hread⟩
  | ensureWritableBytes len =>
    rcases ensureWritableBytes_spec len hv hlen hsum with
      ⟨b', hok, hv', hread, _⟩ | ⟨herr, hbig⟩
    · exact Or.inl ⟨b', by simp [Op.exec, Op.spec, hok, Except.map], hv', hread⟩
    · exact Or.inr ⟨.exception, by simp [Op.exec, herr, Except.map], rfl, hbig⟩
  | reset =>
    exact Or.inl ⟨b.reset, rfl, hv.reset, readable_reset b⟩

/-- **xBuffer refines a byte list.**  For every initial size that does not
    overflow, the constructor either gives an empty buffer or throws because
    no vector has that size; and from the empty buffer every admissible
    sequence of operations runs as on a plain list of bytes, keeping the
    indexes in order and failing no `assert`, until at most a vector refuses
    to grow beyond its maximal size. -/
theorem refines_byte_list (initialSize : Nat)
    (h : kDiscardableSize + initialSize < sizeModulus) :
    (new initialSize = .error .exception ∧
        vectorMaxSize < kDiscardableSize + initialSize) ∨
      ∃ b, new initialSize = .ok b ∧ b.Represents [] ∧
        ∀ ops, Admissible Op.exec Op.Pre ops b →
          RunRefines Represents Op.exec Op.spec LengthError ops b [] := by
  by_cases hfit : kDiscardableSize + initialSize ≤ vectorMaxSize
  · have hrep : (fresh initialSize).Represents [] :=
      ⟨valid_fresh hfit, readable_fresh initialSize⟩
    exact Or.inr ⟨fresh initialSize, new_eq hfit, hrep,
      fun ops hops => run_refines op_refines ops _ _ hrep hops⟩
  · have hbig : vectorMaxSize < kDiscardableSize + initialSize := Nat.not_le.mp hfit
    exact Or.inl ⟨new_exception h hbig, hbig⟩

/-- The statement at initial size 2, with a run that compacts and one that grows. -/
theorem refines_byte_list_two : ∃ b, new 2 = .ok b ∧ b.Represents [] ∧
    RunRefines Represents Op.exec Op.spec LengthError
      [.append [1, 2], .moveOver 1, .append [3], .prepend [7], .append [4, 5], .unwrite 1,
        .readAll] b [] := by
  rcases refines_byte_list 2 (by decide) with ⟨_, hbig⟩ | ⟨b, hnew, hrep, hrun⟩
  · exact absurd hbig (by decide)
  · have hb : b = fresh 2 := by
      rw [new_eq (by decide)] at hnew
      exact (Except.ok.inj hnew).symm
    exact ⟨b, hnew, hrep, hrun _ (by subst hb; decide)⟩

end XBuffer

end XFast
