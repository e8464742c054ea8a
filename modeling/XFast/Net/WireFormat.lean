import XFast.Framework.BigEndian
import XFast.Net.BufferRefinement

/-! # Typed values in a buffer

    Model of the 32-bit part of the typed access in `net/include/buffer.h`:
    an `int32_t` is stored in network byte order.  The server prepends the
    descriptor number of a connection to each message, and the worker reads
    it back. -/

namespace XFast

open XBuffer

/-! ## Section 1: Network byte order -/

/-- The bytes in memory of `hostToNetwork32(x)`. -/
def hostToNetwork32 (x : Int) : List UInt8 :=
  BigEndian.encode 4 (x % 2 ^ 32).toNat

/-- `networkToHost32` of the four bytes, as an `int32_t`. -/
def networkToHost32 (be32 : List UInt8) : Int :=
  toInt32 (BigEndian.decode be32)

theorem length_hostToNetwork32 (x : Int) : (hostToNetwork32 x).length = 4 :=
  BigEndian.length_encode 4 _

theorem networkToHost32_hostToNetwork32 {x : Int} (hlo : -(2 ^ 31) ≤ x) (hhi : x < 2 ^ 31) :
    networkToHost32 (hostToNetwork32 x) = x := by
  have hlt : (x % 2 ^ 32).toNat < 256 ^ 4 := by omega
  unfold networkToHost32 hostToNetwork32
  rw [BigEndian.decode_encode_of_lt hlt, Int.toNat_of_nonneg (by omega)]
  -- the value modulo `2 ^ 32`, brought back to the range of an `int32_t`
  have hmod : toInt32 (x % 2 ^ 32) = toInt32 x := Int.emod_bmod x (2 ^ 32)
  rw [hmod, toInt32_of_range hlo hhi]

namespace XBuffer

/-! ## Section 2: Access to the buffer -/

def prependInt32 (b : XBuffer) (x : Int) : Except Halt XBuffer :=
  b.prepend (hostToNetwork32 x)

def peekInt32 (b : XBuffer) : Except Halt Int := do
  cAssert (b.readableBytes ≥ 4)
  let be32 ← readMem b.buffer_ b.readerIndex_ 4
  return networkToHost32 be32

def moveInt32 (b : XBuffer) : Except Halt XBuffer := b.moveOver 4

def readInt32 (b : XBuffer) : Except Halt (Int × XBuffer) := do
  let result ← b.peekInt32
  let b ← b.moveInt32
  return (result, b)

theorem prependInt32_spec {b : XBuffer} (x : Int) (hv : b.Valid) (h : 4 ≤ b.discardableBytes) :
    ∃ b', b.prependInt32 x = .ok b' ∧ b'.Valid ∧
      b'.readable = hostToNetwork32 x ++ b.readable :=
  prepend_spec hv (by rw [length_hostToNetwork32]; exact h)

/-- A number that was prepended had the room. -/
theorem prependInt32_room {b b' : XBuffer} {x : Int} (h : b.prependInt32 x = .ok b') :
    4 ≤ b.discardableBytes := by
  by_contra hlack
  have hassert : ¬ (hostToNetwork32 x).length ≤ b.discardableBytes := by
    rw [length_hostToNetwork32]
    exact hlack
  unfold prependInt32 prepend at h
  rw [cAssert_false hassert] at h
  cases h

/-- Reading finds the value whose bytes come first. -/
theorem readInt32_spec {b : XBuffer} {x : Int} {rest : List UInt8} (hv : b.Valid)
    (hread : b.readable = hostToNetwork32 x ++ rest) (hlo : -(2 ^ 31) ≤ x) (hhi : x < 2 ^ 31) :
    ∃ b', b.readInt32 = .ok (x, b') ∧ b'.Valid ∧ b'.readable = rest := by
  have hlen : 4 ≤ b.readableBytes := by
    rw [← hv.length_readable, hread, List.length_append, length_hostToNetwork32]
    omega
  obtain ⟨b', hmove, hv', hread', _⟩ := moveOver_spec hv hlen
  have hbytes : readMem b.buffer_ b.readerIndex_ 4 = .ok (hostToNetwork32 x) := by
    have hr := hv.readableBytes_eq
    have hw := hv.writer_le_size
    have hlw := hv.reader_le_writer
    have htake : b.readable.take 4 = hostToNetwork32 x := by
      rw [hread, ← length_hostToNetwork32 x, List.take_left]
    rw [readMem_eq (by omega), ← htake]
    exact congrArg Except.ok (Slice.take_slice (by omega)).symm
  refine ⟨b', ?_, hv', ?_⟩
  · simp only [readInt32, peekInt32, moveInt32, cAssert_true hlen, hbytes, hmove, ok_bind,
      pure_eq_ok, networkToHost32_hostToNetwork32 hlo hhi]
  · rw [hread', hread, ← length_hostToNetwork32 x, List.drop_left]

/-- A number prepended is the number read, and the content is as before. -/
theorem readInt32_prependInt32 {b : XBuffer} {x : Int} (hv : b.Valid)
    (h : 4 ≤ b.discardableBytes) (hlo : -(2 ^ 31) ≤ x) (hhi : x < 2 ^ 31) :
    ∃ b₁ b₂, b.prependInt32 x = .ok b₁ ∧ b₁.readInt32 = .ok (x, b₂) ∧ b₂.Valid ∧
      b₂.readable = b.readable := by
  obtain ⟨b₁, hpre, hv₁, hread₁⟩ := prependInt32_spec x hv h
  obtain ⟨b₂, hread, hv₂, hread₂⟩ := readInt32_spec hv₁ hread₁ hlo hhi
  exact ⟨b₁, b₂, hpre, hread, hv₂, hread₂⟩

end XBuffer

end XFast
