import XFast.Framework.Steps
import XFast.Net.TypedAccess

/-! # The space that a buffer takes

    Consumed bytes stay in the storage of a buffer until `makeSpace` moves the
    readable bytes down over them, and `resize` keeps them.  The storage grows
    only when the consumed prefix and the free space together are too short
    for the append and the reserved header; then the reader has not come far,
    so what the storage grows to is bounded by what was ever in the buffer at
    a time, not by what has passed through. -/

namespace XFast

open Steps

namespace XBuffer

/-! ## Section 1: The calls -/

/-- The calls that put bytes into a buffer and take them out. -/
inductive Transfer where
  | append (data : List UInt8)
  | appendInt (k : IntKind) (x : Int)
  | prepend (data : List UInt8)
  | prependInt (k : IntKind) (x : Int)
  | moveOver (len : Nat)
  | readStr (len : Nat)
  | readAll
  | readInt (k : IntKind)
  | unwrite (len : Nat)
  | reset
  deriving DecidableEq, Repr

namespace Transfer

/-- What the call makes of the buffer. -/
def exec : Transfer → XBuffer → Except Halt XBuffer
  | .append data, b => b.append data
  | .appendInt k x, b => k.append b x
  | .prepend data, b => b.prepend data
  | .prependInt k x, b => k.prepend b x
  | .moveOver len, b => b.moveOver len
  | .readStr len, b => (b.readStr len).map Prod.snd
  | .readAll, b => b.readAll.map Prod.snd
  | .readInt k, b => (k.read b).map Prod.snd
  | .unwrite len, b => b.unwrite len
  | .reset, b => .ok b.reset

/-- The number of bytes that the call appends, if it is an append. -/
def appends : Transfer → Option Nat
  | .append data => some data.length
  | .appendInt k _ => some k.size
  | _ => none

end Transfer

def step (b : XBuffer) (call : Transfer) : Option XBuffer := (call.exec b).toOption

/-- An append happens with so few readable bytes that there are at most `M`
    afterwards. -/
def Within (M : Nat) (b : XBuffer) (call : Transfer) : Prop :=
  ∀ len ∈ call.appends, b.readableBytes + len ≤ M

instance (M : Nat) (b : XBuffer) (call : Transfer) : Decidable (Within M b call) :=
  inferInstanceAs (Decidable (∀ len ∈ call.appends, b.readableBytes + len ≤ M))

/-! ## Section 2: What a call does to the storage -/

theorem moveOver_storage {b b' : XBuffer} {len : Nat} (h : b.moveOver len = .ok b') :
    b'.buffer_ = b.buffer_ := by
  unfold moveOver at h
  obtain ⟨_, _, h⟩ := bind_eq_ok h
  split at h <;> cases h <;> rfl

theorem readStr_storage {b b' : XBuffer} {len : Nat} {s : List UInt8}
    (h : b.readStr len = .ok (s, b')) : b'.buffer_ = b.buffer_ := by
  unfold readStr at h
  obtain ⟨_, _, h⟩ := bind_eq_ok h
  obtain ⟨_, _, h⟩ := bind_eq_ok h
  obtain ⟨_, hmove, h⟩ := bind_eq_ok h
  cases h
  exact moveOver_storage hmove

theorem prepend_storage {b b' : XBuffer} {data : List UInt8} (h : b.prepend data = .ok b') :
    b'.buffer_.length = b.buffer_.length := by
  unfold prepend at h
  obtain ⟨_, _, h⟩ := bind_eq_ok h
  obtain ⟨_, hwrite, h⟩ := bind_eq_ok h
  cases h
  exact (writeMem_ok hwrite).2

theorem eq_ok_of_map_snd {α : Type} {x : Except Halt (α × XBuffer)} {b : XBuffer}
    (h : x.map Prod.snd = .ok b) : ∃ a, x = .ok (a, b) := by
  cases x with
  | error e => cases h
  | ok r =>
    cases h
    exact ⟨r.1, rfl⟩

end XBuffer

/-- Reading an integer moves over it. -/
theorem IntKind.moveOver_of_read {k : IntKind} {b b' : XBuffer} {x : Int}
    (h : k.read b = .ok (x, b')) : b.moveOver k.size = .ok b' := by
  have hmoves : ∀ peekInt : XBuffer → Except Halt Int, ∀ size,
      b.readObject peekInt (·.moveOver size) = .ok (x, b') → b.moveOver size = .ok b' := by
    intro peekInt size hread
    unfold XBuffer.readObject at hread
    obtain ⟨_, _, hread⟩ := bind_eq_ok hread
    obtain ⟨_, hmove, hread⟩ := bind_eq_ok hread
    cases hread
    exact hmove
  cases k with
  | int8 => exact hmoves _ 1 h
  | int16 => exact hmoves _ 2 h
  | int32 => exact hmoves XBuffer.peekInt32 4 h
  | int64 => exact hmoves _ 8 h

namespace XBuffer

variable {b b' : XBuffer} {call : Transfer}

/-- Only an append changes the size of the storage. -/
theorem exec_length (h : call.exec b = .ok b') : b'.buffer_.length = b.buffer_.length ∨
    ∃ len ∈ call.appends, b.Grown b' len := by
  cases call with
  | append data =>
    exact (append_length h).imp id fun hgrown => ⟨data.length, rfl, hgrown⟩
  | appendInt k x =>
    have h : k.append b x = .ok b' := h
    rw [k.append_eq] at h
    have hlen := append_length h
    rw [k.length_bytes] at hlen
    exact hlen.imp id fun hgrown => ⟨k.size, rfl, hgrown⟩
  | prepend data => exact Or.inl (prepend_storage h)
  | prependInt k x =>
    have h : k.prepend b x = .ok b' := h
    rw [k.prepend_eq] at h
    exact Or.inl (prepend_storage h)
  | moveOver len => exact Or.inl (congrArg List.length (moveOver_storage h))
  | readStr len =>
    obtain ⟨_, h⟩ := eq_ok_of_map_snd h
    exact Or.inl (congrArg List.length (readStr_storage h))
  | readAll =>
    obtain ⟨_, h⟩ := eq_ok_of_map_snd h
    exact Or.inl (congrArg List.length (readStr_storage h))
  | readInt k =>
    obtain ⟨_, h⟩ := eq_ok_of_map_snd h
    exact Or.inl (congrArg List.length (moveOver_storage (k.moveOver_of_read h)))
  | unwrite len =>
    have h : b.unwrite len = .ok b' := h
    unfold unwrite at h
    obtain ⟨_, _, h⟩ := bind_eq_ok h
    cases h
    exact Or.inl rfl
  | reset =>
    cases h
    exact Or.inl rfl

theorem prepend_ok {data : List UInt8} (hv : b.Valid) (h : b.prepend data = .ok b') :
    b'.Valid := by
  by_cases hroom : data.length ≤ b.discardableBytes
  · obtain ⟨b₁, hok, hv₁, _⟩ := prepend_spec hv hroom
    rw [hok] at h
    cases h
    exact hv₁
  · simp only [prepend, cAssert_false hroom, error_bind] at h
    cases h

theorem readStr_ok {len : Nat} {s : List UInt8} (hv : b.Valid)
    (h : b.readStr len = .ok (s, b')) : b'.Valid := by
  unfold readStr at h
  obtain ⟨_, _, h⟩ := bind_eq_ok h
  obtain ⟨_, _, h⟩ := bind_eq_ok h
  obtain ⟨_, hmove, h⟩ := bind_eq_ok h
  cases h
  exact (moveOver_ok hv hmove).2.1

theorem unwrite_ok {len : Nat} (hv : b.Valid) (h : b.unwrite len = .ok b') : b'.Valid := by
  by_cases hle : len ≤ b.readableBytes
  · obtain ⟨b₁, hok, hv₁, _⟩ := unwrite_spec hv hle
    rw [hok] at h
    cases h
    exact hv₁
  · simp only [unwrite, cAssert_false hle, error_bind] at h
    cases h

/-- A call that returns keeps the indexes in order, and what it appends fits
    into a vector. -/
theorem exec_ok (hv : b.Valid) (h : call.exec b = .ok b') :
    b'.Valid ∧ ∀ len ∈ call.appends, len ≤ vectorMaxSize := by
  cases call with
  | append data =>
    refine ⟨(append_ok hv h).1, ?_⟩
    intro len hlen
    cases hlen
    exact append_fits hv h
  | appendInt k x =>
    have h : k.append b x = .ok b' := h
    rw [k.append_eq] at h
    refine ⟨(append_ok hv h).1, ?_⟩
    intro len hlen
    cases hlen
    rw [← k.length_bytes x]
    exact append_fits hv h
  | prepend data => exact ⟨prepend_ok hv h, nofun⟩
  | prependInt k x =>
    have h : k.prepend b x = .ok b' := h
    rw [k.prepend_eq] at h
    exact ⟨prepend_ok hv h, nofun⟩
  | moveOver len => exact ⟨(moveOver_ok hv h).2.1, nofun⟩
  | readStr len =>
    obtain ⟨_, h⟩ := eq_ok_of_map_snd h
    exact ⟨readStr_ok hv h, nofun⟩
  | readAll =>
    obtain ⟨_, h⟩ := eq_ok_of_map_snd h
    exact ⟨readStr_ok hv h, nofun⟩
  | readInt k =>
    obtain ⟨_, h⟩ := eq_ok_of_map_snd h
    exact ⟨(moveOver_ok hv (k.moveOver_of_read h)).2.1, nofun⟩
  | unwrite len => exact ⟨unwrite_ok hv h, nofun⟩
  | reset =>
    cases h
    exact ⟨hv.reset, nofun⟩

/-! ## Section 3: The bound -/

/-- A storage that grows: the reader is at most at `len + 3`, or the readable
    bytes would have been moved down. -/
theorem Grown.length_le {len : Nat} (h : b.Grown b' len) (hv : b.Valid)
    (hfits : len ≤ vectorMaxSize) : b'.buffer_.length ≤ 2 * (b.readableBytes + len) + 3 := by
  have hr := hv.reader_le_writer
  have hw := hv.writer_le_size
  have hmax := hv.size_le_max
  have hrb := hv.readableBytes_eq
  have hvec := vectorMaxSize_lt
  have hroom : vectorMaxSize + kDiscardableSize < sizeModulus := by decide
  have hhead : kDiscardableSize = 4 := rfl
  have hlacks := h.lacks
  rw [hv.writableBytes_eq, discardableBytes, sizeAdd_of_lt (by omega), sizeAdd_of_lt (by omega)]
    at hlacks
  rw [h.length_eq, sizeAdd_of_lt (by omega)]
  omega

/-- What every call keeps. -/
structure Compact (bound : Nat) (b : XBuffer) : Prop where
  valid : b.Valid
  length_le : b.buffer_.length ≤ bound

theorem compact_step {bound M : Nat} (hM : 2 * M + 3 ≤ bound) (b : XBuffer) (call : Transfer)
    (b' : XBuffer) (h : Compact bound b) (hwithin : Within M b call)
    (hstep : step b call = some b') : Compact bound b' := by
  have hexec : call.exec b = .ok b' := eq_ok_of_toOption hstep
  obtain ⟨hv', hfits⟩ := exec_ok h.valid hexec
  refine ⟨hv', ?_⟩
  rcases exec_length hexec with hsame | ⟨len, hlen, hgrown⟩
  · rw [hsame]
    exact h.length_le
  · have hle := hgrown.length_le h.valid (hfits len hlen)
    have hM' := hwithin len hlen
    omega

/-- Whatever the indexes are, no call makes a storage that no vector has. -/
theorem step_length_le (b : XBuffer) (call : Transfer) (b' : XBuffer)
    (h : b.buffer_.length ≤ vectorMaxSize) (hstep : step b call = some b') :
    b'.buffer_.length ≤ vectorMaxSize := by
  rcases exec_length (eq_ok_of_toOption hstep) with hsame | ⟨len, _, hgrown⟩
  · rw [hsame]
    exact h
  · exact hgrown.le_max

/-- What the constructor allocates. -/
theorem new_length {S : Nat} (hnew : new S = .ok b) :
    b.buffer_.length = sizeAdd kDiscardableSize S ∧ b.buffer_.length ≤ vectorMaxSize := by
  unfold new vectorOfSize at hnew
  split at hnew
  · rename_i hfit
    rw [ok_bind] at hnew
    obtain ⟨_, _, hnew⟩ := bind_eq_ok hnew
    obtain ⟨_, _, hnew⟩ := bind_eq_ok hnew
    obtain ⟨_, _, hnew⟩ := bind_eq_ok hnew
    cases hnew
    have hlen : (initial (List.replicate (sizeAdd kDiscardableSize S) 0)).buffer_.length =
        sizeAdd kDiscardableSize S := List.length_replicate
    refine ⟨hlen, ?_⟩
    rw [hlen]
    exact hfit
  · cases hnew

/-- **Consumed bytes leak no space.**  In every run of calls from the
    constructor, in which every append finds so few readable bytes that there
    are at most `M` after it, the storage is never longer than it was at first
    or than twice `M` and three. -/
theorem storage_bounded {S M : Nat} {calls : List Transfer} (hnew : new S = .ok b)
    (hwithin : AllSteps step (Within M) b calls) (hrun : run step b calls = some b') :
    b'.buffer_.length ≤ max (S + 4) (2 * M + 3) := by
  have hhead : kDiscardableSize = 4 := rfl
  obtain ⟨hlen, hmax⟩ := new_length hnew
  by_cases hfit : kDiscardableSize + S < sizeModulus
  · rw [sizeAdd_of_lt hfit] at hlen
    have hv : b.Valid := by
      have hfresh := new_eq (show kDiscardableSize + S ≤ vectorMaxSize by omega)
      rw [hnew] at hfresh
      cases hfresh
      exact valid_fresh (by omega)
    have hcompact : Compact (max (S + 4) (2 * M + 3)) b := ⟨hv, by omega⟩
    exact (run_of_allSteps (compact_step (Nat.le_max_right _ _)) calls b b' hcompact hwithin
      hrun).length_le
  · -- the sum in the constructor wraps around, and no vector is as long as `S`
    have hvec := vectorMaxSize_lt
    have hle := run_invariant step_length_le calls b b' hmax hrun
    omega

/-- The statement for initial size 2 and at most 5 bytes, in a run that moves
    the bytes down once and grows the storage twice. -/
theorem storage_bounded_two : ∃ b b', new 2 = .ok b ∧
    run step b [.append [1, 2], .moveOver 1, .append [3], .moveOver 1, .moveOver 1,
      .appendInt .int32 7, .readInt .int32, .append [1, 2, 3, 4, 5]] = some b' ∧
    b'.buffer_.length ≤ max (2 + 4) (2 * 5 + 3) := by
  obtain ⟨b, hnew⟩ : ∃ b, new 2 = .ok b := ⟨_, new_eq (by decide)⟩
  have hb : b = fresh 2 := by
    rw [new_eq (by decide)] at hnew
    exact (Except.ok.inj hnew).symm
  obtain ⟨b', hrun⟩ : ∃ b', run step b [.append [1, 2], .moveOver 1, .append [3], .moveOver 1,
      .moveOver 1, .appendInt .int32 7, .readInt .int32, .append [1, 2, 3, 4, 5]] = some b' := by
    rw [hb]
    exact ⟨⟨[0, 0, 0, 0, 1, 2, 3, 4, 5], 4, 9⟩, by decide +kernel⟩
  exact ⟨b, b', hnew, hrun, storage_bounded hnew (by rw [hb]; decide +kernel) hrun⟩

end XBuffer

end XFast
