import XFast.Net.WireFormat

/-! # Integers and strings in a buffer

    Model of the typed access in `net/include/buffer.h` and of
    `net/include/xendian.h`, on a little-endian host.  An integer goes into
    the buffer as the bytes that it has in memory after `hostToNetwork`, and
    comes out through `memcpy` and `networkToHost`.

    What is written and read that way is a queue of values: `Pending` says
    which calls it allows and what they return.  The buffer follows it, over
    any sequence of calls, and whatever the conversions between signed and
    unsigned integers are on the way. -/

namespace XFast

open Slice Refinement

/-! ## Section 1: Integers in memory -/

/-- Conversion to the unsigned integer type of `size` bytes. -/
def toUnsigned (size : Nat) (x : Int) : Nat := (x % 256 ^ size).toNat

/-- Conversion to the signed integer type of `size` bytes. -/
def toSigned (size : Nat) (n : Int) : Int := Int.bmod n (256 ^ size)

/-- The bytes that an integer object has in memory. -/
def objectBytes (size : Nat) (x : Int) : List UInt8 :=
  BigEndian.encodeLittle size (toUnsigned size x)

/-- The value of a signed integer object after `memcpy` of the bytes. -/
def ofObjectBytes (bytes : List UInt8) : Int :=
  toSigned bytes.length (BigEndian.decodeLittle bytes)

theorem toUnsigned_lt (size : Nat) (x : Int) : toUnsigned size x < 256 ^ size := by
  have hpos : (0 : Int) < 256 ^ size := Int.pow_pos (by decide)
  have hlt := Int.emod_lt_of_pos x hpos
  have hnonneg := Int.emod_nonneg x (ne_of_gt hpos)
  have hcast : ((256 ^ size : Nat) : Int) = 256 ^ size := by push_cast; rfl
  unfold toUnsigned
  omega

theorem toUnsigned_toSigned {size n : Nat} (h : n < 256 ^ size) :
    toUnsigned size (toSigned size n) = n := by
  have hcast : ((256 ^ size : Nat) : Int) = 256 ^ size := by push_cast; rfl
  unfold toUnsigned toSigned
  rw [← hcast, Int.bmod_emod, ← Int.natCast_mod, Int.toNat_natCast, Nat.mod_eq_of_lt h]

theorem toSigned_toUnsigned (size : Nat) (x : Int) :
    toSigned size (toUnsigned size x) = toSigned size x := by
  have hpos : (256 : Int) ^ size ≠ 0 := Int.ne_of_gt (Int.pow_pos (by decide))
  have hcast : ((256 ^ size : Nat) : Int) = 256 ^ size := by push_cast; rfl
  unfold toSigned toUnsigned
  rw [Int.toNat_of_nonneg (Int.emod_nonneg x hpos), ← hcast, Int.emod_bmod]

/-! ## Section 2: Network byte order -/

namespace XNetApi

/-- `htobe` for the unsigned type of `size` bytes. -/
def hostToNetwork (size host : Nat) : Nat := BigEndian.byteReverse size host

def hostToNetwork64 (host64 : Nat) : Nat := hostToNetwork 8 host64
def hostToNetwork32 (host32 : Nat) : Nat := hostToNetwork 4 host32
def hostToNetwork16 (host16 : Nat) : Nat := hostToNetwork 2 host16

/-- `betoh`. -/
def networkToHost (size net : Nat) : Nat := BigEndian.byteReverse size net

def networkToHost64 (net64 : Nat) : Nat := networkToHost 8 net64
def networkToHost32 (net32 : Nat) : Nat := networkToHost 4 net32
def networkToHost16 (net16 : Nat) : Nat := networkToHost 2 net16

end XNetApi

/-- The object that `append` and `prepend` copy from: a signed integer that has
    the value of the swapped unsigned one. -/
def swappedObject (size : Nat) (hostToNetwork : Nat → Nat) (x : Int) : List UInt8 :=
  objectBytes size (toSigned size (hostToNetwork (toUnsigned size x)))

/-- The value of `networkToHost` on an object, as a signed integer. -/
def ofSwappedObject (size : Nat) (networkToHost : Nat → Nat) (bytes : List UInt8) : Int :=
  toSigned size (networkToHost (toUnsigned size (ofObjectBytes bytes)))

/-- The bytes are those of the value, most significant first. -/
theorem swappedObject_eq (size : Nat) (x : Int) :
    swappedObject size (XNetApi.hostToNetwork size) x =
      BigEndian.encode size (toUnsigned size x) := by
  unfold swappedObject objectBytes XNetApi.hostToNetwork
  rw [toUnsigned_toSigned (BigEndian.byteReverse_lt size _), BigEndian.encodeLittle_byteReverse]

theorem ofSwappedObject_eq (bytes : List UInt8) :
    ofSwappedObject bytes.length (XNetApi.networkToHost bytes.length) bytes =
      toSigned bytes.length (BigEndian.decode bytes) := by
  have hlt : BigEndian.decodeLittle bytes < 256 ^ bytes.length := by
    have hdecode := BigEndian.decode_lt bytes.reverse
    rw [List.length_reverse] at hdecode
    rw [BigEndian.decodeLittle_eq]
    exact hdecode
  unfold ofSwappedObject ofObjectBytes XNetApi.networkToHost
  rw [toUnsigned_toSigned hlt, BigEndian.byteReverse_decodeLittle]

/-- The bytes that the server puts in front of a message. -/
theorem hostToNetwork32_eq (x : Int) :
    hostToNetwork32 x = swappedObject 4 XNetApi.hostToNetwork32 x := (swappedObject_eq 4 x).symm

theorem networkToHost32_eq {bytes : List UInt8} (h : bytes.length = 4) :
    networkToHost32 bytes = ofSwappedObject 4 XNetApi.networkToHost32 bytes := by
  have hswapped := ofSwappedObject_eq bytes
  rw [h] at hswapped
  exact hswapped.symm

/-! ## Section 3: Access to the buffer -/

namespace XBuffer

def appendInt64 (b : XBuffer) (x : Int) : Except Halt XBuffer :=
  b.append (swappedObject 8 XNetApi.hostToNetwork64 x)

def appendInt32 (b : XBuffer) (x : Int) : Except Halt XBuffer :=
  b.append (swappedObject 4 XNetApi.hostToNetwork32 x)

def appendInt16 (b : XBuffer) (x : Int) : Except Halt XBuffer :=
  b.append (swappedObject 2 XNetApi.hostToNetwork16 x)

/-- One byte has no order. -/
def appendInt8 (b : XBuffer) (x : Int) : Except Halt XBuffer := b.append (objectBytes 1 x)

def prependInt64 (b : XBuffer) (x : Int) : Except Halt XBuffer :=
  b.prepend (swappedObject 8 XNetApi.hostToNetwork64 x)

def prependInt16 (b : XBuffer) (x : Int) : Except Halt XBuffer :=
  b.prepend (swappedObject 2 XNetApi.hostToNetwork16 x)

def prependInt8 (b : XBuffer) (x : Int) : Except Halt XBuffer := b.prepend (objectBytes 1 x)

/-- The common part of the functions that look at an integer of `size` bytes. -/
def peekObject (b : XBuffer) (size : Nat) (ofBytes : List UInt8 → Int) : Except Halt Int := do
  cAssert (b.readableBytes ≥ size)
  let bytes ← readMem b.buffer_ b.readerIndex_ size
  return ofBytes bytes

def peekInt64 (b : XBuffer) : Except Halt Int :=
  b.peekObject 8 (ofSwappedObject 8 XNetApi.networkToHost64)

def peekInt16 (b : XBuffer) : Except Halt Int :=
  b.peekObject 2 (ofSwappedObject 2 XNetApi.networkToHost16)

def peekInt8 (b : XBuffer) : Except Halt Int := b.peekObject 1 ofObjectBytes

def moveInt64 (b : XBuffer) : Except Halt XBuffer := b.moveOver 8
def moveInt16 (b : XBuffer) : Except Halt XBuffer := b.moveOver 2
def moveInt8 (b : XBuffer) : Except Halt XBuffer := b.moveOver 1

/-- The common part of the functions that read an integer. -/
def readObject (b : XBuffer) (peekInt : XBuffer → Except Halt Int)
    (moveInt : XBuffer → Except Halt XBuffer) : Except Halt (Int × XBuffer) := do
  let result ← peekInt b
  let b ← moveInt b
  return (result, b)

def readInt64 (b : XBuffer) : Except Halt (Int × XBuffer) := b.readObject peekInt64 moveInt64
def readInt16 (b : XBuffer) : Except Halt (Int × XBuffer) := b.readObject peekInt16 moveInt16
def readInt8 (b : XBuffer) : Except Halt (Int × XBuffer) := b.readObject peekInt8 moveInt8

end XBuffer

/-- The integer types of the typed access. -/
inductive IntKind where
  | int8
  | int16
  | int32
  | int64
  deriving DecidableEq, Repr

namespace IntKind

def size : IntKind → Nat
  | .int8 => 1
  | .int16 => 2
  | .int32 => 4
  | .int64 => 8

/-- The values of the type. -/
def InRange (k : IntKind) (x : Int) : Prop :=
  -(2 ^ (8 * k.size - 1)) ≤ x ∧ x < 2 ^ (8 * k.size - 1)

instance (k : IntKind) (x : Int) : Decidable (k.InRange x) := inferInstanceAs (Decidable (_ ∧ _))

def append : IntKind → XBuffer → Int → Except Halt XBuffer
  | .int8 => XBuffer.appendInt8
  | .int16 => XBuffer.appendInt16
  | .int32 => XBuffer.appendInt32
  | .int64 => XBuffer.appendInt64

def prepend : IntKind → XBuffer → Int → Except Halt XBuffer
  | .int8 => XBuffer.prependInt8
  | .int16 => XBuffer.prependInt16
  | .int32 => XBuffer.prependInt32
  | .int64 => XBuffer.prependInt64

def read : IntKind → XBuffer → Except Halt (Int × XBuffer)
  | .int8 => XBuffer.readInt8
  | .int16 => XBuffer.readInt16
  | .int32 => XBuffer.readInt32
  | .int64 => XBuffer.readInt64

/-- The big-endian two's complement of a value. -/
def bytes (k : IntKind) (x : Int) : List UInt8 :=
  BigEndian.encode k.size (toUnsigned k.size x)

/-- The value with this two's complement. -/
def ofBytes (k : IntKind) (bs : List UInt8) : Int := toSigned k.size (BigEndian.decode bs)

variable (k : IntKind)

theorem length_bytes (x : Int) : (k.bytes x).length = k.size := BigEndian.length_encode _ _

theorem toSigned_of_inRange {x : Int} (h : k.InRange x) : toSigned k.size x = x := by
  obtain ⟨hlo, hhi⟩ := h
  unfold toSigned
  cases k <;> (simp only [size] at hlo hhi ⊢; rw [Int.bmod_def]; split <;> omega)

theorem ofBytes_bytes {x : Int} (h : k.InRange x) : k.ofBytes (k.bytes x) = x := by
  unfold ofBytes bytes
  rw [BigEndian.decode_encode_of_lt (toUnsigned_lt _ x), toSigned_toUnsigned,
    k.toSigned_of_inRange h]

/-- Whatever the bytes are, they are read as a value of the type. -/
theorem inRange_ofBytes (bs : List UInt8) : k.InRange (k.ofBytes bs) := by
  unfold InRange ofBytes toSigned
  cases k <;> (simp only [size]; rw [Int.bmod_def]; split <;> omega)

/-! ## Section 4: One lemma for each kind of access -/

theorem append_eq (b : XBuffer) (x : Int) : k.append b x = b.append (k.bytes x) := by
  cases k with
  | int8 => rfl
  | int16 => exact congrArg b.append (swappedObject_eq 2 x)
  | int32 => exact congrArg b.append (swappedObject_eq 4 x)
  | int64 => exact congrArg b.append (swappedObject_eq 8 x)

theorem prepend_eq (b : XBuffer) (x : Int) : k.prepend b x = b.prepend (k.bytes x) := by
  cases k with
  | int8 => rfl
  | int16 => exact congrArg b.prepend (swappedObject_eq 2 x)
  | int32 =>
    have hbytes := hostToNetwork32_eq x
    exact congrArg b.prepend (hbytes.trans (swappedObject_eq 4 x))
  | int64 => exact congrArg b.prepend (swappedObject_eq 8 x)

/-- An integer of `size` bytes is looked at and moved over. -/
theorem readObject_spec {b : XBuffer} {size : Nat} (ofBytes : List UInt8 → Int) (hv : b.Valid)
    (h : size ≤ b.readableBytes) :
    ∃ b', b.readObject (·.peekObject size ofBytes) (·.moveOver size) =
        .ok (ofBytes (b.readable.take size), b') ∧ b'.Valid ∧
      b'.readable = b.readable.drop size := by
  obtain ⟨b', hmove, hv', hread, _⟩ := XBuffer.moveOver_spec hv h
  have hr := hv.readableBytes_eq
  have hw := hv.writer_le_size
  have hlw := hv.reader_le_writer
  have hmem : readMem b.buffer_ b.readerIndex_ size = .ok (b.readable.take size) := by
    rw [XBuffer.readMem_eq (by omega)]
    exact congrArg Except.ok (take_slice (by omega)).symm
  refine ⟨b', ?_, hv', hread⟩
  simp only [XBuffer.readObject, XBuffer.peekObject, cAssert_true h, hmem, hmove, ok_bind,
    pure_eq_ok]

theorem read_spec {b : XBuffer} (hv : b.Valid) (h : k.size ≤ b.readableBytes) :
    ∃ b', k.read b = .ok (k.ofBytes (b.readable.take k.size), b') ∧ b'.Valid ∧
      b'.readable = b.readable.drop k.size := by
  have hlen : (b.readable.take k.size).length = k.size := by
    rw [List.length_take, hv.length_readable]
    omega
  have hswapped := ofSwappedObject_eq (b.readable.take k.size)
  rw [hlen] at hswapped
  cases k with
  | int8 =>
    obtain ⟨b', hok, hrest⟩ := readObject_spec ofObjectBytes hv h
    refine ⟨b', hok.trans ?_, hrest⟩
    -- one byte is not swapped, so its two readings are to be compared
    have hone : ofObjectBytes (b.readable.take 1) = IntKind.int8.ofBytes (b.readable.take 1) := by
      obtain ⟨byte, hbyte⟩ := List.length_eq_one_iff.mp hlen
      have hbyte : b.readable.take 1 = [byte] := hbyte
      unfold ofObjectBytes ofBytes
      rw [hbyte, BigEndian.decodeLittle_eq]
      rfl
    exact congrArg (fun x => Except.ok (x, b')) hone
  | int16 =>
    obtain ⟨b', hok, hrest⟩ := readObject_spec
      (ofSwappedObject 2 XNetApi.networkToHost16) hv h
    exact ⟨b', hok.trans (congrArg (fun x => Except.ok (x, b')) hswapped), hrest⟩
  | int32 =>
    obtain ⟨b', hok, hrest⟩ := readObject_spec networkToHost32 hv h
    have hvalue := (networkToHost32_eq hlen).trans hswapped
    exact ⟨b', hok.trans (congrArg (fun x => Except.ok (x, b')) hvalue), hrest⟩
  | int64 =>
    obtain ⟨b', hok, hrest⟩ := readObject_spec
      (ofSwappedObject 8 XNetApi.networkToHost64) hv h
    exact ⟨b', hok.trans (congrArg (fun x => Except.ok (x, b')) hswapped), hrest⟩

end IntKind

/-! ## Section 5: Values and calls -/

/-- `std::string::max_size()`. -/
def stringMaxSize : Nat := 2 ^ 63 - 1

/-- A value of an integer type, or a string. -/
inductive Value where
  | int (k : IntKind) (x : { x : Int // k.InRange x })
  | str (s : { s : List UInt8 // s.length ≤ stringMaxSize })
  deriving DecidableEq

/-- What a read asks for. -/
inductive ReadKind where
  | int (k : IntKind)
  | str (len : Nat)
  deriving DecidableEq, Repr

/-- What a read returns. -/
inductive Datum where
  | int (x : Int)
  | str (s : List UInt8)
  deriving DecidableEq, Repr

namespace Value

def bytes : Value → List UInt8
  | .int k x => k.bytes x
  | .str s => s

def kind : Value → ReadKind
  | .int k _ => .int k
  | .str s => .str s.val.length

def datum : Value → Datum
  | .int _ x => .int x
  | .str s => .str s

end Value

namespace ReadKind

def size : ReadKind → Nat
  | .int k => k.size
  | .str len => len

/-- What these bytes are, read that way. -/
def ofBytes : ReadKind → List UInt8 → Datum
  | .int k, bs => .int (k.ofBytes bs)
  | .str _, bs => .str bs

end ReadKind

/-- The calls: a value is appended, bytes are skipped, or a value is read. -/
inductive Access where
  | append (v : Value)
  | moveOver (len : Nat)
  | read (kind : ReadKind)

namespace XBuffer

def appendValue (b : XBuffer) : Value → Except Halt XBuffer
  | .int k x => k.append b x
  | .str s => b.append s

def readValue (b : XBuffer) : ReadKind → Except Halt (Datum × XBuffer)
  | .int k => (k.read b).map fun r => (.int r.1, r.2)
  | .str len => (b.readStr len).map fun r => (.str r.1, r.2)

end XBuffer

def Access.exec : Access → XBuffer → Except Halt (Option Datum × XBuffer)
  | .append v, b => (b.appendValue v).map (none, ·)
  | .moveOver len, b => (b.moveOver len).map (none, ·)
  | .read kind, b => (b.readValue kind).map fun r => (some r.1, r.2)

/-- What the content of a buffer stands for: bytes that were there before, and
    values that were appended and not yet read. -/
structure Pending where
  earlier : List UInt8
  values : List Value
  deriving DecidableEq

/-- Earlier content is read in pieces of any kind, up to its end; after that
    the values come back one by one, to reads of their own kind. -/
def Access.spec : Access → Pending → Option (Option Datum × Pending)
  | .append v, p => some (none, { p with values := p.values ++ [v] })
  | .moveOver len, p =>
      if len ≤ p.earlier.length then some (none, { p with earlier := p.earlier.drop len }) else none
  | .read kind, p =>
      if p.earlier ≠ [] then
        if kind.size ≤ p.earlier.length then
          some (some (kind.ofBytes (p.earlier.take kind.size)),
            { p with earlier := p.earlier.drop kind.size })
        else none
      else
        match p.values with
        | [] => none
        | v :: values => if kind = v.kind then some (some v.datum, ⟨[], values⟩) else none

/-- The values that the calls append, in order. -/
def appended : List Access → List Value
  | [] => []
  | .append v :: calls => v :: appended calls
  | _ :: calls => appended calls

/-- The readable bytes are the earlier content and the values behind it. -/
def Pending.Represented (b : XBuffer) (p : Pending) : Prop :=
  b.Valid ∧ b.readable = p.earlier ++ p.values.flatMap Value.bytes

/-- The only admitted error: the vector refuses to grow for an append. -/
def Access.LengthError : Access → XBuffer → Halt → Prop
  | .append v, b, e => e = .exception ∧ vectorMaxSize < b.writerIndex_ + v.bytes.length
  | _, _, _ => False

/-! ## Section 6: The buffer follows the queue of values -/

theorem Value.length_le (v : Value) : v.bytes.length ≤ stringMaxSize := by
  cases v with
  | int k x =>
    have hlen : (Value.int k x).bytes.length = k.size := k.length_bytes x
    rw [hlen]
    cases k <;> decide
  | str s => exact s.property

/-- The bytes of a value, read as what they are, are the value. -/
theorem Value.ofBytes_bytes (v : Value) : v.kind.ofBytes v.bytes = v.datum := by
  cases v with
  | int k x => exact congrArg Datum.int (k.ofBytes_bytes x.property)
  | str s => rfl

theorem Value.length_bytes (v : Value) : v.bytes.length = v.kind.size := by
  cases v with
  | int k x => exact k.length_bytes x
  | str s => rfl

namespace XBuffer

variable {b : XBuffer}

theorem appendValue_spec (v : Value) (hv : b.Valid) :
    (∃ b', b.appendValue v = .ok b' ∧ b'.Valid ∧ b'.readable = b.readable ++ v.bytes) ∨
      (b.appendValue v = .error .exception ∧ vectorMaxSize < b.writerIndex_ + v.bytes.length) := by
  have hsame : b.appendValue v = b.append v.bytes := by
    cases v with
    | int k x => exact k.append_eq b x
    | str s => rfl
  have hlen := v.length_le
  have hmax : stringMaxSize = 2 ^ 63 - 1 := rfl
  have hvec : vectorMaxSize = 2 ^ 63 - 1 := rfl
  have hmod : sizeModulus = 2 ^ 64 := rfl
  have hhead : kDiscardableSize = 4 := rfl
  have hw := hv.writer_le_size
  have hsize := hv.size_le_max
  rw [hsame]
  exact append_spec v.bytes hv (by omega) (by omega)

theorem readValue_spec (kind : ReadKind) (hv : b.Valid) (h : kind.size ≤ b.readableBytes) :
    ∃ b', b.readValue kind = .ok (kind.ofBytes (b.readable.take kind.size), b') ∧ b'.Valid ∧
      b'.readable = b.readable.drop kind.size := by
  cases kind with
  | int k =>
    obtain ⟨b', hok, hrest⟩ := k.read_spec hv h
    exact ⟨b', by rw [readValue, hok]; rfl, hrest⟩
  | str len =>
    have hle : len ≤ b.readableBytes := h
    obtain ⟨b', hok, hrest⟩ := readStr_spec hv hle
    exact ⟨b', by rw [readValue, hok]; rfl, hrest⟩

/-- One call. -/
theorem access_follows (call : Access) (b : XBuffer) (p : Pending) (out : Option Datum)
    (p' : Pending) (hrep : p.Represented b) (hspec : call.spec p = some (out, p')) :
    (∃ b', call.exec b = .ok (out, b') ∧ p'.Represented b') ∨
      ∃ e, call.exec b = .error e ∧ call.LengthError b e := by
  obtain ⟨hv, hread⟩ := hrep
  have hlen : b.readableBytes = p.earlier.length + (p.values.flatMap Value.bytes).length := by
    rw [← hv.length_readable, hread, List.length_append]
  cases call with
  | append v =>
    cases hspec
    rcases appendValue_spec v hv with ⟨b', hok, hv', hread'⟩ | ⟨herr, hbig⟩
    · refine Or.inl ⟨b', by rw [Access.exec, hok]; rfl, hv', ?_⟩
      rw [hread', hread, List.flatMap_append, List.append_assoc]
      simp
    · exact Or.inr ⟨.exception, by rw [Access.exec, herr]; rfl, rfl, hbig⟩
  | moveOver len =>
    simp only [Access.spec] at hspec
    split at hspec
    · rename_i hle
      cases hspec
      obtain ⟨b', hok, hv', hread', _⟩ := moveOver_spec hv (by omega : len ≤ b.readableBytes)
      refine Or.inl ⟨b', by rw [Access.exec, hok]; rfl, hv', ?_⟩
      rw [hread', hread, List.drop_append_of_le_length hle]
    · cases hspec
  | read kind =>
    simp only [Access.spec] at hspec
    split at hspec
    · -- earlier content is left: the read stays inside it
      split at hspec
      · rename_i hle
        cases hspec
        obtain ⟨b', hok, hv', hread'⟩ := readValue_spec kind hv (by omega)
        refine Or.inl ⟨b', ?_, hv', ?_⟩
        · rw [Access.exec, hok, hread, List.take_append_of_le_length hle]
          rfl
        · rw [hread', hread, List.drop_append_of_le_length hle]
      · cases hspec
    · -- none is left: the first value is read
      rename_i hearlier
      have hearlier : p.earlier = [] := not_ne_iff.mp hearlier
      split at hspec
      · cases hspec
      · rename_i v values hvalues
        split at hspec
        · rename_i hkind
          cases hspec
          have hfront : b.readable = v.bytes ++ values.flatMap Value.bytes := by
            rw [hread, hearlier, hvalues, List.nil_append, List.flatMap_cons]
          have hroom : v.kind.size ≤ b.readableBytes := by
            rw [← hv.length_readable, hfront, List.length_append, v.length_bytes]
            exact Nat.le_add_right _ _
          obtain ⟨b', hok, hv', hread'⟩ := readValue_spec v.kind hv hroom
          rw [hfront, ← v.length_bytes, List.take_left, v.ofBytes_bytes] at hok
          rw [hfront, ← v.length_bytes, List.drop_left] at hread'
          refine Or.inl ⟨b', ?_, hv', hread'⟩
          rw [hkind, Access.exec, hok]
          rfl
        · cases hspec

/-- Reading the kinds of the values, in order, is allowed and returns them. -/
theorem reads_allowed (values : List Value) :
    runAllowed Access.spec (values.map (.read ·.kind)) ⟨[], values⟩ =
      some (values.map (some ·.datum), ⟨[], []⟩) := by
  induction values with
  | nil => rfl
  | cons v values ih =>
    simp only [List.map_cons, runAllowed, Access.spec, ne_eq, not_true_eq_false, if_false, if_true,
      ih]

/-- What is pending are the last values appended: none is lost, and none
    overtakes another. -/
theorem pending_suffix : ∀ {calls : List Access} {p p' : Pending} {outs : List (Option Datum)},
    runAllowed Access.spec calls p = some (outs, p') →
      p'.values <:+ p.values ++ appended calls := by
  intro calls
  induction calls with
  | nil =>
    intro p p' outs hspec
    cases hspec
    exact ⟨[], (List.append_nil p.values).symm⟩
  | cons call calls ih =>
    intro p p' outs hspec
    obtain ⟨out, p₁, rest, hcall, hrest, _⟩ := runAllowed_cons hspec
    have hsuffix := ih hrest
    cases call with
    | append v =>
      cases hcall
      rw [List.append_assoc] at hsuffix
      exact hsuffix
    | moveOver len =>
      simp only [Access.spec] at hcall
      split at hcall
      · cases hcall
        exact hsuffix
      · cases hcall
    | read kind =>
      simp only [Access.spec] at hcall
      split at hcall
      · split at hcall
        · cases hcall
          exact hsuffix
        · cases hcall
      · split at hcall
        · cases hcall
        · rename_i v values hvalues
          split at hcall
          · -- the first value is taken off
            cases hcall
            rw [hvalues]
            exact hsuffix.trans (List.suffix_cons v _)
          · cases hcall

/-- Reads admit no error. -/
theorem reads_run {p p' : Pending} {outs : List (Option Datum)} {calls : List Access}
    (hrep : p.Represented b) (hreads : ∀ call ∈ calls, ∀ v, call ≠ .append v)
    (hspec : runAllowed Access.spec calls p = some (outs, p')) :
    ∃ b', runOps Access.exec calls b = .ok (outs, b') ∧ p'.Represented b' := by
  rcases run_follows access_follows calls b p outs p' hrep hspec with
    hok | ⟨done, call, rest, b', _, _, e, hsplit, _, _, _, hadmitted, _⟩
  · exact hok
  · have hmem : call ∈ calls := by simp [hsplit]
    cases call with
    | append v => exact absurd rfl (hreads _ hmem v)
    | moveOver len => exact hadmitted.elim
    | read kind => exact hadmitted.elim

/-- An integer prepended is the integer read, and the content is as before. -/
theorem read_prepend (k : IntKind) {x : Int} (hv : b.Valid) (hx : k.InRange x)
    (h : k.size ≤ b.discardableBytes) :
    ∃ b₁ b₂, k.prepend b x = .ok b₁ ∧ k.read b₁ = .ok (x, b₂) ∧ b₂.Valid ∧
      b₂.readable = b.readable := by
  have hlen := k.length_bytes x
  obtain ⟨b₁, hpre, hv₁, hread₁⟩ := prepend_spec hv (by omega : (k.bytes x).length ≤ _)
  have hroom : k.size ≤ b₁.readableBytes := by
    rw [← hv₁.length_readable, hread₁, List.length_append]
    omega
  obtain ⟨b₂, hread, hv₂, hread₂⟩ := k.read_spec hv₁ hroom
  rw [hread₁, ← hlen, List.take_left, k.ofBytes_bytes hx] at hread
  rw [hread₁, ← hlen, List.drop_left] at hread₂
  exact ⟨b₁, b₂, (k.prepend_eq b x).trans hpre, hread, hv₂, hread₂⟩

/-- **Typed values.**  From any valid buffer, every sequence of calls that the
    queue of values allows returns what the queue says, unless a vector refuses
    to grow for an append.  When the earlier content is consumed, the readable
    bytes are those of the values that are pending, integers as big-endian
    two's complement, and reads of their kinds return exactly these values.
    And an integer that is prepended in the space in front is the one read. -/
theorem typed_values_round_trip (hv : b.Valid) :
    (∀ calls outs p, runAllowed Access.spec calls ⟨b.readable, []⟩ = some (outs, p) →
      RunFollows Pending.Represented Access.exec Access.spec Access.LengthError calls b
        ⟨b.readable, []⟩ outs p) ∧
    (∀ calls outs values b', runAllowed Access.spec calls ⟨b.readable, []⟩ =
        some (outs, ⟨[], values⟩) → runOps Access.exec calls b = .ok (outs, b') →
      values <:+ appended calls ∧ b'.readable = values.flatMap Value.bytes ∧
      ∃ b'', runOps Access.exec (values.map (.read ·.kind)) b' =
        .ok (values.map (some ·.datum), b'') ∧ b''.Valid ∧ b''.readable = []) ∧
    (∀ (k : IntKind) (x : Int), k.InRange x → k.size ≤ b.discardableBytes →
      ∃ b₁ b₂, k.prepend b x = .ok b₁ ∧ k.read b₁ = .ok (x, b₂) ∧ b₂.Valid ∧
        b₂.readable = b.readable) := by
  have hstart : Pending.Represented b ⟨b.readable, []⟩ :=
    ⟨hv, (List.append_nil b.readable).symm⟩
  have hfollows : ∀ calls outs p, runAllowed Access.spec calls ⟨b.readable, []⟩ = some (outs, p) →
      RunFollows Pending.Represented Access.exec Access.spec Access.LengthError calls b
        ⟨b.readable, []⟩ outs p :=
    fun calls outs p hspec => run_follows access_follows calls b _ outs p hstart hspec
  refine ⟨hfollows, ?_, fun k x hx h => read_prepend k hv hx h⟩
  intro calls outs values b' hspec hrun
  rcases hfollows calls outs _ hspec with
    ⟨b₁, hok, hrep⟩ | ⟨done, call, rest, b₁, _, _, e, _, _, _, _, _, hstops⟩
  · rw [hrun] at hok
    cases hok
    obtain ⟨b'', hreads, hv'', hread''⟩ := reads_run hrep (by simp) (reads_allowed values)
    refine ⟨?_, ?_, b'', hreads, hv'', hread''⟩
    · exact pending_suffix hspec
    · exact hrep.2.trans (List.nil_append _)
  · rw [hrun] at hstops
    cases hstops

/-- The statement for a buffer with two bytes of content in a storage that is
    almost used up: a string and integers are appended around a read of the
    first byte, and the storage is compacted on the way. -/
theorem typed_values_round_trip_compacts : ∃ b b' b'' : XBuffer,
    b = ⟨[0, 0, 0, 0, 0, 0, 0, 0, 0, 7, 8, 0], 9, 11⟩ ∧
    runOps Access.exec [.append (.str ⟨[9], by decide⟩), .moveOver 1,
      .append (.int .int16 ⟨-2, by decide⟩), .read (.int .int8),
      .append (.int .int8 ⟨-128, by decide⟩)] b = .ok ([none, none, none, some (.int 8), none], b') ∧
    b'.readable = [9, 255, 254, 128] ∧
    runOps Access.exec [.read (.str 1), .read (.int .int16), .read (.int .int8)] b' =
      .ok ([some (.str [9]), some (.int (-2)), some (.int (-128))], b'') ∧ b''.readable = [] := by
  have hv : XBuffer.Valid ⟨[0, 0, 0, 0, 0, 0, 0, 0, 0, 7, 8, 0], 9, 11⟩ :=
    ⟨by decide, by decide, by decide, by decide⟩
  obtain ⟨b', hrun⟩ : ∃ b', runOps Access.exec [.append (.str ⟨[9], by decide⟩), .moveOver 1,
      .append (.int .int16 ⟨-2, by decide⟩), .read (.int .int8),
      .append (.int .int8 ⟨-128, by decide⟩)]
        ⟨[0, 0, 0, 0, 0, 0, 0, 0, 0, 7, 8, 0], 9, 11⟩ =
          .ok ([none, none, none, some (.int 8), none], b') :=
    ⟨⟨[0, 0, 0, 0, 8, 9, 255, 254, 128, 7, 8, 9], 5, 9⟩, by decide +kernel⟩
  obtain ⟨_, hread, b'', hreads, _, hempty⟩ := (typed_values_round_trip hv).2.1 _ _
    [.str ⟨[9], by decide⟩, .int .int16 ⟨-2, by decide⟩, .int .int8 ⟨-128, by decide⟩] b'
    (by decide +kernel) hrun
  exact ⟨_, b', b'', rfl, hrun, hread, hreads, hempty⟩

end XBuffer

end XFast
