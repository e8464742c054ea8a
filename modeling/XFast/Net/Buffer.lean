import XFast.Base.FileApi
import XFast.Framework.Slice

/-! # xBuffer: the byte buffer of a connection

    Model of `net/include/buffer.h` and `net/buffer.cpp`.  The storage is a
    `std::vector<char>`; the readable bytes lie between `readerIndex_` and
    `writerIndex_`, and the first `kDiscardableSize` bytes are kept free so
    that a header can be prepended without moving the content.

    Every operation is written as the source computes it: `size_t` sums and
    differences wrap around, each `assert` is a `cAssert`, the vector throws
    `std::length_error` above its maximal size, and a copy that leaves its
    object is a `memoryFault`. -/

namespace XFast

open Slice

/-! ## Section 1: Memory -/

/-- `std::vector<char>::max_size()`. -/
def vectorMaxSize : Nat := 2 ^ 63 - 1

/-- `std::vector<char>(n)`. -/
def vectorOfSize (n : Nat) : Except Halt (List UInt8) :=
  if n ≤ vectorMaxSize then .ok (List.replicate n 0) else .error .exception

/-- `std::vector<char>::resize(n)`. -/
def vectorResize (xs : List UInt8) (n : Nat) : Except Halt (List UInt8) :=
  if n ≤ vectorMaxSize then .ok (xs.take n ++ List.replicate (n - xs.length) 0)
  else .error .exception

/-- Reading `n` bytes of the object `xs` from index `i` on. -/
def readMem (xs : List UInt8) (i n : Nat) : Except Halt (List UInt8) :=
  if i + n ≤ xs.length then .ok (slice xs i (i + n)) else .error .memoryFault

/-- Writing the bytes `ys` into the object `xs` from index `i` on. -/
def writeMem (xs : List UInt8) (i : Nat) (ys : List UInt8) : Except Halt (List UInt8) :=
  if i + ys.length ≤ xs.length then .ok (overwrite xs i ys) else .error .memoryFault

/-! ## Section 2: The buffer and its indexes -/

structure XBuffer where
  buffer_ : List UInt8
  readerIndex_ : Nat
  writerIndex_ : Nat
  deriving DecidableEq, Repr

namespace XBuffer

/-- `sizeof(int)`. -/
def kDiscardableSize : Nat := 4

def kInitialSize : Nat := 1024 - 4

def readableBytes (b : XBuffer) : Nat := sizeSub b.writerIndex_ b.readerIndex_

def writableBytes (b : XBuffer) : Nat := sizeSub b.buffer_.length b.writerIndex_

def discardableBytes (b : XBuffer) : Nat := b.readerIndex_

/-- The member initialisers of the constructor. -/
def initial (buffer : List UInt8) : XBuffer :=
  ⟨buffer, kDiscardableSize, kDiscardableSize⟩

/-- The constructor `xBuffer(size_t initialSize)`. -/
def new (initialSize : Nat) : Except Halt XBuffer := do
  let buffer ← vectorOfSize (sizeAdd kDiscardableSize initialSize)
  let b := initial buffer
  cAssert (b.readableBytes = 0)
  cAssert (b.writableBytes = initialSize)
  cAssert (b.discardableBytes = kDiscardableSize)
  return b

/-- The bytes of the storage from `peek()` on. -/
def peek (b : XBuffer) : List UInt8 := b.buffer_.drop b.readerIndex_

/-- The readable bytes. -/
def readable (b : XBuffer) : List UInt8 :=
  slice b.buffer_ b.readerIndex_ b.writerIndex_

/-- `toString()`: a copy of the readable bytes. -/
def toString (b : XBuffer) : Except Halt (List UInt8) :=
  readMem b.buffer_ b.readerIndex_ b.readableBytes

/-! ## Section 3: Reading -/

def reset (b : XBuffer) : XBuffer :=
  { b with readerIndex_ := kDiscardableSize, writerIndex_ := kDiscardableSize }

def moveOver (b : XBuffer) (len : Nat) : Except Halt XBuffer := do
  cAssert (len ≤ b.readableBytes)
  if len < b.readableBytes then
    return { b with readerIndex_ := sizeAdd b.readerIndex_ len }
  else
    return b.reset

def readStr (b : XBuffer) (len : Nat) : Except Halt (List UInt8 × XBuffer) := do
  cAssert (len ≤ b.readableBytes)
  let result ← readMem b.buffer_ b.readerIndex_ len
  let b ← b.moveOver len
  return (result, b)

def readAll (b : XBuffer) : Except Halt (List UInt8 × XBuffer) :=
  b.readStr b.readableBytes

/-! ## Section 4: Writing -/

/-- `makeSpace(len)`: grow the storage, or move the readable bytes down to
    the reserved header when the consumed prefix leaves enough room. -/
def makeSpace (b : XBuffer) (len : Nat) : Except Halt XBuffer := do
  if sizeAdd b.writableBytes b.discardableBytes < sizeAdd len kDiscardableSize then
    -- `buffer_.resize(writerIndex_ + len)`
    let buffer ← vectorResize b.buffer_ (sizeAdd b.writerIndex_ len)
    return { b with buffer_ := buffer }
  else
    -- `std::copy` of the readable bytes to the front
    cAssert (kDiscardableSize < b.readerIndex_)
    let readable := b.readableBytes
    let bytes ← readMem b.buffer_ b.readerIndex_ readable
    let buffer ← writeMem b.buffer_ kDiscardableSize bytes
    let b' : XBuffer := ⟨buffer, kDiscardableSize, sizeAdd kDiscardableSize readable⟩
    cAssert (readable = b'.readableBytes)
    return b'

def ensureWritableBytes (b : XBuffer) (len : Nat) : Except Halt XBuffer := do
  let b' ← if b.writableBytes < len then b.makeSpace len else pure b
  cAssert (len ≤ b'.writableBytes)
  return b'

def hasWritten (b : XBuffer) (len : Nat) : Except Halt XBuffer := do
  cAssert (len ≤ b.writableBytes)
  return { b with writerIndex_ := sizeAdd b.writerIndex_ len }

/-- `append(const char* data, size_t len)`, where `data` points at the start
    of the object `src`. -/
def appendMem (b : XBuffer) (src : List UInt8) (len : Nat) : Except Halt XBuffer := do
  let b ← b.ensureWritableBytes len
  let bytes ← readMem src 0 len
  let buffer ← writeMem b.buffer_ b.writerIndex_ bytes
  { b with buffer_ := buffer }.hasWritten len

/-- `append(const string& str)`. -/
def append (b : XBuffer) (str : List UInt8) : Except Halt XBuffer :=
  b.appendMem str str.length

def unwrite (b : XBuffer) (len : Nat) : Except Halt XBuffer := do
  cAssert (len ≤ b.readableBytes)
  return { b with writerIndex_ := sizeSub b.writerIndex_ len }

/-- `prepend(const void* data, size_t len)`. -/
def prepend (b : XBuffer) (data : List UInt8) : Except Halt XBuffer := do
  cAssert (data.length ≤ b.discardableBytes)
  let reader := sizeSub b.readerIndex_ data.length
  let buffer ← writeMem b.buffer_ reader data
  return { b with buffer_ := buffer, readerIndex_ := reader }

/-- Filling the bytes from `beginWrite()` on from outside, then `hasWritten`. -/
def fillAndHasWritten (b : XBuffer) (data : List UInt8) : Except Halt XBuffer := do
  let buffer ← writeMem b.buffer_ b.writerIndex_ data
  { b with buffer_ := buffer }.hasWritten data.length

end XBuffer

/-! ## Section 5: Scatter read -/

/-- What one `::readv` gives: bytes (none at end of stream) or an error. -/
inductive ReadvResult where
  | bytes (d : List UInt8)
  | fail (errno : Errno)
  deriving DecidableEq, Repr

namespace XBuffer

/-- `sizeof extrabuf` in `fillFromFd`. -/
def extrabufSize : Nat := 8192

/-- The total length of the iovecs that `fillFromFd` hands to `readv`. -/
def iovLength (b : XBuffer) : Nat :=
  if b.writableBytes < extrabufSize then b.writableBytes + extrabufSize
  else b.writableBytes

/-- `fillFromFd(fd)` when `readv` gives `r`.  The first iovec is the tail of
    the storage, the second one is `extrabuf`, and `readv` fills the first
    before the second. -/
def fillFromFd (b : XBuffer) : ReadvResult → Except Halt (Int × XBuffer)
  | .fail _ => .ok (-1, b)
  | .bytes d =>
      -- `readv` never gives more than the iovecs can take
      if b.iovLength < d.length then .error .infeasible
      else if d.length ≤ b.writableBytes then do
        let buffer ← writeMem b.buffer_ b.writerIndex_ d
        return (toInt32 d.length,
          { b with buffer_ := buffer, writerIndex_ := sizeAdd b.writerIndex_ d.length })
      else do
        -- the storage is full, and the rest of the bytes lies in `extrabuf`
        let buffer ← writeMem b.buffer_ b.writerIndex_ (d.take b.writableBytes)
        let extrabuf := d.drop b.writableBytes
        let b' ← ({ b with buffer_ := buffer, writerIndex_ := buffer.length } : XBuffer).appendMem
          extrabuf extrabuf.length
        return (toInt32 d.length, b')

end XBuffer

end XFast
