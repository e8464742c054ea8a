import Mathlib.Algebra.Order.Ring.Nat
import Mathlib.Data.List.Induction

/-! # Fixed-width numbers as bytes, most significant byte first

    * `decode_encode`: the bytes of a number denote it modulo `256 ^ width`,
      so a number that fits comes back.
    * `encodeLittle_byteReverse`: a number whose bytes are reversed lies in the
      memory of a little-endian machine most significant byte first. -/

namespace BigEndian

/-- The `width` low-order bytes of `n`. -/
def encode : (width : Nat) → (n : Nat) → List UInt8
  | 0, _ => []
  | width + 1, n => encode width (n / 256) ++ [UInt8.ofNat n]

/-- The number that the bytes denote. -/
def decode (bytes : List UInt8) : Nat :=
  bytes.foldl (fun n byte => n * 256 + byte.toNat) 0

theorem length_encode (width n : Nat) : (encode width n).length = width := by
  induction width generalizing n with
  | zero => rfl
  | succ width ih =>
    unfold encode
    rw [List.length_append, ih]
    rfl

theorem decode_append_singleton (bytes : List UInt8) (byte : UInt8) :
    decode (bytes ++ [byte]) = decode bytes * 256 + byte.toNat := by
  unfold decode
  rw [List.foldl_append]
  rfl

theorem decode_encode (width n : Nat) : decode (encode width n) = n % 256 ^ width := by
  induction width generalizing n with
  | zero => exact (Nat.mod_one n).symm
  | succ width ih =>
    have hbyte : (UInt8.ofNat n).toNat = n % 256 := UInt8.toNat_ofNat'
    unfold encode
    rw [decode_append_singleton, ih, hbyte, pow_succ', Nat.mod_mul, Nat.mul_comm, Nat.add_comm]

theorem decode_encode_of_lt {width n : Nat} (h : n < 256 ^ width) :
    decode (encode width n) = n := by
  rw [decode_encode, Nat.mod_eq_of_lt h]

theorem decode_lt (bytes : List UInt8) : decode bytes < 256 ^ bytes.length := by
  induction bytes using List.reverseRecOn with
  | nil => decide
  | append_singleton bytes byte ih =>
    have hbyte := byte.toNat_lt
    rw [decode_append_singleton, List.length_append, List.length_singleton, pow_succ]
    omega

/-! ## Section 2: The memory of a little-endian machine -/

/-- The `width` low-order bytes of `n`, least significant first. -/
def encodeLittle : (width : Nat) → (n : Nat) → List UInt8
  | 0, _ => []
  | width + 1, n => UInt8.ofNat n :: encodeLittle width (n / 256)

def decodeLittle : List UInt8 → Nat
  | [] => 0
  | byte :: bytes => byte.toNat + 256 * decodeLittle bytes

/-- The number whose bytes in memory are those of `n` in reverse. -/
def byteReverse (width n : Nat) : Nat := decodeLittle (encodeLittle width n).reverse

theorem encodeLittle_reverse (width n : Nat) :
    (encodeLittle width n).reverse = encode width n := by
  induction width generalizing n with
  | zero => rfl
  | succ width ih =>
    unfold encodeLittle encode
    rw [List.reverse_cons, ih]

theorem decodeLittle_eq (bytes : List UInt8) : decodeLittle bytes = decode bytes.reverse := by
  induction bytes with
  | nil => rfl
  | cons byte bytes ih =>
    unfold decodeLittle
    rw [List.reverse_cons, decode_append_singleton, ih]
    omega

theorem length_encodeLittle (width n : Nat) : (encodeLittle width n).length = width := by
  rw [← List.length_reverse, encodeLittle_reverse, length_encode]

/-- Bytes in memory are those of the number that they denote. -/
theorem encodeLittle_decodeLittle (bytes : List UInt8) :
    encodeLittle bytes.length (decodeLittle bytes) = bytes := by
  induction bytes with
  | nil => rfl
  | cons byte bytes ih =>
    have hlt := byte.toNat_lt
    have hlow : UInt8.ofNat (byte.toNat + 256 * decodeLittle bytes) = byte := by
      apply UInt8.toNat_inj.mp
      rw [UInt8.toNat_ofNat']
      omega
    have hhigh : (byte.toNat + 256 * decodeLittle bytes) / 256 = decodeLittle bytes := by omega
    unfold decodeLittle
    rw [List.length_cons, encodeLittle, hlow, hhigh, ih]

theorem byteReverse_eq (width n : Nat) : byteReverse width n = decodeLittle (encode width n) := by
  unfold byteReverse
  rw [encodeLittle_reverse]

theorem byteReverse_lt (width n : Nat) : byteReverse width n < 256 ^ width := by
  have hlt := decode_lt (encode width n).reverse
  rw [List.length_reverse, length_encode] at hlt
  rw [byteReverse_eq, decodeLittle_eq]
  exact hlt

theorem encodeLittle_byteReverse (width n : Nat) :
    encodeLittle width (byteReverse width n) = encode width n := by
  have hcode := encodeLittle_decodeLittle (encode width n)
  rw [length_encode] at hcode
  rw [byteReverse_eq, hcode]

/-- The same in the other direction: bytes that were put most significant
    first, read as they lie in memory and reversed. -/
theorem byteReverse_decodeLittle (bytes : List UInt8) :
    byteReverse bytes.length (decodeLittle bytes) = decode bytes := by
  unfold byteReverse
  rw [encodeLittle_decodeLittle, decodeLittle_eq, List.reverse_reverse]

theorem byteReverse_byteReverse (width n : Nat) :
    byteReverse width (byteReverse width n) = n % 256 ^ width := by
  have hbytes : byteReverse width (byteReverse width n) = decodeLittle (encode width n).reverse := by
    rw [← encodeLittle_byteReverse]
    rfl
  rw [hbytes, decodeLittle_eq, List.reverse_reverse, decode_encode]

end BigEndian
