import XFast.Base.Convert
import XFast.Base.Option
import XFast.Framework.BigEndian

/-! # Addresses and their texts

    Model of `net/ipaddr.cpp` and of the texts in `net/netapi.cpp`.  An
    `xIpAddr` is a union of `sockaddr_in` and `sockaddr_in6`; the constructors
    for IPv4 clear the first of them only.  A text that `inet_pton` refuses is
    logged, and the address stays 0.0.0.0.

    For IPv4 a text is four numerals up to 255 with points between them; the
    texts of IPv6 are left to the C library. -/

namespace XFast

open Numeral BigEndian Separator

/-! ## Section 1: The C library -/

/-- The bytes of `in_addr`, in memory. -/
structure InAddr where
  first : UInt8
  second : UInt8
  third : UInt8
  fourth : UInt8
  deriving DecidableEq, Repr

def isOctet (s : List Char) : Prop := IsNumeral s ∧ leading s ≤ 255

instance : DecidablePred isOctet := fun _ => inferInstanceAs (Decidable (_ ∧ _))

/-- `inet_ntop(AF_INET, ..)`. -/
def inet_ntop4 (sin_addr : InAddr) : List Char :=
  ['.'].intercalate ([sin_addr.first, sin_addr.second, sin_addr.third, sin_addr.fourth].map
    fun b => Nat.toDigits 10 b.toNat)

/-- `inet_pton(AF_INET, ..)`. -/
def inet_pton4 (src : List Char) : Option InAddr :=
  match src.splitOn '.' with
  | [s₁, s₂, s₃, s₄] =>
      if isOctet s₁ ∧ isOctet s₂ ∧ isOctet s₃ ∧ isOctet s₄ then
        some ⟨.ofNat (leading s₁), .ofNat (leading s₂), .ofNat (leading s₃), .ofNat (leading s₄)⟩
      else none
  | _ => none

/-- `inet_ntop(AF_INET6, ..)` and `inet_pton(AF_INET6, ..)`, on the sixteen
    bytes. -/
structure Inet6 where
  ntop : (Fin 16 → UInt8) → List Char
  pton : List Char → Option (Fin 16 → UInt8)

/-- What they do with `::1`. -/
def Inet6.loopback : Inet6 where
  ntop a := if List.ofFn a = List.replicate 15 0 ++ [1] then [':', ':', '1'] else []
  pton s := if s = [':', ':', '1'] then some fun i => if i = 15 then 1 else 0 else none

theorem isOctet_toDigits (b : UInt8) : isOctet (Nat.toDigits 10 b.toNat) := by
  refine ⟨isNumeral_toDigits _, ?_⟩
  have hlt := b.toNat_lt
  rw [leading_toDigits]
  omega

theorem ofNat_leading_toDigits (b : UInt8) :
    UInt8.ofNat (leading (Nat.toDigits 10 b.toNat)) = b := by
  rw [leading_toDigits, UInt8.ofNat_toNat]

theorem toDigits_ofNat_leading {s : List Char} (h : isOctet s) :
    Nat.toDigits 10 (UInt8.ofNat (leading s)).toNat = s := by
  have hlt : leading s % 2 ^ 8 = leading s := Nat.mod_eq_of_lt (Nat.lt_succ_of_le h.2)
  rw [UInt8.toNat_ofNat', hlt]
  exact isNumeral_iff.mp h.1

/-- No numeral has a character that is no digit. -/
theorem notMem_toDigits {c : Char} (hc : ¬c.isDigit) (n : Nat) : c ∉ Nat.toDigits 10 n :=
  fun hmem => hc (isDigit_of_mem hmem)

theorem splitOn_inet_ntop4 (sin_addr : InAddr) : (inet_ntop4 sin_addr).splitOn '.' =
    [sin_addr.first, sin_addr.second, sin_addr.third, sin_addr.fourth].map
      fun b => Nat.toDigits 10 b.toNat := by
  refine List.splitOn_intercalate '.' ?_ (List.cons_ne_nil _ _)
  intro s hs
  obtain ⟨b, -, rfl⟩ := List.mem_map.mp hs
  exact notMem_toDigits (by decide) _

theorem inet_pton4_inet_ntop4 (sin_addr : InAddr) :
    inet_pton4 (inet_ntop4 sin_addr) = some sin_addr := by
  unfold inet_pton4
  rw [splitOn_inet_ntop4]
  simp only [List.map_cons, List.map_nil, isOctet_toDigits, and_self, if_true,
    ofNat_leading_toDigits]

theorem inet_ntop4_inet_pton4 {src : List Char} {sin_addr : InAddr}
    (h : inet_pton4 src = some sin_addr) : inet_ntop4 sin_addr = src := by
  unfold inet_pton4 at h
  split at h
  case h_1 s₁ s₂ s₃ s₄ hsplit =>
    obtain ⟨⟨h₁, h₂, h₃, h₄⟩, heq⟩ := Option.ite_none_right_eq_some.mp h
    rw [← Option.some.inj heq]
    unfold inet_ntop4
    simp only [List.map_cons, List.map_nil, toDigits_ofNat_leading, h₁, h₂, h₃, h₄]
    rw [← hsplit, List.intercalate_splitOn]
  case h_2 => cases h

/-- Four numerals up to 255 with points between them. -/
def IsDotted (src : List Char) : Prop := ∃ sin_addr, inet_ntop4 sin_addr = src

theorem isDotted_iff {src : List Char} : IsDotted src ↔ (inet_pton4 src).isSome := by
  constructor
  · rintro ⟨sin_addr, rfl⟩
    rw [inet_pton4_inet_ntop4]
    rfl
  · intro h
    obtain ⟨sin_addr, heq⟩ := Option.isSome_iff_exists.mp h
    exact ⟨sin_addr, inet_ntop4_inet_pton4 heq⟩

instance : DecidablePred IsDotted := fun _ => decidable_of_iff _ isDotted_iff.symm

/-! ## Section 2: The model -/

def AF_INET : Nat := 2

def AF_INET6 : Nat := 10

def INET_ADDRSTRLEN : Nat := 16

def INET6_ADDRSTRLEN : Nat := 46

def hostToNetwork16 (host16 : UInt16) : UInt16 := .ofNat (byteReverse 2 host16.toNat)

def networkToHost16 (net16 : UInt16) : UInt16 := .ofNat (byteReverse 2 net16.toNat)

/-- The bytes of the union: family and port are at the same place in both
    structures, `sin_addr` is where `sin6_flowinfo` is, and `sin_zero` is the
    first half of `sin6_addr`. -/
structure XIpAddr where
  sin_family : Nat
  sin_port : UInt16
  sin_addr : InAddr
  sin6_addr : Fin 16 → UInt8
  sin6_scope_id : Fin 4 → UInt8

namespace XNetApi

/-- What stands in a `char*` up to the null byte. -/
def cStr (s : List Char) : List Char := before '\x00' s

def fromIpPort (ip : List Char) (port : UInt16) (addr : XIpAddr) : XIpAddr :=
  { addr with
    sin_family := AF_INET
    sin_port := hostToNetwork16 port
    sin_addr := (inet_pton4 (cStr ip)).getD addr.sin_addr }

def fromIpPort6 (six : Inet6) (ip : List Char) (port : UInt16) (addr : XIpAddr) : XIpAddr :=
  { addr with
    sin_family := AF_INET6
    sin_port := hostToNetwork16 port
    sin6_addr := (six.pton (cStr ip)).getD addr.sin6_addr }

/-- What is in `buf` then, which was empty. -/
def toIp (six : Inet6) (size : Nat) (addr : XIpAddr) : Except Halt (List Char) :=
  if addr.sin_family = AF_INET then do
    cAssert (size ≥ INET_ADDRSTRLEN)
    return inet_ntop4 addr.sin_addr
  else if addr.sin_family = AF_INET6 then do
    cAssert (size ≥ INET6_ADDRSTRLEN)
    return six.ntop addr.sin6_addr
  else
    return []

def toIpPort (six : Inet6) (size : Nat) (addr : XIpAddr) : Except Halt (List Char) := do
  let buf ← toIp six size addr
  let port := networkToHost16 addr.sin_port
  cAssert (size > buf.length)
  -- `snprintf` leaves room for the null byte
  return buf ++ (':' :: Nat.toDigits 10 port.toNat).take (size - buf.length - 1)

end XNetApi

namespace XIpAddr

open XNetApi

/-- `memzero(&addr_, sizeof addr_)`. -/
def memzeroIn (addr : XIpAddr) : XIpAddr :=
  { addr with
    sin_family := 0
    sin_port := 0
    sin_addr := ⟨0, 0, 0, 0⟩
    sin6_addr := fun i => if i < 8 then 0 else addr.sin6_addr i }

/-- `memzero(&addr6_, sizeof addr6_)`. -/
def zero6 : XIpAddr := ⟨0, 0, ⟨0, 0, 0, 0⟩, fun _ => 0, fun _ => 0⟩

/-- In network byte order, as the next one. -/
def INADDR_ANY : InAddr := ⟨0, 0, 0, 0⟩

def INADDR_LOOPBACK : InAddr := ⟨127, 0, 0, 1⟩

/-- `xIpAddr(port, lookback, ipv6)`, in memory that held `addr`. -/
def ofPort (addr : XIpAddr) (port : UInt16) (lookback ipv6 : Bool) : XIpAddr :=
  if ipv6 then
    { zero6 with
      sin_family := AF_INET6
      sin6_addr := if lookback then fun i => if i = 15 then 1 else 0 else fun _ => 0
      sin_port := hostToNetwork16 port }
  else
    { addr.memzeroIn with
      sin_family := AF_INET
      sin_addr := if lookback then INADDR_LOOPBACK else INADDR_ANY
      sin_port := hostToNetwork16 port }

/-- `xIpAddr(ip, port, lookback, ipv6)`; `lookback` is not used. -/
def ofIpPort (six : Inet6) (addr : XIpAddr) (ip : List Char) (port : UInt16) (ipv6 : Bool) :
    XIpAddr :=
  if ipv6 then fromIpPort6 six ip port zero6 else fromIpPort ip port addr.memzeroIn

def toIp (six : Inet6) (addr : XIpAddr) : Except Halt (List Char) := XNetApi.toIp six 256 addr

def toIpPort (six : Inet6) (addr : XIpAddr) : Except Halt (List Char) :=
  XNetApi.toIpPort six 256 addr

def toPort (addr : XIpAddr) : UInt16 := networkToHost16 addr.sin_port

end XIpAddr

/-! ## Section 3: Round trips -/

theorem networkToHost16_hostToNetwork16 (host16 : UInt16) :
    networkToHost16 (hostToNetwork16 host16) = host16 := by
  have hlt : byteReverse 2 host16.toNat < 2 ^ 16 := byteReverse_lt 2 host16.toNat
  have hhost : host16.toNat % 256 ^ 2 = host16.toNat := Nat.mod_eq_of_lt host16.toNat_lt
  unfold networkToHost16 hostToNetwork16
  rw [UInt16.toNat_ofNat', Nat.mod_eq_of_lt hlt, byteReverse_byteReverse, hhost,
    UInt16.ofNat_toNat]

theorem hostToNetwork16_networkToHost16 (net16 : UInt16) :
    hostToNetwork16 (networkToHost16 net16) = net16 :=
  networkToHost16_hostToNetwork16 net16

theorem length_inet_ntop4_le (sin_addr : InAddr) : (inet_ntop4 sin_addr).length ≤ 15 := by
  have hoctet : ∀ b : UInt8, (Nat.toDigits 10 b.toNat).length ≤ 3 := by
    intro b
    have hlt := b.toNat_lt
    exact (Nat.length_toDigits_le_iff (by decide) (by decide)).mpr (by omega)
  have h₁ := hoctet sin_addr.first
  have h₂ := hoctet sin_addr.second
  have h₃ := hoctet sin_addr.third
  have h₄ := hoctet sin_addr.fourth
  unfold inet_ntop4
  simp [List.intercalate]
  omega

theorem notMem_inet_ntop4 {c : Char} (hc : ¬c.isDigit) (hpoint : c ≠ '.') {sin_addr : InAddr} :
    c ∉ inet_ntop4 sin_addr := by
  have hoctet : ∀ b : UInt8, c ∉ Nat.toDigits 10 b.toNat := fun b => notMem_toDigits hc b.toNat
  unfold inet_ntop4
  simp [List.intercalate, hoctet, hpoint]

theorem length_port_le (port : UInt16) : (Nat.toDigits 10 port.toNat).length ≤ 5 := by
  have hlt := port.toNat_lt
  exact (Nat.length_toDigits_le_iff (by decide) (by decide)).mpr (by omega)

theorem IsDotted.length_le {s : List Char} (h : IsDotted s) : s.length ≤ 15 := by
  obtain ⟨sin_addr, rfl⟩ := h
  exact length_inet_ntop4_le sin_addr

variable {six : Inet6}

namespace XIpAddr

open XNetApi

variable {a addr : XIpAddr} {ip : List Char} {port : UInt16}

/-- Text and port fit into the 256 bytes. -/
theorem toIpPort_of_toIp {s : List Char} (h : a.toIp six = .ok s) (hs : s.length < 250) :
    a.toIpPort six = .ok (s ++ ':' :: Nat.toDigits 10 a.toPort.toNat) := by
  have hport := length_port_le a.toPort
  unfold XIpAddr.toIp at h
  unfold XIpAddr.toIpPort XNetApi.toIpPort
  rw [h, ok_bind, cAssert_true (by omega), ok_bind, List.take_of_length_le]
  · rfl
  · rw [List.length_cons]
    have hdigits : (Nat.toDigits 10 (networkToHost16 a.sin_port).toNat).length ≤ 5 := hport
    omega

theorem toIp_of_inet (h : a.sin_family = AF_INET) : a.toIp six = .ok (inet_ntop4 a.sin_addr) := by
  unfold XIpAddr.toIp XNetApi.toIp
  rw [if_pos h, cAssert_true (by decide)]
  rfl

theorem toIp_of_inet6 (h : a.sin_family = AF_INET6) : a.toIp six = .ok (six.ntop a.sin6_addr) := by
  have hne : a.sin_family ≠ AF_INET := by
    rw [h]
    decide
  unfold XIpAddr.toIp XNetApi.toIp
  rw [if_neg hne, if_pos h, cAssert_true (by decide)]
  rfl

theorem toPort_ofIpPort (ipv6 : Bool) : (ofIpPort six addr ip port ipv6).toPort = port := by
  cases ipv6 <;> exact networkToHost16_hostToNetwork16 port

/-- A text that is refused leaves 0.0.0.0. -/
theorem toIp_ofIpPort : (ofIpPort six addr ip port false).toIp six =
    .ok (if IsDotted (cStr ip) then cStr ip else inet_ntop4 INADDR_ANY) := by
  rw [toIp_of_inet rfl]
  congr 1
  show inet_ntop4 ((inet_pton4 (cStr ip)).getD INADDR_ANY) = _
  by_cases hdotted : IsDotted (cStr ip)
  · obtain ⟨sin_addr, heq⟩ := Option.isSome_iff_exists.mp (isDotted_iff.mp hdotted)
    rw [if_pos hdotted, heq, Option.getD_some, inet_ntop4_inet_pton4 heq]
  · have hnone : inet_pton4 (cStr ip) = none := by
      rw [isDotted_iff, Option.not_isSome_iff_eq_none] at hdotted
      exact hdotted
    rw [if_neg hdotted, hnone, Option.getD_none]

theorem toIpPort_ofIpPort : (ofIpPort six addr ip port false).toIpPort six =
    .ok ((if IsDotted (cStr ip) then cStr ip else inet_ntop4 INADDR_ANY) ++
      ':' :: Nat.toDigits 10 port.toNat) := by
  have hlength : (if IsDotted (cStr ip) then cStr ip else inet_ntop4 INADDR_ANY).length < 250 := by
    split
    case isTrue hdotted =>
      have hle := hdotted.length_le
      omega
    case isFalse =>
      have hle := length_inet_ntop4_le INADDR_ANY
      omega
  rw [toIpPort_of_toIp toIp_ofIpPort hlength, toPort_ofIpPort]

theorem toIpPort_of_inet (h : a.sin_family = AF_INET) : a.toIpPort six =
    .ok (inet_ntop4 a.sin_addr ++ ':' :: Nat.toDigits 10 a.toPort.toNat) := by
  have hle := length_inet_ntop4_le a.sin_addr
  exact toIpPort_of_toIp (toIp_of_inet h) (by omega)

/-- Before the only `:` there is the address, and the port behind it. -/
theorem text_inj {s t : List Char} {m n : Nat} (hs : ':' ∉ s) (ht : ':' ∉ t) :
    s ++ ':' :: Nat.toDigits 10 m = t ++ ':' :: Nat.toDigits 10 n ↔ s = t ∧ m = n := by
  constructor
  · intro h
    have hbefore := congrArg (before ':') h
    have hafter := congrArg (after ':') h
    rw [before_append hs, before_append ht] at hbefore
    rw [after_append hs, after_append ht] at hafter
    exact ⟨hbefore, toDigits_injective hafter⟩
  · rintro ⟨rfl, rfl⟩
    rfl

theorem toPort_inj {b : XIpAddr} : a.toPort = b.toPort ↔ a.sin_port = b.sin_port := by
  constructor
  · intro h
    have hport := congrArg hostToNetwork16 h
    unfold toPort at hport
    rw [hostToNetwork16_networkToHost16, hostToNetwork16_networkToHost16] at hport
    exact hport
  · intro h
    unfold toPort
    rw [h]

theorem toIpPort_inj {b : XIpAddr} (ha : a.sin_family = AF_INET) (hb : b.sin_family = AF_INET) :
    a.toIpPort six = b.toIpPort six ↔ a.sin_addr = b.sin_addr ∧ a.sin_port = b.sin_port := by
  rw [toIpPort_of_inet ha, toIpPort_of_inet hb, Except.ok.injEq,
    text_inj (notMem_inet_ntop4 (by decide) (by decide))
      (notMem_inet_ntop4 (by decide) (by decide)),
    UInt16.toNat_inj, toPort_inj]
  refine and_congr_left fun _ => ⟨fun h => ?_, fun h => by rw [h]⟩
  have hread := congrArg inet_pton4 h
  rw [inet_pton4_inet_ntop4, inet_pton4_inet_ntop4] at hread
  exact Option.some.inj hread

/-- The text and the port of an address give it back. -/
theorem ofIpPort_toIp (ha : a.sin_family = AF_INET) : ∃ ip, a.toIp six = .ok ip ∧
    (ofIpPort six addr ip a.toPort false).sin_family = a.sin_family ∧
    (ofIpPort six addr ip a.toPort false).sin_port = a.sin_port ∧
    (ofIpPort six addr ip a.toPort false).sin_addr = a.sin_addr := by
  refine ⟨inet_ntop4 a.sin_addr, toIp_of_inet ha, ha.symm, ?_, ?_⟩
  · exact hostToNetwork16_networkToHost16 a.sin_port
  · have hnul : cStr (inet_ntop4 a.sin_addr) = inet_ntop4 a.sin_addr :=
      before_of_notMem (notMem_inet_ntop4 (by decide) (by decide))
    show (inet_pton4 (cStr (inet_ntop4 a.sin_addr))).getD INADDR_ANY = a.sin_addr
    rw [hnul, inet_pton4_inet_ntop4, Option.getD_some]

/-- For IPv6 as far as the C library reads its own texts. -/
theorem ofIpPort_toIp6 (ha : a.sin_family = AF_INET6)
    (hsix : six.pton (cStr (six.ntop a.sin6_addr)) = some a.sin6_addr) : ∃ ip,
    a.toIp six = .ok ip ∧
    (ofIpPort six addr ip a.toPort true).sin_family = a.sin_family ∧
    (ofIpPort six addr ip a.toPort true).sin_port = a.sin_port ∧
    (ofIpPort six addr ip a.toPort true).sin6_addr = a.sin6_addr := by
  refine ⟨six.ntop a.sin6_addr, toIp_of_inet6 ha, ha.symm, ?_, ?_⟩
  · exact hostToNetwork16_networkToHost16 a.sin_port
  · show (six.pton (cStr (six.ntop a.sin6_addr))).getD zero6.sin6_addr = a.sin6_addr
    rw [hsix, Option.getD_some]

/-- What is built from a text prints it, up to its first null byte, if that is
    an address; addresses with the same text are the same; and the text of an
    address gives it back. -/
theorem texts_round_trip (six : Inet6) :
    (∀ addr ip port, (ofIpPort six addr ip port false).toIpPort six =
      .ok ((if IsDotted (cStr ip) then cStr ip else inet_ntop4 INADDR_ANY) ++
        ':' :: Nat.toDigits 10 port.toNat)) ∧
    (∀ a b : XIpAddr, a.sin_family = AF_INET → b.sin_family = AF_INET →
      (a.toIpPort six = b.toIpPort six ↔ a.sin_addr = b.sin_addr ∧ a.sin_port = b.sin_port)) ∧
    ∀ a addr : XIpAddr, a.sin_family = AF_INET → ∃ ip, a.toIp six = .ok ip ∧
      (ofIpPort six addr ip a.toPort false).sin_family = a.sin_family ∧
      (ofIpPort six addr ip a.toPort false).sin_port = a.sin_port ∧
      (ofIpPort six addr ip a.toPort false).sin_addr = a.sin_addr := by
  refine ⟨fun _ _ _ => toIpPort_ofIpPort, fun a b ha hb => ?_, fun a addr ha => ?_⟩
  · exact toIpPort_inj ha hb
  · exact ofIpPort_toIp ha

theorem texts_round_trip_loopback :
    (ofPort zero6 8081 true false).toIpPort Inet6.loopback =
      (ofIpPort Inet6.loopback zero6 ['1', '2', '7', '.', '0', '.', '0', '.', '1'] 8081
        false).toIpPort Inet6.loopback :=
  ((texts_round_trip Inet6.loopback).2.1 _ _ rfl rfl).mpr (by decide +kernel)

end XIpAddr

end XFast
