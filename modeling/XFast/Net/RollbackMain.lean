import XFast.Net.IpAddr

/-! # The address on the command line

    Model of the beginning of the two `main` functions of `test/server/rollback`
    and `test/client/rollback`: the options `--ip` and `--port` become the
    address on which the server listens, and to which the client connects.

    `xUtil::strto<int>` takes the digits that a text begins with, and the
    constructor of `xIpAddr` takes the number modulo 65536; a text that is no
    address becomes 0.0.0.0. -/

namespace XFast

open Interleaving Numeral Separator XUtil

namespace XOption

def getValue (o : XOption) (sName : Word) : Word := (o._mParam.lookup sName).getD Word.empty

end XOption

namespace RollbackMain

open XNetApi XOption XIpAddr

/-! ## Section 1: The model -/

/-- `"ip"`. -/
def ipName : Word := ⟨['i', 'p'], by decide⟩

/-- `"port"`. -/
def portName : Word := ⟨['p', 'o', 'r', 't'], by decide⟩

/-- `"8081"`. -/
def portDefault : List Char := ['8', '0', '8', '1']

/-- The options as far as the `xIpAddr`, with the default for `ip`. -/
def address (six : Inet6) (memory : XIpAddr) (ipDefault : List Char) (argv : List Word) :
    Except Halt XIpAddr := do
  let opt ← decode fresh argv
  let ip := if (opt.getValue ipName).1 = [] then ipDefault else (opt.getValue ipName).1
  let port := (IntType.strtoOr .int (opt.getValue portName).1 portDefault).getD 0
  -- the parameter of `xIpAddr` is a `uint16_t`
  return ofIpPort six memory ip (.ofNat (port % 2 ^ 16).toNat) false

/-- `"0.0.0.0"`. -/
def serverIp : List Char := inet_ntop4 INADDR_ANY

/-- `"127.0.0.1"`. -/
def clientIp : List Char := inet_ntop4 INADDR_LOOPBACK

/-- `localAddr_` of the `xServer`. -/
def localAddr_ (six : Inet6) (memory : XIpAddr) (argv : List Word) : Except Halt XIpAddr :=
  address six memory serverIp argv

/-- `serverAddr` of the client. -/
def serverAddr (six : Inet6) (memory : XIpAddr) (argv : List Word) : Except Halt XIpAddr :=
  address six memory clientIp argv

/-! ## Section 2: What the user says -/

/-- The value of the last option with the name; the default, if there is none
    or it is empty. -/
def told (argv : List Word) (name : Word) (default : List Char) : List Char :=
  match (bindings argv.tail).reverse.find? (·.1 = name) with
  | some b => if b.2.1 = [] then default else b.2.1
  | none => default

variable {six : Inet6} {memory : XIpAddr} {argv : List Word} {name : Word} {default : List Char}

theorem getValue_decode {o : XOption} (h : decode fresh argv = .ok o) :
    o.getValue name = (((bindings argv.tail).reverse.find? (·.1 = name)).map Prod.snd).getD
      Word.empty := by
  rw [decode_eq] at h
  cases h
  show ((Dict.insertAll ∅ (bindings argv.tail)).lookup name).getD Word.empty = _
  rw [Dict.lookup_insertAll_last, Finmap.lookup_empty, Option.or_none]

theorem told_eq {o : XOption} (h : decode fresh argv = .ok o) :
    (if (o.getValue name).1 = [] then default else (o.getValue name).1) =
      told argv name default := by
  rw [getValue_decode h]
  unfold told
  cases (bindings argv.tail).reverse.find? (·.1 = name) with
  | none => rfl
  | some b => rfl

theorem strto_int (s : List Char) : IntType.strto .int s = some (IntType.atoi s) := by
  have hcast : IntType.cast .int (IntType.atoi s) = IntType.atoi s := Int.bmod_bmod ..
  show some (if s = [] then 0 else IntType.cast .int (IntType.atoi s)) = some (IntType.atoi s)
  rw [hcast]
  split
  case isTrue hnil =>
    subst hnil
    rfl
  case isFalse => rfl

theorem address_eq (ipDefault : List Char) : address six memory ipDefault argv =
    .ok (ofIpPort six memory (told argv ipName ipDefault)
      (.ofNat (IntType.atoi (told argv portName portDefault) % 2 ^ 16).toNat) false) := by
  obtain ⟨o, ho⟩ : ∃ o, decode fresh argv = .ok o := ⟨_, decode_eq fresh argv⟩
  have hport : IntType.strtoOr .int (o.getValue portName).1 portDefault =
      some (IntType.atoi (told argv portName portDefault)) := by
    unfold IntType.strtoOr
    rw [ite_not, told_eq ho, strto_int]
  unfold address
  rw [ho, ok_bind, hport, Option.getD_some, told_eq ho]
  rfl

/-- The words of a command line are C strings. -/
theorem cStr_told (hargv : ∀ w ∈ argv, '\x00' ∉ w.1) (hdefault : '\x00' ∉ default) :
    cStr (told argv name default) = told argv name default := by
  have hvalue : ∀ s : Word, '\x00' ∉ s.1 → '\x00' ∉ (valueOf s).1 := by
    intro s hs hmem
    exact hs (List.mem_of_mem_drop
      ((List.dropWhile_sublist _).mem (List.mem_of_mem_tail hmem)))
  refine before_of_notMem ?_
  unfold told
  split
  case h_1 b hfind =>
    split
    case isTrue => exact hdefault
    case isFalse =>
      have hmem : b ∈ bindings argv.tail := List.mem_reverse.mp (List.mem_of_find?_eq_some hfind)
      obtain ⟨s, hs, rfl⟩ := List.mem_map.mp hmem
      exact hvalue s (hargv s (List.mem_of_mem_tail (List.mem_filter.mp hs).1))
  case h_2 => exact hdefault

/-- A numeral below 65536 is read as it is. -/
theorem atoi_numeral {s : List Char} (hs : IsNumeral s) (hlt : leading s < 2 ^ 16) :
    IntType.atoi s = leading s := by
  have htext : numeral (leading s : Int) = s := by
    have hpos : ¬(leading s : Int) < 0 := by omega
    unfold numeral
    rw [if_neg hpos, Int.natAbs_natCast]
    exact isNumeral_iff.mp hs
  have hread := IntType.atoi_numeral (t := leading s) (by omega) (by omega)
  rw [htext] at hread
  exact hread

/-- A text with one `:`. -/
theorem text_eq_iff {s t x : List Char} {n : Nat} (ht : ':' ∉ t) :
    t ++ ':' :: Nat.toDigits 10 n = s ++ ':' :: x ↔ t = s ∧ Nat.toDigits 10 n = x := by
  constructor
  · intro h
    have hcount := congrArg (List.count ':') h
    have hdigits : ':' ∉ Nat.toDigits 10 n := notMem_toDigits (by decide) n
    rw [List.count_append, List.count_append, List.count_cons_self, List.count_cons_self,
      List.count_eq_zero.mpr ht, List.count_eq_zero.mpr hdigits] at hcount
    have hs : ':' ∉ s := List.count_eq_zero.mp (by omega)
    have hbefore := congrArg (before ':') h
    have hafter := congrArg (after ':') h
    rw [before_append ht, before_append hs] at hbefore
    rw [after_append ht, after_append hs] at hafter
    exact ⟨hbefore, hafter⟩
  · rintro ⟨rfl, rfl⟩
    rfl

/-- The text of the address is what the user says, if that is an address and a
    port. -/
theorem address_as_told (hargv : ∀ w ∈ argv, '\x00' ∉ w.1) {ipDefault : List Char}
    (hdefault : '\x00' ∉ ipDefault) : ∃ a, address six memory ipDefault argv = .ok a ∧
      (a.toIpPort six =
          .ok (told argv ipName ipDefault ++ ':' :: told argv portName portDefault) ↔
        IsDotted (told argv ipName ipDefault) ∧ IsNumeral (told argv portName portDefault) ∧
          leading (told argv portName portDefault) < 2 ^ 16) := by
  refine ⟨_, address_eq ipDefault, ?_⟩
  rw [toIpPort_ofIpPort, cStr_told hargv hdefault, Except.ok.injEq]
  generalize told argv ipName ipDefault = ip
  generalize told argv portName portDefault = port
  have hlt : (IntType.atoi port % 2 ^ 16).toNat < 2 ^ 16 := by omega
  have hport : (UInt16.ofNat (IntType.atoi port % 2 ^ 16).toNat).toNat =
      (IntType.atoi port % 2 ^ 16).toNat := by
    rw [UInt16.toNat_ofNat', Nat.mod_eq_of_lt hlt]
  have hcolon : ':' ∉ if IsDotted ip then ip else inet_ntop4 INADDR_ANY := by
    split
    case isTrue hdotted =>
      obtain ⟨sin_addr, rfl⟩ := hdotted
      exact notMem_inet_ntop4 (by decide) (by decide)
    case isFalse => exact notMem_inet_ntop4 (by decide) (by decide)
  rw [hport, text_eq_iff hcolon]
  refine and_congr ⟨fun h => ?_, fun h => if_pos h⟩ ⟨fun h => ?_, fun h => ?_⟩
  · by_cases hdotted : IsDotted ip
    · exact hdotted
    · -- the text would be 0.0.0.0, which is an address
      rw [if_neg hdotted] at h
      exact ⟨_, h⟩
  · rw [← h, leading_toDigits]
    exact ⟨isNumeral_toDigits _, hlt⟩
  · obtain ⟨hnumeral, hsmall⟩ := h
    have hread : (IntType.atoi port % 2 ^ 16).toNat = leading port := by
      rw [atoi_numeral hnumeral hsmall]
      omega
    rw [hread]
    exact isNumeral_iff.mp hnumeral

/-- Server and client listen at, and connect to, what is on the command line
    (or the defaults) exactly if it is an IPv4 address and a port number. -/
theorem addresses_as_told (six : Inet6) (memory : XIpAddr) (argv : List Word)
    (hargv : ∀ w ∈ argv, '\x00' ∉ w.1) :
    (∃ a, localAddr_ six memory argv = .ok a ∧
      (a.toIpPort six =
          .ok (told argv ipName serverIp ++ ':' :: told argv portName portDefault) ↔
        IsDotted (told argv ipName serverIp) ∧ IsNumeral (told argv portName portDefault) ∧
          leading (told argv portName portDefault) < 2 ^ 16)) ∧
    ∃ a, serverAddr six memory argv = .ok a ∧
      (a.toIpPort six =
          .ok (told argv ipName clientIp ++ ':' :: told argv portName portDefault) ↔
        IsDotted (told argv ipName clientIp) ∧ IsNumeral (told argv portName portDefault) ∧
          leading (told argv portName portDefault) < 2 ^ 16) := by
  have hserver : '\x00' ∉ serverIp := notMem_inet_ntop4 (by decide) (by decide)
  have hclient : '\x00' ∉ clientIp := notMem_inet_ntop4 (by decide) (by decide)
  exact ⟨address_as_told hargv hserver, address_as_told hargv hclient⟩

/-- `x --port=9000 --ip=10.0.0.1 y --port=80`. -/
def fiveWords : List Word :=
  [⟨['x'], by decide⟩, ⟨['-', '-', 'p', 'o', 'r', 't', '=', '9', '0', '0', '0'], by decide⟩,
    ⟨['-', '-', 'i', 'p', '=', '1', '0', '.', '0', '.', '0', '.', '1'], by decide⟩,
    ⟨['y'], by decide⟩, ⟨['-', '-', 'p', 'o', 'r', 't', '=', '8', '0'], by decide⟩]

theorem addresses_as_told_five : ∃ a, localAddr_ Inet6.loopback zero6 fiveWords = .ok a ∧
    a.toIpPort Inet6.loopback =
      .ok ['1', '0', '.', '0', '.', '0', '.', '1', ':', '8', '0'] := by
  obtain ⟨a, ha, htext⟩ := (addresses_as_told Inet6.loopback zero6 fiveWords (by decide)).1
  have hip : told fiveWords ipName serverIp = ['1', '0', '.', '0', '.', '0', '.', '1'] := by
    decide +kernel
  have hport : told fiveWords portName portDefault = ['8', '0'] := by decide +kernel
  rw [hip, hport] at htext
  exact ⟨a, ha, htext.mpr (by decide +kernel)⟩

end RollbackMain

end XFast
