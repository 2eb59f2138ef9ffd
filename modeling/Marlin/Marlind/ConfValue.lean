import Marlin.Marlind.Conf

/-!
# Scalar values of the configuration file

`conf_value.c` and the C library functions it calls, on the bytes of a C string before
its NUL.  A function that fails leaves its output untouched here; the source may have
written part of it by then, to a model that is freed unread.
-/

namespace Marlin

/-! ## Bytes and literals -/

def ascii (c : Char) : UInt8 := UInt8.ofNat c.toNat

def cstr (s : String) : CBuf := s.toList.map ascii

def isDigit (ch : UInt8) : Bool := ascii '0' ≤ ch && ch ≤ ascii '9'

def digitValue (ch : UInt8) : Nat := ch.toNat - (ascii '0').toNat

def decimalFrom (val : Nat) (ds : List UInt8) : Nat :=
  ds.foldl (fun n ch => n * 10 + digitValue ch) val

def decimal (ds : List UInt8) : Nat := decimalFrom 0 ds

theorem digitValue_le {ch : UInt8} (h : isDigit ch = true) : digitValue ch ≤ 9 := by
  simp only [isDigit, Bool.and_eq_true, decide_eq_true_eq] at h
  have hle : ch.toNat ≤ (ascii '9').toNat := h.2
  have hzero : (ascii '0').toNat = 48 := rfl
  have hnine : (ascii '9').toNat = 57 := rfl
  rw [digitValue]
  omega

theorem le_decimalFrom (val : Nat) (ds : List UInt8) : val ≤ decimalFrom val ds := by
  induction ds generalizing val with
  | nil => exact Nat.le_refl val
  | cons ch ds ih =>
      have hle := ih (val * 10 + digitValue ch)
      change val ≤ decimalFrom (val * 10 + digitValue ch) ds
      omega

def hexNibble (ch : UInt8) : Option Nat :=
  if isDigit ch then some (digitValue ch)
  else if ascii 'a' ≤ ch ∧ ch ≤ ascii 'f' then some (ch.toNat - (ascii 'a').toNat + 10)
  else if ascii 'A' ≤ ch ∧ ch ≤ ascii 'F' then some (ch.toNat - (ascii 'A').toNat + 10)
  else none

/-! ## The C library -/

/-- The octets of `inet_pton(AF_INET, …)`: those before the last dot, and the one begun. -/
def inetPton4Octets : List UInt8 → List Nat → Option Nat → Option (List Nat)
  | [], done, octet =>
      match octet with
      | none => none
      | some octet => if done.length = 3 then some (done ++ [octet]) else none
  | ch :: rest, done, octet =>
      if isDigit ch then
        match octet with
        | none => inetPton4Octets rest done (some (digitValue ch))
        | some octet =>
            let new := octet * 10 + digitValue ch
            if octet = 0 ∨ new > 255 then none else inetPton4Octets rest done (some new)
      else if ch = ascii '.' then
        match octet with
        | none => none
        | some octet =>
            if done.length = 3 then none else inetPton4Octets rest (done ++ [octet]) none
      else none

def inetPton4 (str : List UInt8) : Option Be32 :=
  (inetPton4Octets str [] none).map fun octets =>
    ⟨UInt8.ofNat (octets.getD 0 0), UInt8.ofNat (octets.getD 1 0),
      UInt8.ofNat (octets.getD 2 0), UInt8.ofNat (octets.getD 3 0)⟩

def Addr.ofBytes (bytes : List UInt8) : Addr :=
  let word (i : Nat) : Be32 :=
    ⟨bytes.getD i 0, bytes.getD (i + 1) 0, bytes.getD (i + 2) 0, bytes.getD (i + 3) 0⟩
  ⟨word 0, word 4, word 8, word 12⟩

/-- What `inet_pton(AF_INET6, …)` has read: the bytes, where `::` stood, the group begun. -/
structure Inet6Parse where
  bytes : List UInt8
  colon : Option Nat
  value : Nat
  digits : Nat

def Inet6Parse.group (st : Inet6Parse) : Inet6Parse :=
  { st with
    bytes := st.bytes ++ [UInt8.ofNat (st.value / 256), UInt8.ofNat st.value]
    value := 0
    digits := 0 }

/-- The loop of `inet_pton(AF_INET6, …)`; `token` is where the current group starts. -/
def inetPton6Loop : List UInt8 → List UInt8 → Inet6Parse → Option Inet6Parse
  | [], _, st => some st
  | ch :: rest, token, st =>
      match hexNibble ch with
      | some digit =>
          if st.digits = 4 then none
          else inetPton6Loop rest token
            { st with value := st.value * 16 + digit, digits := st.digits + 1 }
      | none =>
          if ch = ascii ':' then
            if st.digits = 0 then
              if st.colon.isSome then none
              else inetPton6Loop rest rest { st with colon := some st.bytes.length }
            else if rest = [] then none
            else if st.bytes.length + 2 > 16 then none
            else inetPton6Loop rest rest st.group
          else if ch = ascii '.' ∧ st.bytes.length + 4 ≤ 16 then
            (inetPton4 token).map fun addr =>
              { st with bytes := st.bytes ++ addr.bytes, digits := 0 }
          else none

def inetPton6Finish (st : Inet6Parse) : Option (List UInt8) :=
  if st.digits > 0 ∧ st.bytes.length + 2 > 16 then none
  else
    let st := if st.digits > 0 then st.group else st
    match st.colon with
    | none => if st.bytes.length = 16 then some st.bytes else none
    | some pos =>
        if st.bytes.length = 16 then none
        else some (st.bytes.take pos ++ List.replicate (16 - st.bytes.length) 0 ++
          st.bytes.drop pos)

def inetPton6 (str : List UInt8) : Option Addr :=
  let body :=
    match str with
    | [] => none
    | ch :: rest =>
        if ch = ascii ':' then if rest.head? = some (ascii ':') then some rest else none
        else some str
  body.bind fun src =>
    (inetPton6Loop src src ⟨[], none, 0, 0⟩).bind fun st =>
      (inetPton6Finish st).map Addr.ofBytes

def isSpace (ch : UInt8) : Bool := ch == ascii ' ' || (9 ≤ ch && ch ≤ 13)

def ulongMax : Nat := 2 ^ 64 - 1

/-- `strtoul(str, &end, 10)`: the value, the bytes from `end` on, whether `errno` was set. -/
def strtoul (str : List UInt8) : Nat × List UInt8 × Bool :=
  let body := str.dropWhile isSpace
  let minus := body.head? == some (ascii '-')
  let digits := if minus || body.head? == some (ascii '+') then body.drop 1 else body
  let value := (digits.takeWhile isDigit).foldl (fun n ch => n * 10 + digitValue ch) 0
  if digits.takeWhile isDigit = [] then (0, str, false)
  else if value > ulongMax then (ulongMax, digits.dropWhile isDigit, true)
  else (if minus then (2 ^ 64 - value) % 2 ^ 64 else value, digits.dropWhile isDigit, false)

/-! ## The values -/

def confParseIpv4 (str : List UInt8) : Option Be32 := inetPton4 str

def confParseIpv6 (str : List UInt8) : Option Addr := inetPton6 str

def hexByte (str : List UInt8) (i : Nat) : Option UInt8 :=
  (hexNibble (str.getD i 0)).bind fun hi =>
    (hexNibble (str.getD (i + 1) 0)).map fun lo => UInt8.ofNat (hi * 16 + lo)

def confParseMac (str : List UInt8) : Option Mac :=
  if str.length ≠ 17 then none
  else if (List.range 5).any fun i => str.getD (i * 3 + 2) 0 ≠ ascii ':' then none
  else
    match (List.range 6).mapM fun i => hexByte str (i * 3) with
    | some [m0, m1, m2, m3, m4, m5] => some ⟨m0, m1, m2, m3, m4, m5⟩
    | _ => none

def confParseHexkey16 (str : List UInt8) : Option Key16 :=
  if str.length ≠ 32 then none
  else ((List.range 16).mapM fun i => hexByte str (2 * i)).map fun bytes =>
    Vector.ofFn fun i => bytes.getD i.val 0

def confParseProto (str : List UInt8) : Option UInt8 :=
  if str = cstr "tcp" then some ipprotoTcp
  else if str = cstr "udp" then some ipprotoUdp
  else if str = cstr "sctp" then some ipprotoSctp
  else none

def confParseMode (str : List UInt8) : Option UInt8 :=
  if str = cstr "l2dsr" then some marlinModeL2dsr
  else if str = cstr "ipip" then some marlinModeIpip
  else if str = cstr "gue" then some marlinModeGue
  else if str = cstr "vxlan" then some marlinModeVxlan
  else none

def confParseState (str : List UInt8) : Option Bool :=
  if str = cstr "up" then some true else if str = cstr "down" then some false else none

structure ConfCidr where
  isV6 : Bool
  prefixlen : Nat
  addr : Addr
  deriving DecidableEq, Repr

def confParseCidr (str : List UInt8) : Option ConfCidr :=
  if str.length ≥ 64 then none
  else
    let buf := str.takeWhile (· ≠ ascii '/')
    match str.dropWhile (· ≠ ascii '/') with
    | [] => none
    | _ :: digits =>
        let (plen, tail, erange) := strtoul digits
        if digits = [] ∨ tail ≠ [] ∨ erange then none
        else
          match confParseIpv4 buf with
          | some addr => if plen > 32 then none else some ⟨false, plen, ⟨addr, 0, 0, 0⟩⟩
          | none =>
              match confParseIpv6 buf with
              | some addr => if plen > 128 then none else some ⟨true, plen, addr⟩
              | none => none

theorem confParseCidr_bounds {str : List UInt8} {cidr : ConfCidr}
    (h : confParseCidr str = some cidr) :
    cidr.prefixlen ≤ (if cidr.isV6 then 128 else 32) ∧
      (cidr.isV6 = false → cidr.addr = ⟨cidr.addr.w0, 0, 0, 0⟩) := by
  simp only [confParseCidr] at h
  repeat' split at h
  all_goals first
    | contradiction
    | (cases h; simp; omega)

theorem confParseMode_mem {str : List UInt8} {mode : UInt8} (h : confParseMode str = some mode) :
    mode ∈ confModes := by
  simp only [confParseMode] at h
  repeat' split at h
  all_goals first
    | contradiction
    | (cases h; decide)

example : confParseCidr (cstr "10.0.0.0/8") = some ⟨false, 8, ⟨⟨10, 0, 0, 0⟩, 0, 0, 0⟩⟩ := by
  decide +kernel

example : confParseIpv6 (cstr "2001:db8::10.0.0.1") =
    some ⟨⟨0x20, 0x01, 0x0d, 0xb8⟩, 0, 0, ⟨10, 0, 0, 1⟩⟩ := by
  decide +kernel

end Marlin
