import Mathlib.Data.Nat.Notation
import Mathlib.Algebra.GroupWithZero.Nat
import Mathlib.Logic.Basic

/-!
# The map ABI

The constants of `abi/defines.h` and the structures of `abi/types.h`, which the
control plane writes and the datapath reads.

A network-order field is modelled by the bytes it occupies in memory, so that
comparing, copying and hashing it needs no host byte order.  Counters, lengths
and indices are natural numbers; where the source narrows one, the narrowing is
written out.  `pad` members are always zero and are left out.
-/

namespace Marlin

/-! ## Sizing -/

def maxExtHdrs : Nat := 8
def tableSize : Nat := 65536
def maxVips : Nat := 100
def maxBackends : Nat := 4096
def maxTxPorts : Nat := 64
def maxAclEntries : Nat := 65536

theorem tableSize_pos : 0 < tableSize := by decide

def ethHlen : Nat := 14

/-! ## Network-order values -/

/-- `__be16`: two bytes, most significant first. -/
structure Be16 where
  b0 : UInt8
  b1 : UInt8
  deriving DecidableEq, Repr

structure Be32 where
  b0 : UInt8
  b1 : UInt8
  b2 : UInt8
  b3 : UInt8
  deriving DecidableEq, Repr

/-- `__be32[4]`: an IPv6 address, or an IPv4 address followed by zero words. -/
structure Addr where
  w0 : Be32
  w1 : Be32
  w2 : Be32
  w3 : Be32
  deriving DecidableEq, Repr

structure Mac where
  m0 : UInt8
  m1 : UInt8
  m2 : UInt8
  m3 : UInt8
  m4 : UInt8
  m5 : UInt8
  deriving DecidableEq, Repr

abbrev Key16 := Vector UInt8 16

instance : Zero Be16 := ⟨⟨0, 0⟩⟩
instance : Zero Be32 := ⟨⟨0, 0, 0, 0⟩⟩
instance : Zero Addr := ⟨⟨0, 0, 0, 0⟩⟩
instance : Zero Mac := ⟨⟨0, 0, 0, 0, 0, 0⟩⟩

namespace Be16

def bytes (v : Be16) : List UInt8 := [v.b0, v.b1]

/-- `bpf_htons`, of the low 16 bits of its argument. -/
def ofNat (n : Nat) : Be16 := ⟨UInt8.ofNat (n / 256), UInt8.ofNat n⟩

def toNat (v : Be16) : Nat := v.b0.toNat * 256 + v.b1.toNat

theorem toNat_lt (v : Be16) : v.toNat < 65536 := by
  have h0 := v.b0.toNat_lt
  have h1 := v.b1.toNat_lt
  simp only [toNat]
  omega

@[simp] theorem toNat_ofNat (n : Nat) : (ofNat n).toNat = n % 65536 := by
  simp only [toNat, ofNat, UInt8.toNat_ofNat']
  omega

end Be16

namespace Be32

def bytes (v : Be32) : List UInt8 := [v.b0, v.b1, v.b2, v.b3]

def ofNat (n : Nat) : Be32 :=
  ⟨UInt8.ofNat (n / 16777216), UInt8.ofNat (n / 65536), UInt8.ofNat (n / 256),
    UInt8.ofNat n⟩

end Be32

def Addr.bytes (a : Addr) : List UInt8 :=
  a.w0.bytes ++ a.w1.bytes ++ a.w2.bytes ++ a.w3.bytes

def Mac.bytes (m : Mac) : List UInt8 := [m.m0, m.m1, m.m2, m.m3, m.m4, m.m5]

/-! ## Address families and protocols -/

def afInet : UInt8 := 2
def afInet6 : UInt8 := 10

def ipprotoHopopts : UInt8 := 0
def ipprotoIcmp : UInt8 := 1
def ipprotoIpip : UInt8 := 4
def ipprotoTcp : UInt8 := 6
def ipprotoUdp : UInt8 := 17
def ipprotoIpv6 : UInt8 := 41
def ipprotoRouting : UInt8 := 43
def ipprotoFragment : UInt8 := 44
def ipprotoEsp : UInt8 := 50
def ipprotoAh : UInt8 := 51
def ipprotoIcmpv6 : UInt8 := 58
def ipprotoDstopts : UInt8 := 60
def ipprotoSctp : UInt8 := 132

/-! ## Flag words -/

def marlinBeFEncapModeMask : UInt8 := 0x0f
def marlinBeFEncapRequired : UInt8 := 0x10
def marlinBeFFib : UInt8 := 0x20
def marlinBeFState : UInt8 := 0x40

def encapMode (flags : UInt8) : UInt8 := flags &&& marlinBeFEncapModeMask

def marlinModeL2dsr : UInt8 := 0
def marlinModeIpip : UInt8 := 1
def marlinModeGue : UInt8 := 2
def marlinModeVxlan : UInt8 := 3

def cfgAclEnable : UInt32 := 1
def cfgRlEnable : UInt32 := 2

def vipAcl : UInt32 := 0x1
def vipRatelimit : UInt32 := 0x2
def vipHash5tuple : UInt32 := 0x4
def vipQuic : UInt32 := 0x8
def vipHashPorts : UInt32 := 0x10
def vipQuicCidLenMask : UInt32 := 0x1f00
def vipDscpMask : UInt32 := 0x3f0000

def vipQuicCidLen (flags : UInt32) : Nat := ((flags &&& vipQuicCidLenMask) >>> 8).toNat

def vipDscp (flags : UInt32) : Nat := ((flags &&& vipDscpMask) >>> 16).toNat

inductive AclList where
  | allow
  | block
  deriving DecidableEq, Repr

inductive AclFamily where
  | v4
  | v6
  deriving DecidableEq, Repr

def aclListsBit : AclList → AclFamily → UInt16
  | .allow, .v4 => 1
  | .allow, .v6 => 2
  | .block, .v4 => 4
  | .block, .v6 => 8

def rlTokenShift : Nat := 8
def rlTickShift : Nat := 20
def rlCasRetries : Nat := 4

def marlinGueDportDefault : Nat := 6080
def marlinVxlanDportDefault : Nat := 4789

def marlinOverheadIpip : Nat := 20
def marlinOverheadGue : Nat := 32
def marlinOverheadVxlan : Nat := 50

/-- `MARLIN_NO_BACKEND`: a row with no backend; slot 0 is never allocated. -/
def marlinNoBackend : Nat := 0

/-! ## Map keys and values -/

/-- `struct vip_key`; the union's `addr4` is the first word of `addr`. -/
structure VipKey where
  addr : Addr
  port : Be16
  proto : UInt8
  family : UInt8
  deriving DecidableEq, Repr

namespace VipKey

def addr4 (key : VipKey) : Be32 := key.addr.w0

/-- The bytes an IPv4 key leaves unused are zero. -/
def Canonical (key : VipKey) : Prop :=
  key.family = afInet → key.addr = ⟨key.addr4, 0, 0, 0⟩

instance (key : VipKey) : Decidable key.Canonical :=
  inferInstanceAs (Decidable (_ → _))

end VipKey

def vipKeyEq (lhs rhs : VipKey) : Bool :=
  if lhs.family ≠ rhs.family ∨ lhs.port ≠ rhs.port ∨ lhs.proto ≠ rhs.proto then false
  else if lhs.family = afInet then lhs.addr4 == rhs.addr4
  else lhs.addr == rhs.addr

@[simp] theorem vipKeyEq_refl (key : VipKey) : vipKeyEq key key = true := by
  simp [vipKeyEq]

theorem vipKeyEq_eq_true {a b : VipKey} : vipKeyEq a b = true ↔
    (a.family = b.family ∧ a.port = b.port ∧ a.proto = b.proto) ∧
      if a.family = afInet then a.addr4 = b.addr4 else a.addr = b.addr := by
  rw [vipKeyEq]
  by_cases hfields : a.family = b.family ∧ a.port = b.port ∧ a.proto = b.proto
  · obtain ⟨hfamily, hport, hproto⟩ := hfields
    simp only [hfamily, hport, hproto]
    split <;> simp_all
  · rw [if_pos (by grind)]
    simp [hfields]

theorem vipKeyEq_symm {a b : VipKey} (h : vipKeyEq a b = true) : vipKeyEq b a = true := by
  rw [vipKeyEq_eq_true] at h ⊢
  obtain ⟨⟨hfamily, hport, hproto⟩, haddr⟩ := h
  refine ⟨⟨hfamily.symm, hport.symm, hproto.symm⟩, ?_⟩
  rw [← hfamily]
  split at haddr
  · rw [if_pos ‹_›]
    exact haddr.symm
  · rw [if_neg ‹_›]
    exact haddr.symm

theorem vipKeyEq_trans {a b c : VipKey} (hab : vipKeyEq a b = true) (hbc : vipKeyEq b c = true) :
    vipKeyEq a c = true := by
  rw [vipKeyEq_eq_true] at hab hbc ⊢
  obtain ⟨⟨hfamily, hport, hproto⟩, haddr⟩ := hab
  obtain ⟨⟨hfamily', hport', hproto'⟩, haddr'⟩ := hbc
  refine ⟨⟨hfamily.trans hfamily', hport.trans hport', hproto.trans hproto'⟩, ?_⟩
  rw [← hfamily] at haddr'
  split at haddr
  · rw [if_pos ‹_›] at haddr' ⊢
    exact haddr.trans haddr'
  · rw [if_neg ‹_›] at haddr' ⊢
    exact haddr.trans haddr'

/-- On canonical keys the comparison agrees with the byte-exact one of a HASH map. -/
theorem vipKeyEq_iff {lhs rhs : VipKey} (hl : lhs.Canonical) (hr : rhs.Canonical) :
    vipKeyEq lhs rhs = true ↔ lhs = rhs := by
  constructor
  · intro h
    obtain ⟨laddr, lport, lproto, lfamily⟩ := lhs
    obtain ⟨raddr, rport, rproto, rfamily⟩ := rhs
    simp only [vipKeyEq, ne_eq, VipKey.addr4] at h
    split at h
    · contradiction
    · rename_i hfields
      simp only [not_or, not_not] at hfields
      obtain ⟨rfl, rfl, rfl⟩ := hfields
      split at h
      · rename_i hfamily
        have hladdr := hl hfamily
        have hraddr := hr hfamily
        simp only [VipKey.addr4] at hladdr hraddr
        rw [hladdr, hraddr, eq_of_beq h]
      · rw [eq_of_beq h]
  · rintro rfl
    exact vipKeyEq_refl lhs

structure VipMeta where
  vipNum : Nat
  flags : UInt32
  hashKey : Key16
  deriving DecidableEq, Repr

structure Backend where
  addr : Be32
  mac : Mac
  encapDport : Be16
  flags : UInt8
  egressIfindex : Nat
  vni : Nat
  innerMac : Mac
  id : Nat
  deriving DecidableEq, Repr

instance : Zero Backend := ⟨⟨0, 0, 0, 0, 0, 0, 0, 0⟩⟩

@[simp] theorem Backend.id_zero : (0 : Backend).id = 0 := rfl

structure MarlinConfig where
  tunnelSrc : Be32
  flags : UInt32
  maxFrame : Nat
  aclLists : UInt16
  rlRefill : Nat
  rlBurst : Nat
  deriving DecidableEq, Repr

instance : Zero MarlinConfig := ⟨⟨0, 0, 0, 0, 0, 0⟩⟩

structure AclKey4 where
  prefixlen : Nat
  addr : Be32
  deriving DecidableEq, Repr

structure AclKey6 where
  prefixlen : Nat
  addr : Addr
  deriving DecidableEq, Repr

end Marlin
