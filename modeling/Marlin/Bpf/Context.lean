import Marlin.Abi

/-!
# Frames, contexts and return codes

What every stage of the datapath shares: the bytes between `ctx->data` and
`ctx->data_end`, the tuple and the per-packet context of `marlin.h`, and the
return codes.
-/

namespace Marlin

/-! ## Frames -/

/-- The bytes from `ctx->data` up to `ctx->data_end`. -/
abbrev Frame := List UInt8

namespace Frame

/-- A load; every caller has compared the offset with `data_end` first. -/
def byte (frame : Frame) (off : Nat) : UInt8 := frame.getD off 0

def be16 (frame : Frame) (off : Nat) : Be16 := ⟨frame.byte off, frame.byte (off + 1)⟩

def be32 (frame : Frame) (off : Nat) : Be32 :=
  ⟨frame.byte off, frame.byte (off + 1), frame.byte (off + 2), frame.byte (off + 3)⟩

def addr (frame : Frame) (off : Nat) : Addr :=
  ⟨frame.be32 off, frame.be32 (off + 4), frame.be32 (off + 8), frame.be32 (off + 12)⟩

def mac (frame : Frame) (off : Nat) : Mac :=
  ⟨frame.byte off, frame.byte (off + 1), frame.byte (off + 2), frame.byte (off + 3),
    frame.byte (off + 4), frame.byte (off + 5)⟩

end Frame

def ethPIp : Be16 := ⟨0x08, 0x00⟩
def ethPIpv6 : Be16 := ⟨0x86, 0xdd⟩

/-! ## Return codes -/

/-- `enum marlin_ret`, in its order: the position is the `drop_stats` index. -/
inductive MarlinRet where
  | ok
  | okTx
  | okRedirect
  | passVipMiss
  | passIcmpEcho
  | dropNoBackend
  | dropBackendDown
  | dropBackendUnresolved
  | dropParseError
  | dropUnsupportedProto
  | dropExtHdrLimit
  | dropIcmpUnparseable
  | dropFibNoNeigh
  | dropFibFwdDisabled
  | dropFibBlackhole
  | dropFibUnreachable
  | dropFibProhibit
  | dropFibGatewayed
  | dropFibUnspec
  | dropFragNeeded
  | dropAdjustHead
  | dropEncapLength
  | dropFrameTooBig
  | dropMapBounds
  | dropNoTxPort
  | dropAclBlocked
  | dropRatelimited
  | countMacFallback
  | countNeighFallback
  | countEgressMismatch
  | countRlCasExhausted
  | dropFragUnsupported
  | passNotForwarded
  | abortNullref
  | countRlInsertFailed
  | countQuicCidRouted
  | countQuicCidCheckFailed
  deriving DecidableEq, Repr

/-! ## The tuple and the context -/

structure PacketTuple where
  src : Addr
  dst : Addr
  sport : Be16
  dport : Be16
  proto : UInt8
  family : UInt8
  pad : Be16
  deriving DecidableEq, Repr

instance : Zero PacketTuple := ⟨⟨0, 0, 0, 0, 0, 0, 0⟩⟩

def PacketTuple.bytes (tuple : PacketTuple) : List UInt8 :=
  tuple.src.bytes ++ tuple.dst.bytes ++ tuple.sport.bytes ++ tuple.dport.bytes ++
    [tuple.proto, tuple.family] ++ tuple.pad.bytes

def marlinCtxFIcmp : UInt32 := 1
def marlinCtxFFrag : UInt32 := 2
def marlinCtxFFragFirst : UInt32 := 4
def marlinCtxFQuic : UInt32 := 8
def marlinCtxFFragAny : UInt32 := marlinCtxFFrag ||| marlinCtxFFragFirst
def marlinCtxDscpMask : UInt32 := 0x3f0000

def marlinCtxDscp (flags : UInt32) : Nat := ((flags &&& marlinCtxDscpMask) >>> 16).toNat

inductive MarlinAclVerdict where
  | none
  | allow
  | block
  | abort
  deriving DecidableEq, Repr

structure MarlinCtx where
  tuple : PacketTuple
  backend : Backend
  cfg : MarlinConfig
  flags : UInt32
  l3Off : Nat
  l4Off : Nat
  pktLen : Nat
  aclVerdict : MarlinAclVerdict
  udpPayloadLen : Nat
  deriving DecidableEq, Repr

instance : Zero MarlinCtx := ⟨⟨0, 0, 0, 0, 0, 0, 0, .none, 0⟩⟩

/-- The context `xdp_main` hands to the parser: zeroed, with the configuration in it. -/
def MarlinCtx.start (cfg : MarlinConfig) : MarlinCtx := { (0 : MarlinCtx) with cfg := cfg }

def marlinOuterTos (mctx : MarlinCtx) : UInt8 := UInt8.ofNat (marlinCtxDscp mctx.flags * 4)

theorem flags_or_and (a b mask : UInt32) :
    (a ||| b) &&& mask = (a &&& mask) ||| (b &&& mask) := by
  apply UInt32.toNat_inj.mp
  simp only [UInt32.toNat_and, UInt32.toNat_or, Nat.and_or_distrib_right]

theorem flags_or_ne {a mask : UInt32} (h : a &&& mask ≠ 0) (b : UInt32) :
    (a ||| b) &&& mask ≠ 0 := by
  rw [flags_or_and]
  exact fun hzero => h (UInt32.or_eq_zero_iff.mp hzero).1

@[simp] theorem MarlinCtx.start_tuple (cfg : MarlinConfig) :
    (MarlinCtx.start cfg).tuple = 0 := rfl

@[simp] theorem MarlinCtx.start_flags (cfg : MarlinConfig) :
    (MarlinCtx.start cfg).flags = 0 := rfl

end Marlin
