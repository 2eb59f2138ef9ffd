import Marlin.Bpf.Stats
import Marlin.Library.Buffer
import Marlin.Library.OnesComplement

/-!
# Encapsulation

`csum.h`, `entropy.h`, `mtu.h` and the three encapsulation units `ipip.c`, `gue.c`
and `vxlan.c`, on a little-endian host: where the source loads a network-order
field or a header word as a native integer, the bytes are read least significant
first.
-/

namespace Marlin

open Marlin.Library

/-! ## Headers -/

def ipDf : Nat := 0x4000
def marlinOuterTtl : UInt8 := 64
def marlinVxlanFlagVni : UInt8 := 0x08

/-- `struct iphdr` without options; `version` and `ihl` share the first byte. -/
structure Iphdr where
  version : Nat
  ihl : Nat
  tos : UInt8
  totLen : Be16
  id : Be16
  fragOff : Be16
  ttl : UInt8
  protocol : UInt8
  check : Be16
  saddr : Be32
  daddr : Be32
  deriving DecidableEq, Repr

def Iphdr.bytes (iph : Iphdr) : List UInt8 :=
  [UInt8.ofNat (iph.version * 16 + iph.ihl), iph.tos] ++ iph.totLen.bytes ++
    iph.id.bytes ++ iph.fragOff.bytes ++ [iph.ttl, iph.protocol] ++ iph.check.bytes ++
    iph.saddr.bytes ++ iph.daddr.bytes

structure Udphdr where
  source : Be16
  dest : Be16
  len : Be16
  check : Be16
  deriving DecidableEq, Repr

def Udphdr.bytes (udp : Udphdr) : List UInt8 :=
  udp.source.bytes ++ udp.dest.bytes ++ udp.len.bytes ++ udp.check.bytes

structure MarlinGueHdr where
  vcf : UInt8
  proto : UInt8
  flags : Be16
  deriving DecidableEq, Repr

def MarlinGueHdr.bytes (gue : MarlinGueHdr) : List UInt8 :=
  [gue.vcf, gue.proto] ++ gue.flags.bytes

structure MarlinVxlanHdr where
  flags : UInt8
  vniAndReserved : Be32
  deriving DecidableEq, Repr

def MarlinVxlanHdr.bytes (vxlan : MarlinVxlanHdr) : List UInt8 :=
  [vxlan.flags, 0, 0, 0] ++ vxlan.vniAndReserved.bytes

/-! ## Checksum -/

def hostWord (bytes : List UInt8) (i : Nat) : Nat :=
  (bytes.getD (2 * i) 0).toNat + (bytes.getD (2 * i + 1) 0).toNat * 256

/-- `marlin_ipv4_csum`: the two bytes that the returned `__sum16` occupies. -/
def marlinIpv4Csum (iph : Iphdr) : Be16 :=
  let word := hostWord iph.bytes
  let sum := word 0 + word 1 + word 2 + word 3 + word 4 + word 6 + word 7 + word 8 + word 9
  let sum := carryFold sum
  let sum := carryFold sum
  let folded := (0xffffffff - sum) % 65536
  ⟨UInt8.ofNat folded, UInt8.ofNat (folded / 256)⟩

/-! ## Entropy -/

def Be16.native (v : Be16) : UInt32 := v.b0.toUInt32 ||| (v.b1.toUInt32 <<< 8)

def Be32.native (v : Be32) : UInt32 :=
  v.b0.toUInt32 ||| (v.b1.toUInt32 <<< 8) ||| (v.b2.toUInt32 <<< 16) |||
    (v.b3.toUInt32 <<< 24)

def marlinEntropySportMin : Nat := 49152
def marlinEntropySportRange : Nat := 16384

def marlinEntropyMix (hash val : UInt32) : UInt32 :=
  let hash := hash ^^^ val
  let hash := hash * 0x85ebca6b
  hash ^^^ (hash >>> 13)

def marlinEntropySport (tuple : PacketTuple) : Be16 :=
  let words (a : Addr) : List UInt32 := [a.w0.native, a.w1.native, a.w2.native, a.w3.native]
  let hash := (words tuple.src).foldl marlinEntropyMix 0
  let hash := (words tuple.dst).foldl marlinEntropyMix hash
  let hash := marlinEntropyMix hash ((tuple.sport.native <<< 16) ||| tuple.dport.native)
  let hash := marlinEntropyMix hash tuple.proto.toUInt32
  let hash := hash ^^^ (hash >>> 16)
  let hash := hash * 0x85ebca6b
  let hash := hash ^^^ (hash >>> 13)
  let hash := hash * 0xc2b2ae35
  let hash := hash ^^^ (hash >>> 16)
  Be16.ofNat (marlinEntropySportMin + hash.toNat % marlinEntropySportRange)

/-! ## What the three units share -/

def marlinFrameFits (mctx : MarlinCtx) (overhead : Nat) : MarlinRet :=
  if mctx.cfg.maxFrame = 0 then .ok
  else if mctx.pktLen + overhead > mctx.cfg.maxFrame then .dropFrameTooBig
  else .ok

def marlinEncapValidate (mctx : MarlinCtx) (overhead : Nat) : MarlinRet :=
  if mctx.pktLen < ethHlen then .dropEncapLength else marlinFrameFits mctx overhead

def marlinOuterIpv4Unsummed (mctx : MarlinCtx) (protocol : UInt8) (overhead innerLen : Nat) :
    Iphdr :=
  { version := 4
    ihl := 5
    tos := marlinOuterTos mctx
    totLen := Be16.ofNat (overhead + innerLen)
    id := 0
    fragOff := Be16.ofNat ipDf
    ttl := marlinOuterTtl
    protocol := protocol
    check := 0
    saddr := mctx.cfg.tunnelSrc
    daddr := mctx.backend.addr }

/-- The outer IPv4 header; the units differ in `protocol` and `overhead`. -/
def marlinBuildOuterIpv4 (mctx : MarlinCtx) (protocol : UInt8) (overhead innerLen : Nat) :
    Iphdr :=
  let iph := marlinOuterIpv4Unsummed mctx protocol overhead innerLen
  { iph with check := marlinIpv4Csum iph }

def marlinBuildOuterUdp (mctx : MarlinCtx) (sport : Be16) (dportDefault len : Nat) : Udphdr :=
  { source := sport
    dest := if mctx.backend.encapDport ≠ 0 then mctx.backend.encapDport
      else Be16.ofNat dportDefault
    len := Be16.ofNat len
    check := 0 }

/-- The arriving Ethernet header, moved to the new start of the frame. -/
def marlinBuildOuterEth (frame : Frame) (overhead : Nat) : List UInt8 :=
  (frame.mac overhead).bytes ++ (frame.mac (overhead + 6)).bytes ++ ethPIp.bytes

def MarlinCtx.encapsulated (mctx : MarlinCtx) (overhead innerLen : Nat) : MarlinCtx :=
  { mctx with l3Off := ethHlen, pktLen := (ethHlen + overhead + innerLen) % 65536 }

def marlinInnerProto (mctx : MarlinCtx) : UInt8 :=
  if mctx.tuple.family = afInet6 then ipprotoIpv6 else ipprotoIpip

/-! ## IPIP -/

def marlinIpipValidate (mctx : MarlinCtx) : MarlinRet :=
  marlinEncapValidate mctx marlinOverheadIpip

def marlinIpipBuildOuterIpv4 (mctx : MarlinCtx) (innerLen : Nat) : Iphdr :=
  marlinBuildOuterIpv4 mctx (marlinInnerProto mctx) marlinOverheadIpip innerLen

def marlinIpipWriteOuter (mctx : MarlinCtx) (data : Frame) (innerLen : Nat) : Frame :=
  let data := splice data 0 (marlinBuildOuterEth data marlinOverheadIpip)
  splice data ethHlen (marlinIpipBuildOuterIpv4 mctx innerLen).bytes

def marlinIpipEncapPacket (host : Host) (frame : Frame) (mctx : MarlinCtx) :
    MarlinRet × Frame × MarlinCtx :=
  let rc := marlinIpipValidate mctx
  if rc ≠ .ok then (rc, frame, mctx)
  else
    let innerLen := mctx.pktLen - ethHlen
    match host.adjustHead marlinOverheadIpip frame with
    | none => (.dropAdjustHead, frame, mctx)
    | some data =>
        if ethHlen + marlinOverheadIpip > data.length then (.dropAdjustHead, data, mctx)
        else
          (.ok, marlinIpipWriteOuter mctx data innerLen,
            mctx.encapsulated marlinOverheadIpip innerLen)

/-! ## GUE -/

def marlinGueValidate (mctx : MarlinCtx) : MarlinRet :=
  marlinEncapValidate mctx marlinOverheadGue

def marlinGueBuildOuterIpv4 (mctx : MarlinCtx) (innerLen : Nat) : Iphdr :=
  marlinBuildOuterIpv4 mctx ipprotoUdp marlinOverheadGue innerLen

def marlinGueBuildOuterUdp (mctx : MarlinCtx) (sport : Be16) (innerLen : Nat) : Udphdr :=
  marlinBuildOuterUdp mctx sport marlinGueDportDefault (8 + 4 + innerLen)

def marlinGueBuildGueHdr (mctx : MarlinCtx) : MarlinGueHdr :=
  { vcf := 0, proto := marlinInnerProto mctx, flags := 0 }

def marlinGueWriteOuterL3 (mctx : MarlinCtx) (data : Frame) (innerLen : Nat) : Frame :=
  let data := splice data 0 (marlinBuildOuterEth data marlinOverheadGue)
  splice data ethHlen (marlinGueBuildOuterIpv4 mctx innerLen).bytes

def marlinGueWriteOuterL4 (mctx : MarlinCtx) (data : Frame) (sport : Be16)
    (innerLen : Nat) : Frame :=
  let data := splice data (ethHlen + 20) (marlinGueBuildOuterUdp mctx sport innerLen).bytes
  splice data (ethHlen + 20 + 8) (marlinGueBuildGueHdr mctx).bytes

def marlinGueEncapPacket (host : Host) (frame : Frame) (mctx : MarlinCtx) :
    MarlinRet × Frame × MarlinCtx :=
  let rc := marlinGueValidate mctx
  if rc ≠ .ok then (rc, frame, mctx)
  else
    let innerLen := mctx.pktLen - ethHlen
    match host.adjustHead marlinOverheadGue frame with
    | none => (.dropAdjustHead, frame, mctx)
    | some data =>
        if ethHlen + marlinOverheadGue > data.length then (.dropAdjustHead, data, mctx)
        else
          let data := marlinGueWriteOuterL3 mctx data innerLen
          let sport := marlinEntropySport mctx.tuple
          (.ok, marlinGueWriteOuterL4 mctx data sport innerLen,
            mctx.encapsulated marlinOverheadGue innerLen)

/-! ## VXLAN -/

def marlinVxlanValidate (mctx : MarlinCtx) : MarlinRet :=
  marlinEncapValidate mctx marlinOverheadVxlan

def marlinVxlanBuildOuterIpv4 (mctx : MarlinCtx) (innerLen : Nat) : Iphdr :=
  marlinBuildOuterIpv4 mctx ipprotoUdp marlinOverheadVxlan innerLen

def marlinVxlanBuildOuterUdp (mctx : MarlinCtx) (sport : Be16) (innerLen : Nat) : Udphdr :=
  marlinBuildOuterUdp mctx sport marlinVxlanDportDefault (8 + 8 + ethHlen + innerLen)

/-- The arriving frame's own header, whose addresses the backend's segment needs. -/
def marlinVxlanFixupInnerEth (mctx : MarlinCtx) (data : Frame) (arrivingDst : Mac) : Frame :=
  let data := splice data marlinOverheadVxlan mctx.backend.innerMac.bytes
  splice data (marlinOverheadVxlan + 6) arrivingDst.bytes

def marlinVxlanBuildOuterEth (data : Frame) (arrivingDst arrivingSrc : Mac) : Frame :=
  let data := splice data 0 arrivingSrc.bytes
  let data := splice data 6 arrivingDst.bytes
  splice data 12 ethPIp.bytes

def marlinVxlanBuildVxlanHdr (vni : Nat) : MarlinVxlanHdr :=
  { flags := marlinVxlanFlagVni, vniAndReserved := Be32.ofNat (vni * 256) }

def marlinVxlanWriteOuter (mctx : MarlinCtx) (data : Frame) (arrivingDst arrivingSrc : Mac)
    (sport : Be16) (innerLen : Nat) : Frame :=
  let data := marlinVxlanBuildOuterEth data arrivingDst arrivingSrc
  let data := splice data ethHlen (marlinVxlanBuildOuterIpv4 mctx innerLen).bytes
  let data := splice data (ethHlen + 20) (marlinVxlanBuildOuterUdp mctx sport innerLen).bytes
  splice data (ethHlen + 20 + 8) (marlinVxlanBuildVxlanHdr mctx.backend.vni).bytes

def marlinVxlanEncapPacket (host : Host) (frame : Frame) (mctx : MarlinCtx) :
    MarlinRet × Frame × MarlinCtx :=
  let rc := marlinVxlanValidate mctx
  if rc ≠ .ok then (rc, frame, mctx)
  else
    let innerLen := mctx.pktLen - ethHlen
    if ethHlen > frame.length then (.dropParseError, frame, mctx)
    else
      let arrivingDst := frame.mac 0
      let arrivingSrc := frame.mac 6
      match host.adjustHead marlinOverheadVxlan frame with
      | none => (.dropAdjustHead, frame, mctx)
      | some data =>
          if marlinOverheadVxlan + ethHlen > data.length then (.dropAdjustHead, data, mctx)
          else
            let data := marlinVxlanFixupInnerEth mctx data arrivingDst
            let sport := marlinEntropySport mctx.tuple
            (.ok, marlinVxlanWriteOuter mctx data arrivingDst arrivingSrc sport innerLen,
              mctx.encapsulated marlinOverheadVxlan innerLen)

end Marlin
