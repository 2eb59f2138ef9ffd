import Marlin.Bpf.Context

/-!
# The parser

`parser.c`.  Every load stands behind the comparison with `data_end` that the
source makes.  A function that fills a local structure returns it with the code
`MARLIN_OK`; on any other code the caller never reads it.
-/

namespace Marlin

def ipOffset : Nat := 0x1fff
def ipMf : Nat := 0x2000
def ip6Offset : Nat := 0xfff8
def ip6Mf : Nat := 0x0001
def marlinIpv4IhlMin : Nat := 5
def marlinIcmpEmbExtHdrs : Nat := 2
def marlinUdpHlen : Nat := 8
def marlinQuicLongHeader : UInt8 := 0x80
def marlinL3OffEth : Nat := ethHlen

structure MarlinL3 where
  src : Addr
  dst : Addr
  l4Off : Nat
  flags : UInt32
  proto : UInt8
  fragExt : Bool
  deriving DecidableEq, Repr

instance : Zero MarlinL3 := ⟨⟨0, 0, 0, 0, 0, false⟩⟩

/-- `(field & bpf_htons(mask)) != 0`. -/
def Be16.masked (field : Be16) (mask : Nat) : Bool := field.toNat &&& mask != 0

def marlinParseFrag4 (fragOff : Be16) : UInt32 :=
  if fragOff.masked ipOffset then marlinCtxFFrag
  else if fragOff.masked ipMf then marlinCtxFFragFirst
  else 0

def marlinParseFrag6 (fragOff : Be16) : UInt32 :=
  if fragOff.masked ip6Offset then marlinCtxFFrag
  else if fragOff.masked ip6Mf then marlinCtxFFragFirst
  else 0

def marlinIsExt6 (nexthdr : UInt8) : Bool :=
  nexthdr == ipprotoHopopts || nexthdr == ipprotoRouting || nexthdr == ipprotoDstopts ||
    nexthdr == ipprotoFragment

def marlinProtoUnsupported (proto : UInt8) : Bool :=
  proto == ipprotoEsp || proto == ipprotoAh

def marlinProtoHasPorts (proto : UInt8) : Bool :=
  proto == ipprotoTcp || proto == ipprotoUdp || proto == ipprotoSctp

def marlinWalkFrag6 (frame : Frame) (off : Nat) (out : MarlinL3) : MarlinL3 :=
  let flags := out.flags ||| marlinParseFrag6 (frame.be16 (off + 2))
  { out with
    flags := flags
    fragExt := out.fragExt ||
      (flags &&& marlinCtxFFragAny != 0 && marlinIsExt6 (frame.byte off)) }

/-- `marlin_walk_ext6` with `n` iterations of its loop left, in iteration `i`. -/
def marlinWalkExt6Loop (frame : Frame) (maxExt : Nat) :
    Nat → Nat → Nat → UInt8 → MarlinL3 → Except MarlinRet MarlinL3
  | 0, _, _, _, _ => .error .dropExtHdrLimit
  | n + 1, i, off, nexthdr, out =>
      if marlinProtoUnsupported nexthdr then .error .dropUnsupportedProto
      else if !marlinIsExt6 nexthdr then .ok { out with proto := nexthdr, l4Off := off }
      else if i ≥ maxExt then .error .dropExtHdrLimit
      else if off + 2 > frame.length then .error .dropParseError
      else if nexthdr == ipprotoFragment then
        if off + 8 > frame.length then .error .dropParseError
        else
          let out := marlinWalkFrag6 frame off out
          -- a later fragment carries payload here, not headers
          if out.flags &&& marlinCtxFFrag != 0 then
            .ok { out with proto := frame.byte off, l4Off := off + 8 }
          else marlinWalkExt6Loop frame maxExt n (i + 1) (off + 8) (frame.byte off) out
      else
        marlinWalkExt6Loop frame maxExt n (i + 1)
          (off + ((frame.byte (off + 1)).toNat + 1) * 8) (frame.byte off) out

theorem marlinWalkExt6Loop_options_eq {nexthdr : UInt8}
    (hnext : nexthdr = ipprotoHopopts ∨ nexthdr = ipprotoRouting ∨ nexthdr = ipprotoDstopts)
    (frame : Frame) (maxExt n i off : Nat) (out : MarlinL3) :
    marlinWalkExt6Loop frame maxExt (n + 1) i off nexthdr out =
      if i ≥ maxExt then .error .dropExtHdrLimit
      else if off + 2 > frame.length then .error .dropParseError
      else marlinWalkExt6Loop frame maxExt n (i + 1)
        (off + ((frame.byte (off + 1)).toNat + 1) * 8) (frame.byte off) out := by
  rw [marlinWalkExt6Loop]
  rcases hnext with rfl | rfl | rfl
  · rfl
  · rfl
  · rfl

theorem marlinWalkExt6Loop_fragment_eq (frame : Frame) (maxExt n i off : Nat) (out : MarlinL3) :
    marlinWalkExt6Loop frame maxExt (n + 1) i off ipprotoFragment out =
      if i ≥ maxExt then .error .dropExtHdrLimit
      else if off + 2 > frame.length then .error .dropParseError
      else if off + 8 > frame.length then .error .dropParseError
      else if (marlinWalkFrag6 frame off out).flags &&& marlinCtxFFrag != 0 then
        .ok { marlinWalkFrag6 frame off out with proto := frame.byte off, l4Off := off + 8 }
      else marlinWalkExt6Loop frame maxExt n (i + 1) (off + 8) (frame.byte off)
        (marlinWalkFrag6 frame off out) := by
  rw [marlinWalkExt6Loop]
  rfl

def marlinWalkExt6 (frame : Frame) (off : Nat) (nexthdr : UInt8) (maxExt : Nat)
    (out : MarlinL3) : Except MarlinRet MarlinL3 :=
  marlinWalkExt6Loop frame maxExt (maxExtHdrs + 1) 0 off nexthdr out

def ipv4Ihl (frame : Frame) (l3Off : Nat) : Nat := (frame.byte l3Off).toNat % 16

def marlinParseL3 (frame : Frame) (l3Off : Nat) (family : UInt8) (maxExt : Nat) :
    Except MarlinRet MarlinL3 :=
  if family == afInet then
    if l3Off + 20 > frame.length then .error .dropParseError
    else if ipv4Ihl frame l3Off < marlinIpv4IhlMin then .error .dropParseError
    else if l3Off + ipv4Ihl frame l3Off * 4 > frame.length then .error .dropParseError
    else .ok
      { src := ⟨frame.be32 (l3Off + 12), 0, 0, 0⟩
        dst := ⟨frame.be32 (l3Off + 16), 0, 0, 0⟩
        l4Off := l3Off + ipv4Ihl frame l3Off * 4
        flags := marlinParseFrag4 (frame.be16 (l3Off + 6))
        proto := frame.byte (l3Off + 9)
        fragExt := false }
  else if l3Off + 40 > frame.length then .error .dropParseError
  else
    marlinWalkExt6 frame (l3Off + 40) (frame.byte (l3Off + 6)) maxExt
      { (0 : MarlinL3) with
        src := frame.addr (l3Off + 8)
        dst := frame.addr (l3Off + 24) }

def marlinParsePorts (frame : Frame) (l4Off : Nat) (proto : UInt8) :
    Except MarlinRet (Be16 × Be16) :=
  if marlinProtoUnsupported proto then .error .dropUnsupportedProto
  else if !marlinProtoHasPorts proto then .error .passNotForwarded
  else if l4Off + 4 > frame.length then .error .dropParseError
  else .ok (frame.be16 l4Off, frame.be16 (l4Off + 2))

/-- The flag `MARLIN_CTX_F_QUIC` or zero, and the context with the payload length. -/
def marlinParseQuic (frame : Frame) (l4Off : Nat) (mctx : MarlinCtx) :
    UInt32 × MarlinCtx :=
  let udpLen := (frame.be16 (l4Off + 4)).toNat
  if l4Off + 8 > frame.length then (0, mctx)
  else if udpLen < marlinUdpHlen then (0, { mctx with udpPayloadLen := 0 })
  else
    let payloadLen := if udpLen - marlinUdpHlen > 0xff then 0xff else udpLen - marlinUdpHlen
    let mctx := { mctx with udpPayloadLen := payloadLen }
    if payloadLen = 0 then (0, mctx)
    else if l4Off + 9 > frame.length then (0, mctx)
    else if frame.byte (l4Off + 8) &&& marlinQuicLongHeader == 0 then (marlinCtxFQuic, mctx)
    else (0, mctx)

def marlinProtoIsIcmp (family proto : UInt8) : Bool :=
  (family == afInet && proto == ipprotoIcmp) ||
    (family == afInet6 && proto == ipprotoIcmpv6)

/-- Destination unreachable, time exceeded, parameter problem; for IPv6, too big. -/
def marlinIcmpIsError (family type : UInt8) : Bool :=
  if family == afInet then type == 3 || type == 11 || type == 12
  else type == 1 || type == 2 || type == 3 || type == 4

def marlinIcmpIsEcho (family type : UInt8) : Bool :=
  if family == afInet then type == 8 || type == 0
  else type == 128 || type == 129

/-- The tuple of the flow that an ICMP error quotes, with the two directions exchanged. -/
def marlinParseIcmp (frame : Frame) (l4Off : Nat) (family : UInt8) (mctx : MarlinCtx) :
    MarlinRet × MarlinCtx :=
  let type := frame.byte l4Off
  if l4Off + 2 > frame.length then (.dropParseError, mctx)
  else if !marlinIcmpIsError family type then
    (if marlinIcmpIsEcho family type then .passIcmpEcho else .passNotForwarded, mctx)
  else if l4Off + 8 > frame.length then (.dropIcmpUnparseable, mctx)
  else
    match marlinParseL3 frame (l4Off + 8) family marlinIcmpEmbExtHdrs with
    | .error _ => (.dropIcmpUnparseable, mctx)
    | .ok emb =>
        if emb.flags &&& marlinCtxFFrag != 0 then (.dropIcmpUnparseable, mctx)
        else
          match marlinParsePorts frame emb.l4Off emb.proto with
          | .error _ => (.dropIcmpUnparseable, mctx)
          | .ok (sport, dport) =>
              (.ok, { mctx with
                tuple := { mctx.tuple with
                  dst := emb.src
                  src := emb.dst
                  dport := sport
                  sport := dport
                  proto := emb.proto }
                flags := mctx.flags ||| marlinCtxFIcmp })

/-- What `marlin_parse` does with a parsed network header. -/
def marlinParseL4 (frame : Frame) (family : UInt8) (l3 : MarlinL3) (mctx : MarlinCtx) :
    MarlinRet × MarlinCtx :=
  if marlinProtoUnsupported l3.proto then (.dropUnsupportedProto, mctx)
  else if l3.fragExt then (.dropUnsupportedProto, mctx)
  else if mctx.flags &&& marlinCtxFFrag != 0 then
    (if marlinProtoIsIcmp family l3.proto then .passNotForwarded else .ok, mctx)
  else if marlinProtoIsIcmp family l3.proto then
    marlinParseIcmp frame l3.l4Off family mctx
  else
    match marlinParsePorts frame l3.l4Off l3.proto with
    | .error rc => (rc, mctx)
    | .ok (sport, dport) =>
        let mctx := { mctx with tuple := { mctx.tuple with sport := sport, dport := dport } }
        if l3.proto == ipprotoUdp then
          let (quic, mctx) := marlinParseQuic frame l3.l4Off mctx
          (.ok, { mctx with flags := mctx.flags ||| quic })
        else (.ok, mctx)

def MarlinCtx.withL3 (mctx : MarlinCtx) (family : UInt8) (l3 : MarlinL3) : MarlinCtx :=
  { mctx with
    tuple := { mctx.tuple with
      family := family
      proto := l3.proto
      src := l3.src
      dst := l3.dst }
    l3Off := marlinL3OffEth
    l4Off := l3.l4Off % 65536
    flags := mctx.flags ||| l3.flags }

def marlinEthFamily (frame : Frame) : Option UInt8 :=
  if frame.be16 12 = ethPIp then some afInet
  else if frame.be16 12 = ethPIpv6 then some afInet6
  else none

def marlinParse (frame : Frame) (mctx : MarlinCtx) : MarlinRet × MarlinCtx :=
  let mctx := { mctx with pktLen := frame.length % 65536 }
  if ethHlen > frame.length then (.dropParseError, mctx)
  else
    match marlinEthFamily frame with
    | none => (.passNotForwarded, mctx)
    | some family =>
        match marlinParseL3 frame marlinL3OffEth family maxExtHdrs with
        | .error rc => (rc, mctx)
        | .ok l3 => marlinParseL4 frame family l3 (mctx.withL3 family l3)

/-! ## The instance's configuration plays no part -/

def MarlinCtx.withCfg (mctx : MarlinCtx) (cfg : MarlinConfig) : MarlinCtx :=
  { mctx with cfg := cfg }

theorem marlinParseQuic_withCfg (frame : Frame) (l4Off : Nat) (mctx : MarlinCtx)
    (cfg : MarlinConfig) :
    marlinParseQuic frame l4Off (mctx.withCfg cfg) =
      ((marlinParseQuic frame l4Off mctx).1, (marlinParseQuic frame l4Off mctx).2.withCfg cfg) := by
  simp only [marlinParseQuic]
  repeat' split
  all_goals rfl

theorem marlinParseIcmp_withCfg (frame : Frame) (l4Off : Nat) (family : UInt8)
    (mctx : MarlinCtx) (cfg : MarlinConfig) :
    marlinParseIcmp frame l4Off family (mctx.withCfg cfg) =
      ((marlinParseIcmp frame l4Off family mctx).1,
        (marlinParseIcmp frame l4Off family mctx).2.withCfg cfg) := by
  simp only [marlinParseIcmp]
  repeat' split
  all_goals rfl

theorem marlinParseL4_withCfg (frame : Frame) (family : UInt8) (l3 : MarlinL3)
    (mctx : MarlinCtx) (cfg : MarlinConfig) :
    marlinParseL4 frame family l3 (mctx.withCfg cfg) =
      ((marlinParseL4 frame family l3 mctx).1,
        (marlinParseL4 frame family l3 mctx).2.withCfg cfg) := by
  have hquic := fun sport dport => marlinParseQuic_withCfg frame l3.l4Off
    { mctx with tuple := { mctx.tuple with sport := sport, dport := dport } } cfg
  have hicmp := marlinParseIcmp_withCfg frame l3.l4Off family mctx cfg
  simp only [marlinParseL4]
  have hflags : (mctx.withCfg cfg).flags = mctx.flags := rfl
  rw [hflags, hicmp]
  split
  · rfl
  · split
    · rfl
    · split
      · rfl
      · split
        · rfl
        · split
          · rfl
          · next sport dport _ =>
            split
            · have := hquic sport dport
              simp only [MarlinCtx.withCfg] at this ⊢
              rw [this]
            · rfl

theorem marlinParse_withCfg (frame : Frame) (mctx : MarlinCtx) (cfg : MarlinConfig) :
    marlinParse frame (mctx.withCfg cfg) =
      ((marlinParse frame mctx).1, (marlinParse frame mctx).2.withCfg cfg) := by
  simp only [marlinParse]
  split
  · rfl
  · split
    · rfl
    · split
      · rfl
      · next family _ _ l3 _ =>
        exact marlinParseL4_withCfg frame family l3
          (({ mctx with pktLen := frame.length % 65536 } : MarlinCtx).withL3 family l3) cfg
end Marlin
