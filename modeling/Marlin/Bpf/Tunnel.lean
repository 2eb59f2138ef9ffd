import Marlin.Bpf.Decap
import Marlin.Bpf.Wire

/-!
# Decapsulation recovers the client's packet

Each encapsulation unit, and the whole of encapsulation and next-hop resolution,
emits a frame from which a receiver obtains what arrived.
-/

namespace Marlin

open Marlin.Library

/-! ## What a tunnelled frame is -/

/-- What `marlin_lb_process_packet` has established when it encapsulates. -/
structure EncapReady (frame : Frame) (mctx : MarlinCtx) (vip : VipMeta) : Prop where
  length : mctx.pktLen = frame.length
  maxFrame : mctx.cfg.maxFrame < 65536
  vni : mctx.backend.vni < 2 ^ 24
  dscp : mctx.flags &&& marlinCtxDscpMask = vip.flags &&& vipDscpMask

/-- The emitted IPv4 length fits its field; a configured `max_frame` sees to that. -/
def LengthFits (frame : Frame) (mctx : MarlinCtx) (overhead : Nat) : Prop :=
  mctx.cfg.maxFrame ≠ 0 ∨ frame.length + overhead < 65536 + ethHlen

structure Tunnelled (vip : VipMeta) (frame : Frame) (overhead : Nat) (out : Frame) : Prop where
  length : out.length = frame.length + overhead
  verifies : ipv4Verifies (out.drop ethHlen)
  totLen : ipv4TotLen (out.drop ethHlen) = out.length - ethHlen
  df : ipv4FragOff (out.drop ethHlen) = ipDf
  ecn : ipv4Tos (out.drop ethHlen) % 4 = 0
  dscp : ipv4Tos (out.drop ethHlen) / 4 = vipDscp vip.flags

def UdpTunnelled (out : Frame) : Prop :=
  ∃ udp, decapUdp (out.drop ethHlen) = some udp ∧
    udp.len = ipv4TotLen (out.drop ethHlen) - 20 ∧ 49152 ≤ udp.sport ∧ udp.sport ≤ 65535

structure IpipEmitted (mctx : MarlinCtx) (vip : VipMeta) (frame out : Frame) : Prop where
  outer : Tunnelled vip frame marlinOverheadIpip out
  decap : decapIpip (out.drop ethHlen) = some (marlinInnerProto mctx, frame.drop ethHlen)

structure GueEmitted (mctx : MarlinCtx) (vip : VipMeta) (frame out : Frame) : Prop where
  outer : Tunnelled vip frame marlinOverheadGue out
  udp : UdpTunnelled out
  decap : decapGue (out.drop ethHlen) = some (marlinInnerProto mctx, frame.drop ethHlen)

structure VxlanEmitted (mctx : MarlinCtx) (vip : VipMeta) (frame out : Frame) : Prop where
  outer : Tunnelled vip frame marlinOverheadVxlan out
  udp : UdpTunnelled out
  decap : decapVxlan (out.drop ethHlen) =
    some (mctx.backend.vni,
      mctx.backend.innerMac.bytes ++ ((frame.mac 0).bytes ++ frame.drop 12))

/-! ## From the packet behind the Ethernet header -/

section Packet

variable {frame out : Frame} {mctx mctx' : MarlinCtx} {vip : VipMeta}

theorem marlinEncapValidate_ok {overhead : Nat}
    (h : marlinEncapValidate mctx overhead = .ok) :
    ethHlen ≤ mctx.pktLen ∧
      (mctx.cfg.maxFrame = 0 ∨ mctx.pktLen + overhead ≤ mctx.cfg.maxFrame) := by
  simp only [marlinEncapValidate] at h
  split at h
  · contradiction
  rename_i hlen
  refine ⟨Nat.le_of_not_lt hlen, ?_⟩
  simp only [marlinFrameFits] at h
  split at h
  · rename_i hmax
    exact .inl hmax
  · split at h
    · contradiction
    · rename_i hmax
      exact .inr (Nat.le_of_not_lt hmax)

theorem EncapReady.fits {overhead : Nat} (hready : EncapReady frame mctx vip)
    (hvalid : marlinEncapValidate mctx overhead = .ok)
    (hfits : LengthFits frame mctx overhead) :
    ethHlen ≤ frame.length ∧ overhead + (mctx.pktLen - ethHlen) < 65536 := by
  obtain ⟨hmin, hmax⟩ := marlinEncapValidate_ok hvalid
  have hlength := hready.length
  have hbound := hready.maxFrame
  rw [hlength] at hmin hmax ⊢
  refine ⟨hmin, ?_⟩
  simp only [LengthFits, ethHlen] at hfits hmin ⊢
  omega

theorem EncapReady.dscp_eq (hready : EncapReady frame mctx vip) :
    marlinCtxDscp mctx.flags = vipDscp vip.flags := by
  rw [marlinCtxDscp, vipDscp, hready.dscp]

theorem tunnelled_of_behind {proto : UInt8} {overhead : Nat} {body : List UInt8}
    (hready : EncapReady frame mctx vip) (hlong : ethHlen ≤ frame.length)
    (hbody : overhead + (mctx.pktLen - ethHlen) = 20 + body.length)
    (hfits : overhead + (mctx.pktLen - ethHlen) < 65536)
    (hout : Announces out
      ((marlinBuildOuterIpv4 mctx proto overhead (mctx.pktLen - ethHlen)).bytes ++ body)) :
    Tunnelled vip frame overhead out := by
  obtain ⟨hdrop, hlength⟩ := hout.drop
  have hbehind := behind_marlinBuildOuterIpv4 mctx proto hbody hfits
  have htos : ipv4Tos (out.drop ethHlen) = vipDscp vip.flags * 4 := by
    rw [ethHlen, hdrop, hbehind.tos, ← hready.dscp_eq]
    exact marlinOuterTos_toNat mctx
  have hready' := hready.length
  refine ⟨?_, ?_, ?_, ?_, ?_, ?_⟩
  · rw [hlength, hbehind.length, ← hbody, hready']
    simp only [ethHlen] at hlong ⊢
    omega
  · rw [ethHlen, hdrop]
    exact hbehind.verifies
  · rw [ethHlen, hdrop, hbehind.totLen, hlength]
    omega
  · rw [ethHlen, hdrop, hbehind.fragOff]
    change (Be16.ofNat ipDf).toNat = ipDf
    rw [Be16.toNat_ofNat]
    rfl
  · rw [htos]
    omega
  · rw [htos]
    omega

theorem decapUdp_of_behind {overhead dportDefault len : Nat} {data : List UInt8}
    (hfits : overhead + (mctx.pktLen - ethHlen) < 65536)
    (hbody : overhead + (mctx.pktLen - ethHlen) = 20 + (8 + data.length))
    (hlen : len = 8 + data.length)
    (hout : Announces out
      ((marlinBuildOuterIpv4 mctx ipprotoUdp overhead (mctx.pktLen - ethHlen)).bytes ++
        ((marlinBuildOuterUdp mctx (marlinEntropySport mctx.tuple) dportDefault len).bytes ++
          data))) :
    decapUdp (out.drop ethHlen) =
        some ⟨(marlinEntropySport mctx.tuple).toNat, len, data⟩ ∧ UdpTunnelled out := by
  obtain ⟨hdrop, hlength⟩ := hout.drop
  have hudp := receiveUdp_marlinBuildOuterUdp mctx (marlinEntropySport mctx.tuple)
    dportDefault hlen (by omega)
  have hbody' : overhead + (mctx.pktLen - ethHlen) =
      20 + ((marlinBuildOuterUdp mctx (marlinEntropySport mctx.tuple) dportDefault len).bytes
        ++ data).length := by
    rw [List.length_append, hbody]
    rfl
  have hbehind := behind_marlinBuildOuterIpv4 mctx ipprotoUdp hbody' hfits
  have hdecap : decapUdp (out.drop ethHlen) =
      some ⟨(marlinEntropySport mctx.tuple).toNat, len, data⟩ := by
    have hproto : ipv4Protocol _ = ipprotoUdp := hbehind.protocol
    rw [ethHlen, hdrop, decapUdp, if_pos hproto, hbehind.received]
    exact hudp
  refine ⟨hdecap, _, hdecap, ?_, (marlinEntropySport_range mctx.tuple).1,
    (marlinEntropySport_range mctx.tuple).2⟩
  change len = _
  rw [ethHlen, hdrop, hbehind.totLen, hbehind.length, ← hbody', hbody, hlen]
  omega

end Packet

/-! ## The three units -/

section Units

variable {host : Host} {frame out : Frame} {mctx mctx' : MarlinCtx} {vip : VipMeta}

theorem marlinIpipEncapPacket_ok
    (h : marlinIpipEncapPacket host frame mctx = (.ok, out, mctx')) :
    marlinEncapValidate mctx marlinOverheadIpip = .ok ∧
      mctx' = mctx.encapsulated marlinOverheadIpip (mctx.pktLen - ethHlen) ∧
      Announces out
        ((marlinIpipBuildOuterIpv4 mctx (mctx.pktLen - ethHlen)).bytes ++
          frame.drop ethHlen) := by
  simp only [marlinIpipEncapPacket] at h
  split at h
  · rename_i hrc
    exact absurd (Prod.mk.inj h).1 hrc
  rename_i hrc
  split at h
  · cases h
  rename_i data hadjust
  split at h
  · cases h
  rename_i hroom
  simp only [Prod.mk.injEq, true_and] at h
  obtain ⟨rfl, rfl⟩ := h
  obtain ⟨hlength, hdrop⟩ := host.adjustHead_some hadjust
  refine ⟨not_not.mp hrc, rfl, ?_⟩
  rw [← hdrop ethHlen]
  exact marlinIpipWriteOuter_announces mctx _ (Nat.le_of_not_lt hroom)

theorem marlinGueEncapPacket_ok
    (h : marlinGueEncapPacket host frame mctx = (.ok, out, mctx')) :
    marlinEncapValidate mctx marlinOverheadGue = .ok ∧
      mctx' = mctx.encapsulated marlinOverheadGue (mctx.pktLen - ethHlen) ∧
      Announces out
        ((marlinGueBuildOuterIpv4 mctx (mctx.pktLen - ethHlen)).bytes ++
          ((marlinGueBuildOuterUdp mctx (marlinEntropySport mctx.tuple)
            (mctx.pktLen - ethHlen)).bytes ++
            ((marlinGueBuildGueHdr mctx).bytes ++ frame.drop ethHlen))) := by
  simp only [marlinGueEncapPacket] at h
  split at h
  · rename_i hrc
    exact absurd (Prod.mk.inj h).1 hrc
  rename_i hrc
  split at h
  · cases h
  rename_i data hadjust
  split at h
  · cases h
  rename_i hroom
  simp only [Prod.mk.injEq, true_and] at h
  obtain ⟨rfl, rfl⟩ := h
  obtain ⟨hlength, hdrop⟩ := host.adjustHead_some hadjust
  refine ⟨not_not.mp hrc, rfl, ?_⟩
  rw [← hdrop ethHlen]
  exact marlinGueWriteOuter_announces mctx _ _ (Nat.le_of_not_lt hroom)

theorem marlinVxlanEncapPacket_ok
    (h : marlinVxlanEncapPacket host frame mctx = (.ok, out, mctx')) :
    marlinEncapValidate mctx marlinOverheadVxlan = .ok ∧
      mctx' = mctx.encapsulated marlinOverheadVxlan (mctx.pktLen - ethHlen) ∧
      Announces out
        ((marlinVxlanBuildOuterIpv4 mctx (mctx.pktLen - ethHlen)).bytes ++
          ((marlinVxlanBuildOuterUdp mctx (marlinEntropySport mctx.tuple)
            (mctx.pktLen - ethHlen)).bytes ++
            ((marlinVxlanBuildVxlanHdr mctx.backend.vni).bytes ++
              (mctx.backend.innerMac.bytes ++ ((frame.mac 0).bytes ++ frame.drop 12))))) := by
  simp only [marlinVxlanEncapPacket] at h
  split at h
  · rename_i hrc
    exact absurd (Prod.mk.inj h).1 hrc
  rename_i hrc
  split at h
  · cases h
  split at h
  · cases h
  rename_i data hadjust
  split at h
  · cases h
  rename_i hroom
  simp only [Prod.mk.injEq, true_and] at h
  obtain ⟨rfl, rfl⟩ := h
  obtain ⟨hlength, hdrop⟩ := host.adjustHead_some hadjust
  have hlong : 64 ≤ data.length := Nat.le_of_not_lt hroom
  refine ⟨not_not.mp hrc, rfl, ?_⟩
  have hinner := marlinVxlanFixupInnerEth_drop mctx (frame.mac 0) hlong
  have hsame := marlinVxlanFixupInnerEth_length mctx (frame.mac 0) hlong
  have hrest : data.drop 62 = frame.drop 12 := hdrop 12
  rw [← hrest, ← hinner]
  exact marlinVxlanWriteOuter_announces mctx _ _ _ _ (by omega)

theorem Announces.ipipEmitted (hready : EncapReady frame mctx vip)
    (hvalid : marlinEncapValidate mctx marlinOverheadIpip = .ok)
    (hfits : LengthFits frame mctx marlinOverheadIpip)
    (hout : Announces out
      ((marlinIpipBuildOuterIpv4 mctx (mctx.pktLen - ethHlen)).bytes ++
        frame.drop ethHlen)) : IpipEmitted mctx vip frame out := by
  obtain ⟨hlong, hfits⟩ := hready.fits hvalid hfits
  have hbody : marlinOverheadIpip + (mctx.pktLen - ethHlen) =
      20 + (frame.drop ethHlen).length := by
    rw [List.length_drop, hready.length]
    rfl
  refine ⟨tunnelled_of_behind hready hlong hbody hfits hout, ?_⟩
  have hbehind := behind_marlinBuildOuterIpv4 mctx (marlinInnerProto mctx) hbody hfits
  have hdrop : out.drop ethHlen = _ := hout.drop.1
  rw [hdrop, decapIpip, marlinIpipBuildOuterIpv4, hbehind.received, hbehind.protocol]
  rfl

theorem Announces.gueEmitted (hready : EncapReady frame mctx vip)
    (hvalid : marlinEncapValidate mctx marlinOverheadGue = .ok)
    (hfits : LengthFits frame mctx marlinOverheadGue)
    (hout : Announces out
      ((marlinGueBuildOuterIpv4 mctx (mctx.pktLen - ethHlen)).bytes ++
        ((marlinGueBuildOuterUdp mctx (marlinEntropySport mctx.tuple)
          (mctx.pktLen - ethHlen)).bytes ++
          ((marlinGueBuildGueHdr mctx).bytes ++ frame.drop ethHlen)))) :
    GueEmitted mctx vip frame out := by
  obtain ⟨hlong, hfits⟩ := hready.fits hvalid hfits
  have hinner : ((marlinGueBuildGueHdr mctx).bytes ++ frame.drop ethHlen).length =
      4 + (mctx.pktLen - ethHlen) := by
    rw [List.length_append, List.length_drop, hready.length]
    rfl
  have hbody : marlinOverheadGue + (mctx.pktLen - ethHlen) =
      20 + (8 + ((marlinGueBuildGueHdr mctx).bytes ++ frame.drop ethHlen).length) := by
    rw [hinner, marlinOverheadGue]
    omega
  obtain ⟨hudp, htunnelled⟩ := decapUdp_of_behind hfits hbody (by rw [hinner]; omega) hout
  refine ⟨tunnelled_of_behind hready hlong ?_ hfits hout, htunnelled, ?_⟩
  · rw [List.length_append, hbody]
    rfl
  · have hvcf : Frame.byte ((marlinGueBuildGueHdr mctx).bytes ++ frame.drop ethHlen) 0 = 0 :=
      rfl
    rw [decapGue, hudp, Option.bind_some]
    simp only [hvcf, UInt8.toNat_zero, Nat.zero_div, Nat.zero_mod, Nat.zero_mul, if_true]
    rfl

theorem decapVxlan_data {vni : Nat} (hvni : vni < 2 ^ 24) (inner : List UInt8) :
    (if Frame.byte ((marlinVxlanBuildVxlanHdr vni).bytes ++ inner) 0 &&& marlinVxlanFlagVni ≠ 0
      then some
        (((Frame.byte ((marlinVxlanBuildVxlanHdr vni).bytes ++ inner) 4).toNat * 256 +
          (Frame.byte ((marlinVxlanBuildVxlanHdr vni).bytes ++ inner) 5).toNat) * 256 +
          (Frame.byte ((marlinVxlanBuildVxlanHdr vni).bytes ++ inner) 6).toNat,
          ((marlinVxlanBuildVxlanHdr vni).bytes ++ inner).drop 8)
      else none) = some (vni, inner) := by
  have hflags : Frame.byte ((marlinVxlanBuildVxlanHdr vni).bytes ++ inner) 0 =
      marlinVxlanFlagVni := rfl
  have h4 : Frame.byte ((marlinVxlanBuildVxlanHdr vni).bytes ++ inner) 4 =
      UInt8.ofNat (vni * 256 / 16777216) := rfl
  have h5 : Frame.byte ((marlinVxlanBuildVxlanHdr vni).bytes ++ inner) 5 =
      UInt8.ofNat (vni * 256 / 65536) := rfl
  have h6 : Frame.byte ((marlinVxlanBuildVxlanHdr vni).bytes ++ inner) 6 =
      UInt8.ofNat (vni * 256 / 256) := rfl
  have hset : marlinVxlanFlagVni &&& marlinVxlanFlagVni ≠ 0 := by decide
  have hvalue : ((vni * 256 / 16777216 % 256) * 256 + vni * 256 / 65536 % 256) * 256 +
      vni * 256 / 256 % 256 = vni := by omega
  have hrest : ((marlinVxlanBuildVxlanHdr vni).bytes ++ inner).drop 8 = inner :=
    List.drop_left' rfl
  rw [hflags, if_pos hset, h4, h5, h6, UInt8.toNat_ofNat', UInt8.toNat_ofNat',
    UInt8.toNat_ofNat', hvalue, hrest]

theorem Announces.vxlanEmitted (hready : EncapReady frame mctx vip)
    (hvalid : marlinEncapValidate mctx marlinOverheadVxlan = .ok)
    (hfits : LengthFits frame mctx marlinOverheadVxlan)
    (hout : Announces out
      ((marlinVxlanBuildOuterIpv4 mctx (mctx.pktLen - ethHlen)).bytes ++
        ((marlinVxlanBuildOuterUdp mctx (marlinEntropySport mctx.tuple)
          (mctx.pktLen - ethHlen)).bytes ++
          ((marlinVxlanBuildVxlanHdr mctx.backend.vni).bytes ++
            (mctx.backend.innerMac.bytes ++ ((frame.mac 0).bytes ++ frame.drop 12)))))) :
    VxlanEmitted mctx vip frame out := by
  obtain ⟨hlong, hfits⟩ := hready.fits hvalid hfits
  have hinner : ((marlinVxlanBuildVxlanHdr mctx.backend.vni).bytes ++
      (mctx.backend.innerMac.bytes ++ ((frame.mac 0).bytes ++ frame.drop 12))).length =
      8 + ethHlen + (mctx.pktLen - ethHlen) := by
    have hfront : (marlinVxlanBuildVxlanHdr mctx.backend.vni).bytes.length = 8 := rfl
    simp only [List.length_append, Mac.length_bytes, List.length_drop, hready.length, hfront,
      ethHlen] at hlong ⊢
    omega
  have hbody : marlinOverheadVxlan + (mctx.pktLen - ethHlen) =
      20 + (8 + ((marlinVxlanBuildVxlanHdr mctx.backend.vni).bytes ++
        (mctx.backend.innerMac.bytes ++ ((frame.mac 0).bytes ++ frame.drop 12))).length) := by
    rw [hinner, marlinOverheadVxlan, ethHlen]
    omega
  obtain ⟨hudp, htunnelled⟩ := decapUdp_of_behind hfits hbody (by rw [hinner]; omega) hout
  refine ⟨tunnelled_of_behind hready hlong ?_ hfits hout, htunnelled, ?_⟩
  · rw [List.length_append, hbody]
    rfl
  · rw [decapVxlan, hudp, Option.bind_some]
    exact decapVxlan_data hready.vni _

end Units

/-! ## The next hop touches the addresses only -/

section NextHop

variable {frame : Frame} {ip : List UInt8}

theorem Announces.splice_mac (h : Announces frame ip) (mac : Mac) {off : Nat}
    (hoff : off + 6 ≤ 12) : Announces (splice frame off mac.bytes) ip := by
  obtain ⟨macs, hmacs, rfl⟩ := h
  have hroom : off + mac.bytes.length ≤ macs.length := by
    rw [Mac.length_bytes, hmacs]
    exact hoff
  exact ⟨splice macs off mac.bytes, (length_splice hroom).trans hmacs, splice_append hroom⟩

theorem Announces.setEthSource (h : Announces frame ip) (mac : Mac) :
    Announces (setEthSource frame mac) ip :=
  h.splice_mac mac (by decide)

theorem Announces.setEthDest (h : Announces frame ip) (mac : Mac) :
    Announces (setEthDest frame mac) ip :=
  h.splice_mac mac (by decide)

variable {host : Host} {maps : Maps} {mctx : MarlinCtx} {counters : Counters}

theorem marlinNexthopFib_announces (h : Announces frame ip) :
    Announces (marlinNexthopFib host maps frame mctx .encap counters).frame ip := by
  simp only [marlinNexthopFib]
  repeat' split
  all_goals first
    | exact h
    | exact (h.setEthSource _).setEthDest _

theorem marlinNexthopEncapsulate_announces (h : Announces frame ip) :
    Announces (marlinNexthopEncapsulate host maps frame mctx counters).frame ip := by
  simp only [marlinNexthopEncapsulate]
  split
  · exact h
  split
  · exact marlinNexthopFib_announces h
  split
  · exact h
  · exact (h.setEthDest _).setEthSource _

end NextHop

/-! ## The whole way out -/

def modeOverhead (mode : UInt8) : Nat :=
  if mode = marlinModeIpip then marlinOverheadIpip
  else if mode = marlinModeGue then marlinOverheadGue
  else marlinOverheadVxlan

def MarlinRet.Forwards (rc : MarlinRet) : Prop := rc = .okTx ∨ rc = .okRedirect

structure Emitted (mctx : MarlinCtx) (vip : VipMeta) (frame out : Frame) : Prop where
  ipip : encapMode mctx.backend.flags = marlinModeIpip → IpipEmitted mctx vip frame out
  gue : encapMode mctx.backend.flags = marlinModeGue → GueEmitted mctx vip frame out
  vxlan : encapMode mctx.backend.flags = marlinModeVxlan → VxlanEmitted mctx vip frame out

theorem marlinLbEncapPacket_emitted {host : Host} {maps : Maps} {frame out : Frame}
    {mctx mctx' : MarlinCtx} {vip : VipMeta} {counters : Counters}
    (hready : EncapReady frame mctx vip)
    (hfits : LengthFits frame mctx (modeOverhead (encapMode mctx.backend.flags)))
    (h : marlinLbEncapPacket host frame mctx = (.ok, out, mctx')) :
    Emitted mctx vip frame (marlinNexthopEncapsulate host maps out mctx' counters).frame := by
  have hgue : marlinModeGue ≠ marlinModeIpip := by decide
  have hvxlan : marlinModeVxlan ≠ marlinModeIpip := by decide
  have hvxlan' : marlinModeVxlan ≠ marlinModeGue := by decide
  refine ⟨fun hmode => ?_, fun hmode => ?_, fun hmode => ?_⟩
  · simp only [marlinLbEncapPacket, hmode, if_true] at h
    simp only [hmode, modeOverhead, if_true] at hfits
    obtain ⟨hvalid, -, hout⟩ := marlinIpipEncapPacket_ok h
    exact (marlinNexthopEncapsulate_announces hout).ipipEmitted hready hvalid hfits
  · simp only [marlinLbEncapPacket, hmode, hgue, if_false, if_true] at h
    simp only [hmode, modeOverhead, hgue, if_false, if_true] at hfits
    obtain ⟨hvalid, -, hout⟩ := marlinGueEncapPacket_ok h
    exact (marlinNexthopEncapsulate_announces hout).gueEmitted hready hvalid hfits
  · simp only [marlinLbEncapPacket, hmode, hvxlan, hvxlan', if_false, if_true] at h
    simp only [hmode, modeOverhead, hvxlan, hvxlan', if_false] at hfits
    obtain ⟨hvalid, -, hout⟩ := marlinVxlanEncapPacket_ok h
    exact (marlinNexthopEncapsulate_announces hout).vxlanEmitted hready hvalid hfits

/--
For each unit on its own, and for encapsulation followed by the next hop whenever
that forwards, a receiver that strips the outer headers obtains what arrived.
-/
theorem encapsulation_recovered (host : Host) (maps : Maps) (counters : Counters)
    {frame : Frame} {mctx : MarlinCtx} {vip : VipMeta} (hready : EncapReady frame mctx vip) :
    (∀ out mctx', marlinIpipEncapPacket host frame mctx = (.ok, out, mctx') →
        LengthFits frame mctx marlinOverheadIpip → IpipEmitted mctx vip frame out) ∧
      (∀ out mctx', marlinGueEncapPacket host frame mctx = (.ok, out, mctx') →
        LengthFits frame mctx marlinOverheadGue → GueEmitted mctx vip frame out) ∧
      (∀ out mctx', marlinVxlanEncapPacket host frame mctx = (.ok, out, mctx') →
        LengthFits frame mctx marlinOverheadVxlan → VxlanEmitted mctx vip frame out) ∧
      ∀ out mctx', marlinLbEncapPacket host frame mctx = (.ok, out, mctx') →
        LengthFits frame mctx (modeOverhead (encapMode mctx.backend.flags)) →
        (marlinNexthopEncapsulate host maps out mctx' counters).rc.Forwards →
        Emitted mctx vip frame
          (marlinNexthopEncapsulate host maps out mctx' counters).frame := by
  refine ⟨?_, ?_, ?_, ?_⟩
  · intro out mctx' h hfits
    obtain ⟨hvalid, -, hout⟩ := marlinIpipEncapPacket_ok h
    exact hout.ipipEmitted hready hvalid hfits
  · intro out mctx' h hfits
    obtain ⟨hvalid, -, hout⟩ := marlinGueEncapPacket_ok h
    exact hout.gueEmitted hready hvalid hfits
  · intro out mctx' h hfits
    obtain ⟨hvalid, -, hout⟩ := marlinVxlanEncapPacket_ok h
    exact hout.vxlanEmitted hready hvalid hfits
  · intro out mctx' h hfits _
    exact marlinLbEncapPacket_emitted hready hfits h

/-! ### A frame sent to 10.0.0.5 over IPIP -/

namespace SampleTunnel

def frame : Frame :=
  [2, 0, 0, 0, 0, 1, 2, 0, 0, 0, 0, 2, 8, 0, 0x45, 4, 0, 21, 0, 0, 0, 0, 64, 6, 0, 0,
    10, 0, 0, 1, 192, 0, 2, 1, 7]

def vip : VipMeta := ⟨0, 0x2e0000, Vector.replicate 16 0⟩

def mctx : MarlinCtx :=
  { (0 : MarlinCtx) with
    tuple := { (0 : PacketTuple) with family := afInet }
    backend := { (0 : Backend) with addr := ⟨10, 0, 0, 5⟩, flags := 0x41, id := 5 }
    flags := 0x2e0000
    pktLen := 35 }

theorem ready : EncapReady frame mctx vip :=
  ⟨by decide, by decide, by decide, by decide⟩

end SampleTunnel

theorem encapsulation_recovered_ipip :
    Emitted SampleTunnel.mctx SampleTunnel.vip SampleTunnel.frame
      (marlinNexthopEncapsulate Sample.host Maps.fresh
        (marlinLbEncapPacket Sample.host SampleTunnel.frame SampleTunnel.mctx).2.1
        (marlinLbEncapPacket Sample.host SampleTunnel.frame SampleTunnel.mctx).2.2
        Sample.counters).frame :=
  (encapsulation_recovered Sample.host Maps.fresh Sample.counters
    SampleTunnel.ready).2.2.2 _ _ (Prod.ext (by decide) rfl) (.inr (by decide))
    (.inl (by decide))

/-! ## What the core has established by then -/

theorem marlinParse_dscp {frame : Frame} {cfg : MarlinConfig}
    (h : (marlinParse frame (MarlinCtx.start cfg)).1 = .ok) :
    (marlinParse frame (MarlinCtx.start cfg)).2.flags &&& marlinCtxDscpMask = 0 := by
  obtain ⟨family, l3, -, hl3, hparse⟩ := marlinParse_ok h
  have hfrag : marlinCtxFFragAny &&& marlinCtxDscpMask = 0 := by decide
  have hflags := marlinParseL3_and hfrag hl3
  have hicmp : marlinCtxFIcmp &&& marlinCtxDscpMask = 0 := by decide
  rw [hparse] at h ⊢
  obtain ⟨-, -, hparsed⟩ := marlinParseL4_ok h
  generalize (marlinParseL4 frame family l3 _).2 = parsed at hparsed ⊢
  cases hparsed with
  | tail => simpa [MarlinCtx.withL3] using hflags
  | icmp _ _ hparse =>
      obtain ⟨emb, -, rfl⟩ := marlinParseIcmp_ok hparse
      simp [MarlinCtx.quoting, MarlinCtx.withL3, flags_or_and, hflags, hicmp]
  | @ports quic _ _ _ _ hquic =>
      have hquic : quic &&& marlinCtxDscpMask = 0 := by
        rcases hquic with rfl | rfl <;> decide
      simp [MarlinCtx.withPorts, MarlinCtx.withL3, flags_or_and, hflags, hquic]

theorem marlinEncapValidate_not_forwards (mctx : MarlinCtx) (overhead : Nat) :
    ¬(marlinEncapValidate mctx overhead).Forwards := by
  simp only [marlinEncapValidate, marlinFrameFits]
  repeat' split
  all_goals simp [MarlinRet.Forwards]

theorem marlinLbEncapPacket_not_forwards (host : Host) (frame : Frame) (pkt : MarlinCtx) :
    ¬(marlinLbEncapPacket host frame pkt).1.Forwards := by
  simp only [marlinLbEncapPacket]
  split
  · simp only [marlinIpipEncapPacket]
    split
    · exact marlinEncapValidate_not_forwards _ _
    · repeat' split
      all_goals simp [MarlinRet.Forwards]
  split
  · simp only [marlinGueEncapPacket]
    split
    · exact marlinEncapValidate_not_forwards _ _
    · repeat' split
      all_goals simp [MarlinRet.Forwards]
  split
  · simp only [marlinVxlanEncapPacket]
    split
    · exact marlinEncapValidate_not_forwards _ _
    · repeat' split
      all_goals simp [MarlinRet.Forwards]
  · simp [MarlinRet.Forwards]

theorem marlinLbValidate_not_forwards (pkt : MarlinCtx) (length : Nat) :
    ¬(marlinLbValidate pkt length).Forwards := by
  simp only [marlinLbValidate]
  repeat' split
  all_goals simp [MarlinRet.Forwards]

theorem marlinLbValidate_ok {pkt : MarlinCtx} {length : Nat}
    (h : marlinLbValidate pkt length = .ok) : pkt.pktLen = length := by
  simp only [marlinLbValidate] at h
  split at h
  · contradiction
  split at h
  · contradiction
  · rename_i hlen
    exact (not_not.mp hlen).symm

theorem marlinLbForward_emitted {host : Host} {maps : Maps} {vip : VipMeta} {x : Xdp}
    (hflags : x.pkt.flags &&& marlinCtxDscpMask = 0) (hmax : x.pkt.cfg.maxFrame < 65536)
    (hvni : x.pkt.backend.vni < 2 ^ 24)
    (hmode : encapMode x.pkt.backend.flags ≠ marlinModeL2dsr)
    (hfits : LengthFits x.frame x.pkt (modeOverhead (encapMode x.pkt.backend.flags)))
    (h : (marlinLbForward host maps vip x).1.Forwards) :
    Emitted { x.pkt with flags := x.pkt.flags ||| (vip.flags &&& vipDscpMask) } vip x.frame
      (marlinLbForward host maps vip x).2.frame := by
  have hmask : vipDscpMask &&& marlinCtxDscpMask = vipDscpMask := by decide
  simp only [marlinLbForward, hmode, ne_eq, not_false_eq_true, if_true] at h ⊢
  by_cases hvalid : marlinLbValidate x.pkt x.frame.length = .ok
  · have hready : EncapReady x.frame
        { x.pkt with flags := x.pkt.flags ||| (vip.flags &&& vipDscpMask) } vip := by
      refine ⟨marlinLbValidate_ok hvalid, hmax, hvni, ?_⟩
      rw [flags_or_and, hflags, UInt32.and_assoc, hmask, UInt32.zero_or]
    simp only [hvalid, not_true_eq_false, if_false] at h ⊢
    generalize hencap : marlinLbEncapPacket host x.frame _ = encap at h ⊢
    obtain ⟨rc, out, mctx'⟩ := encap
    simp only at h ⊢
    split at h
    · have hnot := marlinLbEncapPacket_not_forwards host x.frame
        { x.pkt with flags := x.pkt.flags ||| (vip.flags &&& vipDscpMask) }
      rw [hencap] at hnot
      exact absurd h hnot
    · rename_i hrc
      obtain rfl : rc = .ok := not_not.mp hrc
      exact marlinLbEncapPacket_emitted hready hfits hencap
  · simp only [hvalid, not_false_eq_true, if_true] at h
    exact absurd h (marlinLbValidate_not_forwards _ _)

end Marlin
