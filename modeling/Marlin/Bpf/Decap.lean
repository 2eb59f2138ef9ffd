import Marlin.Bpf.LbCore

/-!
# What the receiver of an encapsulated frame obtains

The receivers below read a frame as the RFCs define it: an IPv4 stack checks the
header and cuts the packet off at its total length, UDP cuts it off at its own, and
the tunnel ends strip the GUE or VXLAN header.  None of them knows how the frame was
made.
-/

namespace Marlin

open Marlin.Library

/-! ## Receivers -/

def beWords : List UInt8 → List Nat
  | hi :: lo :: rest => (hi.toNat * 256 + lo.toNat) :: beWords rest
  | [hi] => [hi.toNat * 256]
  | [] => []

def ipv4Version (ip : List UInt8) : Nat := (Frame.byte ip 0).toNat / 16
def ipv4HeaderLen (ip : List UInt8) : Nat := (Frame.byte ip 0).toNat % 16 * 4
def ipv4Tos (ip : List UInt8) : Nat := (Frame.byte ip 1).toNat
def ipv4TotLen (ip : List UInt8) : Nat := (Frame.be16 ip 2).toNat
def ipv4FragOff (ip : List UInt8) : Nat := (Frame.be16 ip 6).toNat
def ipv4Protocol (ip : List UInt8) : UInt8 := Frame.byte ip 9

def ipv4Verifies (ip : List UInt8) : Prop :=
  onesSum (beWords (ip.take (ipv4HeaderLen ip))) = 0xffff

instance (ip : List UInt8) : Decidable (ipv4Verifies ip) :=
  inferInstanceAs (Decidable (_ = _))

/-- The payload of an IPv4 packet that an IP stack accepts. -/
def receiveIpv4 (ip : List UInt8) : Option (List UInt8) :=
  if ipv4Version ip = 4 ∧ 20 ≤ ipv4HeaderLen ip ∧ ipv4HeaderLen ip ≤ ipv4TotLen ip ∧
      ipv4TotLen ip ≤ ip.length ∧ ipv4Verifies ip then
    some ((ip.take (ipv4TotLen ip)).drop (ipv4HeaderLen ip))
  else none

structure UdpDatagram where
  sport : Nat
  len : Nat
  data : List UInt8
  deriving DecidableEq, Repr

def receiveUdp (payload : List UInt8) : Option UdpDatagram :=
  let len := (Frame.be16 payload 4).toNat
  if 8 ≤ len ∧ len ≤ payload.length then
    some ⟨(Frame.be16 payload 0).toNat, len, (payload.take len).drop 8⟩
  else none

def decapIpip (ip : List UInt8) : Option (UInt8 × List UInt8) :=
  (receiveIpv4 ip).map fun inner => (ipv4Protocol ip, inner)

def decapUdp (ip : List UInt8) : Option UdpDatagram :=
  if ipv4Protocol ip = ipprotoUdp then (receiveIpv4 ip).bind receiveUdp else none

def decapGue (ip : List UInt8) : Option (UInt8 × List UInt8) :=
  (decapUdp ip).bind fun udp =>
    if (Frame.byte udp.data 0).toNat / 32 = 0 then
      some (Frame.byte udp.data 1,
        udp.data.drop (4 + (Frame.byte udp.data 0).toNat % 32 * 4))
    else none

def decapVxlan (ip : List UInt8) : Option (Nat × List UInt8) :=
  (decapUdp ip).bind fun udp =>
    if Frame.byte udp.data 0 &&& marlinVxlanFlagVni ≠ 0 then
      some (((Frame.byte udp.data 4).toNat * 256 + (Frame.byte udp.data 5).toNat) * 256 +
        (Frame.byte udp.data 6).toNat, udp.data.drop 8)
    else none

/-! ## The outer IPv4 header -/

theorem beWords_le (bytes : List UInt8) : ∀ w ∈ beWords bytes, w ≤ 0xffff := by
  induction bytes using beWords.induct with
  | case1 hi lo rest ih =>
      intro w hw
      have hhi := hi.toNat_lt
      have hlo := lo.toNat_lt
      rcases List.mem_cons.mp hw with rfl | hw
      · omega
      · exact ih w hw
  | case2 hi =>
      intro w hw
      have hhi := hi.toNat_lt
      rw [List.mem_singleton.mp hw]
      omega
  | case3 => simp [beWords]

/-- The words of the header without its check field, as the host adds them. -/
def hostSum (iph : Iphdr) : Nat :=
  let word := hostWord iph.bytes
  word 0 + word 1 + word 2 + word 3 + word 4 + word 6 + word 7 + word 8 + word 9

/-- Swapping the bytes of every word multiplies a sum by `256` modulo `65535`. -/
theorem sum_beWords (iph : Iphdr) :
    (beWords iph.bytes).sum % 65535 =
      (256 * (hostSum iph + (iph.check.b0.toNat + iph.check.b1.toNat * 256))) % 65535 := by
  simp only [Iphdr.bytes, Be16.bytes, Be32.bytes, List.cons_append, List.nil_append, beWords,
    List.sum_cons, List.sum_nil, hostSum, hostWord, List.getD_cons_succ, List.getD_cons_zero]
  simp
  omega

theorem hostSum_check (iph : Iphdr) (check : Be16) :
    hostSum { iph with check := check } = hostSum iph := by
  simp [hostSum, hostWord, Iphdr.bytes, Be16.bytes, Be32.bytes]

theorem sum_beWords_eq_zero (iph : Iphdr) :
    (beWords iph.bytes).sum = 0 ↔
      hostSum iph + (iph.check.b0.toNat + iph.check.b1.toNat * 256) = 0 := by
  simp only [Iphdr.bytes, Be16.bytes, Be32.bytes, List.cons_append, List.nil_append, beWords,
    List.sum_cons, List.sum_nil, hostSum, hostWord, List.getD_cons_succ, List.getD_cons_zero]
  simp
  omega

theorem hostSum_lt (iph : Iphdr) : hostSum iph < 2 ^ 32 := by
  have hbyte : ∀ i, (iph.bytes.getD i 0).toNat < 256 := fun i => UInt8.toNat_lt _
  have hword : ∀ i, hostWord iph.bytes i < 65536 := by
    intro i
    have h0 := hbyte (2 * i)
    have h1 := hbyte (2 * i + 1)
    rw [hostWord]
    omega
  simp only [hostSum]
  have := hword 0; have := hword 1; have := hword 2; have := hword 3; have := hword 4
  have := hword 6; have := hword 7; have := hword 8; have := hword 9
  omega

theorem marlinIpv4Csum_native (iph : Iphdr) :
    (marlinIpv4Csum iph).b0.toNat + (marlinIpv4Csum iph).b1.toNat * 256 =
      65535 - carryFold (carryFold (hostSum iph)) := by
  have hfold := carryFold_carryFold_lt (hostSum_lt iph)
  have hb0 : (marlinIpv4Csum iph).b0.toNat =
      (0xffffffff - carryFold (carryFold (hostSum iph))) % 65536 % 256 := by
    simp [marlinIpv4Csum, hostSum]
  have hb1 : (marlinIpv4Csum iph).b1.toNat =
      (0xffffffff - carryFold (carryFold (hostSum iph))) % 65536 / 256 % 256 := by
    simp [marlinIpv4Csum, hostSum]
  rw [hb0, hb1]
  omega

theorem onesSum_marlinIpv4Csum (iph : Iphdr) :
    onesSum (beWords { iph with check := marlinIpv4Csum iph }.bytes) = 0xffff := by
  have hnative := marlinIpv4Csum_native iph
  have hfold := carryFold_carryFold (hostSum_lt iph)
  apply onesSum_eq_ffff (beWords_le _)
  · rw [Nat.pos_iff_ne_zero, ne_eq, sum_beWords_eq_zero, hostSum_check]
    change ¬hostSum iph + ((marlinIpv4Csum iph).b0.toNat + (marlinIpv4Csum iph).b1.toNat * 256) = 0
    rw [hnative, hfold]
    split <;> omega
  · rw [sum_beWords, hostSum_check]
    change 256 * (hostSum iph +
      ((marlinIpv4Csum iph).b0.toNat + (marlinIpv4Csum iph).b1.toNat * 256)) % 65535 = 0
    rw [hnative, hfold]
    split <;> omega

theorem Iphdr.length_bytes (iph : Iphdr) : iph.bytes.length = 20 := rfl

/-- What an IPv4 stack makes of a packet behind the header `iph`. -/
structure Behind (iph : Iphdr) (body ip : List UInt8) : Prop where
  received : receiveIpv4 ip = some body
  verifies : ipv4Verifies ip
  protocol : ipv4Protocol ip = iph.protocol
  totLen : ipv4TotLen ip = ip.length
  length : ip.length = 20 + body.length
  fragOff : ipv4FragOff ip = iph.fragOff.toNat
  tos : ipv4Tos ip = iph.tos.toNat

theorem behind_append {iph : Iphdr} {body : List UInt8} (hversion : iph.version = 4)
    (hihl : iph.ihl = 5) (hsum : onesSum (beWords iph.bytes) = 0xffff)
    (htotLen : iph.totLen.toNat = 20 + body.length) : Behind iph body (iph.bytes ++ body) := by
  have hfirst : Frame.byte (iph.bytes ++ body) 0 = 69 := by
    change UInt8.ofNat (iph.version * 16 + iph.ihl) = 69
    rw [hversion, hihl]
    rfl
  have hheader : ipv4HeaderLen (iph.bytes ++ body) = 20 := by
    rw [ipv4HeaderLen, hfirst]
    rfl
  have hlength : (iph.bytes ++ body).length = 20 + body.length := by
    rw [List.length_append, iph.length_bytes]
  have htot : ipv4TotLen (iph.bytes ++ body) = 20 + body.length := htotLen
  have hverifies : ipv4Verifies (iph.bytes ++ body) := by
    rw [ipv4Verifies, hheader, List.take_left' iph.length_bytes]
    exact hsum
  refine ⟨?_, hverifies, rfl, htot.trans hlength.symm, hlength, rfl, rfl⟩
  have hversion : ipv4Version (iph.bytes ++ body) = 4 := by
    rw [ipv4Version, hfirst]
    rfl
  rw [receiveIpv4, if_pos ⟨hversion, by omega, by omega, by omega, hverifies⟩, htot,
    hheader, ← hlength, List.take_length, List.drop_left' iph.length_bytes]

theorem marlinCtxDscp_lt (flags : UInt32) : marlinCtxDscp flags < 64 := by
  have hle : (flags &&& marlinCtxDscpMask).toNat ≤ marlinCtxDscpMask.toNat := by
    rw [UInt32.toNat_and]
    exact Nat.and_le_right
  have hmask : marlinCtxDscpMask.toNat = 0x3f0000 := rfl
  rw [hmask] at hle
  simp only [marlinCtxDscp, UInt32.toNat_shiftRight, Nat.shiftRight_eq_div_pow]
  have hshift : UInt32.toNat 16 % 32 = 16 := rfl
  rw [hshift]
  omega

theorem marlinOuterTos_toNat (mctx : MarlinCtx) :
    (marlinOuterTos mctx).toNat = marlinCtxDscp mctx.flags * 4 := by
  have hdscp := marlinCtxDscp_lt mctx.flags
  rw [marlinOuterTos, UInt8.toNat_ofNat']
  omega

/-- The outer header of every unit, in front of what its lengths announce. -/
theorem behind_marlinBuildOuterIpv4 (mctx : MarlinCtx) (proto : UInt8)
    {overhead innerLen : Nat} {body : List UInt8}
    (hlen : overhead + innerLen = 20 + body.length) (hfits : overhead + innerLen < 65536) :
    Behind (marlinBuildOuterIpv4 mctx proto overhead innerLen) body
      ((marlinBuildOuterIpv4 mctx proto overhead innerLen).bytes ++ body) := by
  apply behind_append
  · rfl
  · rfl
  · exact onesSum_marlinIpv4Csum (marlinOuterIpv4Unsummed mctx proto overhead innerLen)
  · change (Be16.ofNat (overhead + innerLen)).toNat = 20 + body.length
    rw [Be16.toNat_ofNat, Nat.mod_eq_of_lt hfits, hlen]

/-! ## The outer UDP header -/

theorem receiveUdp_marlinBuildOuterUdp (mctx : MarlinCtx) (sport : Be16)
    (dportDefault : Nat) {len : Nat} {data : List UInt8} (hlen : len = 8 + data.length)
    (hfits : len < 65536) :
    receiveUdp ((marlinBuildOuterUdp mctx sport dportDefault len).bytes ++ data) =
      some ⟨sport.toNat, len, data⟩ := by
  have hfield : (Frame.be16 ((marlinBuildOuterUdp mctx sport dportDefault len).bytes ++ data)
      4).toNat = len := by
    have hbytes : Frame.be16
        ((marlinBuildOuterUdp mctx sport dportDefault len).bytes ++ data) 4 =
        Be16.ofNat len := rfl
    rw [hbytes, Be16.toNat_ofNat, Nat.mod_eq_of_lt hfits]
  have hlength : ((marlinBuildOuterUdp mctx sport dportDefault len).bytes ++ data).length =
      len := by
    rw [List.length_append, hlen]
    rfl
  simp only [receiveUdp, hfield]
  rw [if_pos ⟨by omega, by omega⟩]
  have htake : ((marlinBuildOuterUdp mctx sport dportDefault len).bytes ++ data).take len =
      (marlinBuildOuterUdp mctx sport dportDefault len).bytes ++ data := by
    rw [List.take_of_length_le (Nat.le_of_eq hlength)]
  rw [htake]
  rfl

theorem marlinEntropySport_range (tuple : PacketTuple) :
    49152 ≤ (marlinEntropySport tuple).toNat ∧ (marlinEntropySport tuple).toNat ≤ 65535 := by
  simp only [marlinEntropySport, Be16.toNat_ofNat, marlinEntropySportMin,
    marlinEntropySportRange]
  omega

/-! ## What each unit emits -/

def Announces (frame : Frame) (ip : List UInt8) : Prop :=
  ∃ macs : List UInt8, macs.length = 12 ∧ frame = macs ++ (ethPIp.bytes ++ ip)

theorem Announces.drop {frame : Frame} {ip : List UInt8} (h : Announces frame ip) :
    frame.drop 14 = ip ∧ frame.length = 14 + ip.length := by
  obtain ⟨macs, hmacs, rfl⟩ := h
  have hfront : (macs ++ ethPIp.bytes).length = 14 := by
    rw [List.length_append, hmacs]
    rfl
  constructor
  · rw [← List.append_assoc, List.drop_left' hfront]
  · rw [← List.append_assoc, List.length_append, hfront]

theorem Host.adjustHead_some {host : Host} {count : Nat} {frame data : Frame}
    (h : host.adjustHead count frame = some data) :
    data.length = count + frame.length ∧ ∀ k, data.drop (count + k) = frame.drop k := by
  simp only [Host.adjustHead] at h
  split at h
  · contradiction
  · obtain rfl := Option.some.inj h
    have hroom : ((List.range count).map host.headroom).length = count := by simp
    refine ⟨by rw [List.length_append, hroom], fun k => ?_⟩
    rw [← List.drop_drop, List.drop_left' hroom]

theorem Mac.length_bytes (mac : Mac) : mac.bytes.length = 6 := rfl

theorem announces_splice (data : Frame) {macs : List UInt8} (headers : List UInt8)
    (hmacs : macs.length = 12) :
    Announces (splice data 0 (macs ++ (ethPIp.bytes ++ headers)))
      (headers ++ data.drop (14 + headers.length)) := by
  refine ⟨macs, hmacs, ?_⟩
  have hether : ethPIp.bytes.length = 2 := rfl
  rw [splice_zero, List.length_append, List.length_append, hmacs, hether, ← Nat.add_assoc]
  simp only [List.append_assoc]

section Units

variable {host : Host} {frame out : Frame} {mctx mctx' : MarlinCtx}

theorem marlinIpipWriteOuter_announces (mctx : MarlinCtx) {data : Frame} (innerLen : Nat)
    (hroom : 34 ≤ data.length) :
    Announces (marlinIpipWriteOuter mctx data innerLen)
      ((marlinIpipBuildOuterIpv4 mctx innerLen).bytes ++ data.drop 34) := by
  have hpieces : marlinIpipWriteOuter mctx data innerLen =
      spliceAll data 0
        [(data.mac 20).bytes ++ (data.mac 26).bytes ++ ethPIp.bytes,
          (marlinIpipBuildOuterIpv4 mctx innerLen).bytes] := rfl
  rw [hpieces, spliceAll_eq hroom]
  simp only [List.flatten_cons, List.flatten_nil, List.append_nil]
  rw [List.append_assoc]
  exact announces_splice data (marlinIpipBuildOuterIpv4 mctx innerLen).bytes rfl

theorem marlinGueWriteOuter_announces (mctx : MarlinCtx) {data : Frame} (sport : Be16)
    (innerLen : Nat) (hroom : 46 ≤ data.length) :
    Announces
      (marlinGueWriteOuterL4 mctx (marlinGueWriteOuterL3 mctx data innerLen) sport innerLen)
      ((marlinGueBuildOuterIpv4 mctx innerLen).bytes ++
        ((marlinGueBuildOuterUdp mctx sport innerLen).bytes ++
          ((marlinGueBuildGueHdr mctx).bytes ++ data.drop 46))) := by
  have hpieces :
      marlinGueWriteOuterL4 mctx (marlinGueWriteOuterL3 mctx data innerLen) sport innerLen =
        spliceAll data 0
          [(data.mac 32).bytes ++ (data.mac 38).bytes ++ ethPIp.bytes,
            (marlinGueBuildOuterIpv4 mctx innerLen).bytes,
            (marlinGueBuildOuterUdp mctx sport innerLen).bytes,
            (marlinGueBuildGueHdr mctx).bytes] := rfl
  have hemitted := announces_splice data
    ((marlinGueBuildOuterIpv4 mctx innerLen).bytes ++
      ((marlinGueBuildOuterUdp mctx sport innerLen).bytes ++
        (marlinGueBuildGueHdr mctx).bytes))
    (show ((data.mac 32).bytes ++ (data.mac 38).bytes).length = 12 from rfl)
  have hheaders : ((marlinGueBuildOuterIpv4 mctx innerLen).bytes ++
      ((marlinGueBuildOuterUdp mctx sport innerLen).bytes ++
        (marlinGueBuildGueHdr mctx).bytes)).length = 32 := rfl
  rw [hheaders] at hemitted
  rw [hpieces, spliceAll_eq hroom]
  simpa only [List.flatten_cons, List.flatten_nil, List.append_nil, List.append_assoc]
    using hemitted

theorem marlinVxlanWriteOuter_announces (mctx : MarlinCtx) {data : Frame} (dst src : Mac)
    (sport : Be16) (innerLen : Nat) (hroom : 50 ≤ data.length) :
    Announces (marlinVxlanWriteOuter mctx data dst src sport innerLen)
      ((marlinVxlanBuildOuterIpv4 mctx innerLen).bytes ++
        ((marlinVxlanBuildOuterUdp mctx sport innerLen).bytes ++
          ((marlinVxlanBuildVxlanHdr mctx.backend.vni).bytes ++ data.drop 50))) := by
  have hpieces : marlinVxlanWriteOuter mctx data dst src sport innerLen =
      spliceAll data 0
        [src.bytes, dst.bytes, ethPIp.bytes, (marlinVxlanBuildOuterIpv4 mctx innerLen).bytes,
          (marlinVxlanBuildOuterUdp mctx sport innerLen).bytes,
          (marlinVxlanBuildVxlanHdr mctx.backend.vni).bytes] := rfl
  have hemitted := announces_splice data
    ((marlinVxlanBuildOuterIpv4 mctx innerLen).bytes ++
      ((marlinVxlanBuildOuterUdp mctx sport innerLen).bytes ++
        (marlinVxlanBuildVxlanHdr mctx.backend.vni).bytes))
    (show (src.bytes ++ dst.bytes).length = 12 from rfl)
  have hheaders : ((marlinVxlanBuildOuterIpv4 mctx innerLen).bytes ++
      ((marlinVxlanBuildOuterUdp mctx sport innerLen).bytes ++
        (marlinVxlanBuildVxlanHdr mctx.backend.vni).bytes)).length = 36 := rfl
  rw [hheaders] at hemitted
  rw [hpieces, spliceAll_eq hroom]
  simpa only [List.flatten_cons, List.flatten_nil, List.append_nil, List.append_assoc]
    using hemitted

theorem marlinVxlanFixupInnerEth_drop (mctx : MarlinCtx) {data : Frame} (dst : Mac)
    (hroom : 64 ≤ data.length) :
    (marlinVxlanFixupInnerEth mctx data dst).drop 50 =
      mctx.backend.innerMac.bytes ++ (dst.bytes ++ data.drop 62) := by
  have hpieces : marlinVxlanFixupInnerEth mctx data dst =
      spliceAll data 50 [mctx.backend.innerMac.bytes, dst.bytes] := rfl
  have hinner : [mctx.backend.innerMac.bytes, dst.bytes].flatten.length = 12 := rfl
  rw [hpieces, spliceAll_eq (by rw [hinner]; omega), drop_splice_self (by omega), hinner]
  simp only [List.flatten_cons, List.flatten_nil, List.append_nil, List.append_assoc]

theorem marlinVxlanFixupInnerEth_length (mctx : MarlinCtx) {data : Frame} (dst : Mac)
    (hroom : 64 ≤ data.length) :
    (marlinVxlanFixupInnerEth mctx data dst).length = data.length := by
  have hpieces : marlinVxlanFixupInnerEth mctx data dst =
      spliceAll data 50 [mctx.backend.innerMac.bytes, dst.bytes] := rfl
  have hinner : [mctx.backend.innerMac.bytes, dst.bytes].flatten.length = 12 := rfl
  rw [hpieces, spliceAll_eq (by rw [hinner]; omega), length_splice (by rw [hinner]; omega)]

end Units

end Marlin
