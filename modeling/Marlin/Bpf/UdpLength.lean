import Marlin.Bpf.QuicCid

/-!
# What lies beyond a datagram

The length field of an unfragmented UDP packet bounds what the parser and the
connection-ID decoder look at: two frames of one length that agree up to the
declared end of the datagram go the same way.
-/

namespace Marlin

/-! ## Frames with a common front -/

/-- Frames of one length, with the same bytes below `bound`. -/
structure AgreeBelow (bound : Nat) (frame frame' : Frame) : Prop where
  length : frame'.length = frame.length
  byte : ∀ i < bound, frame'.byte i = frame.byte i

section Front

variable {bound : Nat} {frame frame' : Frame}

theorem AgreeBelow.mono (h : AgreeBelow bound frame frame') {bound' : Nat}
    (hle : bound' ≤ bound) : AgreeBelow bound' frame frame' :=
  ⟨h.length, fun i hi => h.byte i (Nat.lt_of_lt_of_le hi hle)⟩

theorem agreeBelow_append (front rest rest' : List UInt8) (hlength : rest'.length = rest.length)
    (hbound : bound ≤ front.length) : AgreeBelow bound (front ++ rest) (front ++ rest') := by
  constructor
  · rw [List.length_append, List.length_append, hlength]
  · intro i hi
    have hfront : i < front.length := by omega
    unfold Frame.byte
    rw [List.getD_append _ _ _ _ hfront, List.getD_append _ _ _ _ hfront]

theorem AgreeBelow.be16 (h : AgreeBelow bound frame frame') (off : Nat)
    (hoff : off + 2 ≤ bound) : frame'.be16 off = frame.be16 off := by
  unfold Frame.be16
  rw [h.byte off (by omega), h.byte (off + 1) (by omega)]

theorem AgreeBelow.be32 (h : AgreeBelow bound frame frame') (off : Nat)
    (hoff : off + 4 ≤ bound) : frame'.be32 off = frame.be32 off := by
  unfold Frame.be32
  rw [h.byte off (by omega), h.byte (off + 1) (by omega), h.byte (off + 2) (by omega),
    h.byte (off + 3) (by omega)]

theorem AgreeBelow.addr (h : AgreeBelow bound frame frame') (off : Nat)
    (hoff : off + 16 ≤ bound) : frame'.addr off = frame.addr off := by
  unfold Frame.addr
  rw [h.be32 off (by omega), h.be32 (off + 4) (by omega),
    h.be32 (off + 8) (by omega), h.be32 (off + 12) (by omega)]

theorem AgreeBelow.loadBytes (h : AgreeBelow bound frame frame') (host : Host)
    (pos len : Nat) (hend : pos + len ≤ bound) :
    host.loadBytes frame' pos len = host.loadBytes frame pos len := by
  have hbytes : (List.range len).map (fun i => frame'.byte (pos + i)) =
      (List.range len).map (fun i => frame.byte (pos + i)) := by
    apply List.map_congr_left
    intro i hi
    have hlt := List.mem_range.mp hi
    exact h.byte (pos + i) (by omega)
  unfold Host.loadBytes
  rw [h.length, hbytes]

end Front

/-! ## The network header -/

section Network

variable {frame frame' : Frame} {l3Off l4Off : Nat} {family proto : UInt8} {src dst : Addr}

theorem AgreeBelow.walkExt6Loop {off off' : Nat} {nexthdr : UInt8} {frags : List Be16}
    (hpath : Ext6Path frame off nexthdr frags off' proto)
    (hupper : marlinIsExt6 proto = false) (h : AgreeBelow off' frame frame')
    (maxExt n i : Nat) (out : MarlinL3) :
    marlinWalkExt6Loop frame' maxExt n i off nexthdr out =
      marlinWalkExt6Loop frame maxExt n i off nexthdr out := by
  induction hpath generalizing n i out with
  | refl off nexthdr =>
      cases n with
      | zero => rfl
      | succ n => simp only [marlinWalkExt6Loop, hupper, Bool.not_false, if_true]
  | @options off _ _ _ _ hnext hpath ih =>
      have hle := hpath.le
      cases n with
      | zero => rfl
      | succ n =>
          have hrest := ih hupper h n (i + 1) out
          rw [marlinWalkExt6Loop_options_eq hnext, marlinWalkExt6Loop_options_eq hnext, h.length,
            h.byte off (by omega), h.byte (off + 1) (by omega), hrest]
  | @fragment off _ _ _ hpath ih =>
      have hle := hpath.le
      cases n with
      | zero => rfl
      | succ n =>
          have hfrag : marlinWalkFrag6 frame' off out = marlinWalkFrag6 frame off out := by
            unfold marlinWalkFrag6
            rw [h.be16 (off + 2) (by omega), h.byte off (by omega)]
          have hrest := ih hupper h n (i + 1) (marlinWalkFrag6 frame off out)
          rw [marlinWalkExt6Loop_fragment_eq, marlinWalkExt6Loop_fragment_eq, h.length,
            h.byte off (by omega), hfrag, hrest]

theorem AgreeBelow.parseL3 {frags : List FragField}
    (hpacket : IpPacket frame l3Off family src dst proto l4Off frags)
    (h : AgreeBelow l4Off frame frame') (maxExt : Nat) :
    marlinParseL3 frame' l3Off family maxExt = marlinParseL3 frame l3Off family maxExt := by
  cases hpacket with
  | v4 hihl =>
      have hihl' : ipv4Ihl frame' l3Off = ipv4Ihl frame l3Off := by
        unfold ipv4Ihl
        rw [h.byte l3Off (by omega)]
      unfold marlinParseL3
      rw [h.length, hihl', h.be32 (l3Off + 12) (by omega),
        h.be32 (l3Off + 16) (by omega), h.be16 (l3Off + 6) (by omega),
        h.byte (l3Off + 9) (by omega)]
      rfl
  | v6 hpath hupper =>
      have hle := hpath.le
      have hwalk := h.walkExt6Loop hpath hupper maxExt
      unfold marlinParseL3 marlinWalkExt6
      rw [h.length, h.byte (l3Off + 6) (by omega), h.addr (l3Off + 8) (by omega),
        h.addr (l3Off + 24) (by omega), hwalk]
      rfl

end Network

/-! ## UDP packets -/

def UdpPacket (frame : Frame) (l4Off : Nat) : Prop :=
  ∃ family src dst frags, marlinEthFamily frame = some family ∧
    IpPacket frame ethHlen family src dst ipprotoUdp l4Off frags ∧ ∀ f ∈ frags, f.Whole

/-- Where the datagram at `l4Off` ends by its length field, its header included. -/
def udpEnd (frame : Frame) (l4Off : Nat) : Nat :=
  l4Off + max marlinUdpHlen (frame.be16 (l4Off + 4)).toNat

section Parse

variable {frame frame' : Frame} {l4Off : Nat}

theorem AgreeBelow.parseQuic (h : AgreeBelow (udpEnd frame l4Off) frame frame')
    (mctx : MarlinCtx) : marlinParseQuic frame' l4Off mctx = marlinParseQuic frame l4Off mctx := by
  unfold udpEnd marlinUdpHlen at h
  unfold marlinParseQuic
  rw [h.length, h.be16 (l4Off + 4) (by omega)]
  by_cases hpayload : 8 < (frame.be16 (l4Off + 4)).toNat
  · rw [h.byte (l4Off + 8) (by omega)]
  · -- a datagram without payload has no first byte to look at
    have hempty : (frame.be16 (l4Off + 4)).toNat - marlinUdpHlen = 0 := by
      unfold marlinUdpHlen
      omega
    simp [hempty]

theorem AgreeBelow.parsePorts (h : AgreeBelow (udpEnd frame l4Off) frame frame')
    (proto : UInt8) : marlinParsePorts frame' l4Off proto = marlinParsePorts frame l4Off proto := by
  unfold udpEnd marlinUdpHlen at h
  unfold marlinParsePorts
  rw [h.length, h.be16 l4Off (by omega), h.be16 (l4Off + 2) (by omega)]

theorem marlinProtoIsIcmp_udp (family : UInt8) : marlinProtoIsIcmp family ipprotoUdp = false := by
  unfold marlinProtoIsIcmp
  rw [show (ipprotoUdp == ipprotoIcmp) = false from rfl,
    show (ipprotoUdp == ipprotoIcmpv6) = false from rfl, Bool.and_false, Bool.and_false]
  rfl

theorem AgreeBelow.parseL4 (h : AgreeBelow (udpEnd frame l4Off) frame frame')
    (family : UInt8) (src dst : Addr) (mctx : MarlinCtx) :
    marlinParseL4 frame' family ⟨src, dst, l4Off, 0, ipprotoUdp, false⟩ mctx =
      marlinParseL4 frame family ⟨src, dst, l4Off, 0, ipprotoUdp, false⟩ mctx := by
  unfold marlinParseL4
  simp only [marlinProtoIsIcmp_udp, h.parsePorts, h.parseQuic, Bool.false_eq_true, if_false]

theorem IpPacket.lt_l4Off {l3Off : Nat} {family proto : UInt8} {src dst : Addr}
    {frags : List FragField} (h : IpPacket frame l3Off family src dst proto l4Off frags) :
    l3Off + 20 ≤ l4Off := by
  cases h with
  | v4 hihl => omega
  | v6 hpath hupper =>
      have hle := hpath.le
      omega

theorem AgreeBelow.parse (hudp : UdpPacket frame l4Off)
    (h : AgreeBelow (udpEnd frame l4Off) frame frame') (mctx : MarlinCtx) :
    marlinParse frame' mctx = marlinParse frame mctx := by
  obtain ⟨family, src, dst, frags, hfamily, hpacket, hwhole⟩ := hudp
  have hheader := hpacket.lt_l4Off
  have hl4 : AgreeBelow l4Off frame frame' := h.mono (Nat.le_add_right _ _)
  have hfamily' : marlinEthFamily frame' = some family := by
    rw [← hfamily]
    unfold marlinEthFamily
    rw [hl4.be16 12 (by unfold ethHlen at hheader; omega)]
  have hl3 := hl4.parseL3 hpacket maxExtHdrs
  unfold marlinParse
  rw [h.length, hfamily, hfamily']
  dsimp only
  rw [show marlinL3OffEth = ethHlen from rfl, hl3]
  split
  · rfl
  cases hparsed : marlinParseL3 frame ethHlen family maxExtHdrs with
  | error rc => rfl
  | ok l3 =>
      obtain rfl := marlinParseL3_whole hpacket hwhole hparsed
      exact h.parseL4 family src dst _

theorem marlinParseQuic_declared (frame : Frame) (l4Off : Nat) (mctx : MarlinCtx)
    (hfresh : mctx.udpPayloadLen = 0) :
    (marlinParseQuic frame l4Off mctx).2.l4Off = mctx.l4Off ∧
      (marlinParseQuic frame l4Off mctx).2.udpPayloadLen ≤
        (frame.be16 (l4Off + 4)).toNat - marlinUdpHlen := by
  unfold marlinParseQuic
  dsimp only
  split
  · exact ⟨rfl, by rw [hfresh]; exact Nat.zero_le _⟩
  split
  · exact ⟨rfl, Nat.zero_le _⟩
  have hclamp : (if (frame.be16 (l4Off + 4)).toNat - marlinUdpHlen > 0xff then 0xff
      else (frame.be16 (l4Off + 4)).toNat - marlinUdpHlen) ≤
      (frame.be16 (l4Off + 4)).toNat - marlinUdpHlen := by
    split
    · omega
    · exact Nat.le_refl _
  generalize (if (frame.be16 (l4Off + 4)).toNat - marlinUdpHlen > 0xff then 0xff
    else (frame.be16 (l4Off + 4)).toNat - marlinUdpHlen) = payloadLen at hclamp ⊢
  split
  · exact ⟨rfl, hclamp⟩
  split
  · exact ⟨rfl, hclamp⟩
  split
  · exact ⟨rfl, hclamp⟩
  · exact ⟨rfl, hclamp⟩

theorem marlinParseL4_declared (frame : Frame) (family : UInt8) (src dst : Addr)
    {l4Off : Nat} {mctx : MarlinCtx} (hfresh : mctx.udpPayloadLen = 0)
    (hoff : mctx.l4Off ≤ l4Off) :
    let out := (marlinParseL4 frame family ⟨src, dst, l4Off, 0, ipprotoUdp, false⟩ mctx).2
    out.l4Off + marlinUdpHlen + out.udpPayloadLen ≤ udpEnd frame l4Off := by
  have hkept : mctx.l4Off + marlinUdpHlen + mctx.udpPayloadLen ≤ udpEnd frame l4Off := by
    unfold udpEnd
    omega
  unfold marlinParseL4
  simp only [marlinProtoIsIcmp_udp, Bool.false_eq_true, if_false]
  split
  · exact hkept
  split
  · exact hkept
  split
  · exact hkept
  · rename_i sport dport hports
    obtain ⟨hsame, hpayload⟩ := marlinParseQuic_declared frame l4Off
      { mctx with tuple := { mctx.tuple with sport := sport, dport := dport } } hfresh
    rw [if_pos (beq_self_eq_true _)]
    unfold udpEnd
    dsimp only at hsame hpayload ⊢
    omega

theorem UdpPacket.declared (hudp : UdpPacket frame l4Off) (cfg : MarlinConfig) :
    (frame.parsed cfg).l4Off + marlinUdpHlen + (frame.parsed cfg).udpPayloadLen ≤
      udpEnd frame l4Off := by
  obtain ⟨family, src, dst, frags, hfamily, hpacket, hwhole⟩ := hudp
  have hnone : 0 + marlinUdpHlen + 0 ≤ udpEnd frame l4Off := by
    unfold udpEnd
    omega
  unfold Frame.parsed marlinParse
  rw [hfamily]
  dsimp only
  rw [show marlinL3OffEth = ethHlen from rfl]
  split
  · exact hnone
  cases hparsed : marlinParseL3 frame ethHlen family maxExtHdrs with
  | error rc => exact hnone
  | ok l3 =>
      obtain rfl := marlinParseL3_whole hpacket hwhole hparsed
      exact marlinParseL4_declared frame family src dst rfl (Nat.mod_le _ _)

end Parse

/-! ## Selection -/

section Select

variable {frame' : Frame} {bound : Nat} {x : Xdp}

theorem AgreeBelow.quicDecode (h : AgreeBelow bound x.frame frame')
    (hbound : x.pkt.l4Off + marlinUdpHlen + x.pkt.udpPayloadLen ≤ bound) (host : Host)
    (vip : VipMeta) :
    marlinLbQuicDecode host vip { x with frame := frame' } =
      ((marlinLbQuicDecode host vip x).1,
        { (marlinLbQuicDecode host vip x).2 with frame := frame' }) := by
  unfold marlinLbQuicDecode
  dsimp only
  split
  · rfl
  split
  · rfl
  rename_i hclen
  split
  · rfl
  rename_i hshort
  unfold marlinQuicCidMin at hclen
  unfold marlinQuicCidEntropyOff
  rw [h.loadBytes host (x.pkt.l4Off + marlinUdpHlen + 1) 3 (by omega),
    h.loadBytes host _ _ (by omega)]
  split
  · rfl
  split
  · rfl
  split
  · rfl
  split
  · rfl
  split
  · rfl
  · rfl

theorem AgreeBelow.selectBackendQuic (h : AgreeBelow bound x.frame frame')
    (hbound : x.pkt.l4Off + marlinUdpHlen + x.pkt.udpPayloadLen ≤ bound) (host : Host)
    (maps : Maps) (vip : VipMeta) :
    marlinLbSelectBackendQuic host maps vip { x with frame := frame' } =
      ((marlinLbSelectBackendQuic host maps vip x).1,
        { (marlinLbSelectBackendQuic host maps vip x).2 with frame := frame' }) := by
  unfold marlinLbSelectBackendQuic
  rw [h.quicDecode hbound]
  rcases marlinLbQuicDecode host vip x with ⟨bid, x'⟩
  dsimp only
  split
  · rfl
  cases maps.backendAt bid with
  | none => rfl
  | some be =>
      dsimp only
      split
      · rfl
      · rfl

theorem AgreeBelow.selectBackend (h : AgreeBelow bound x.frame frame')
    (hbound : x.pkt.l4Off + marlinUdpHlen + x.pkt.udpPayloadLen ≤ bound) (host : Host)
    (maps : Maps) (vip : VipMeta) :
    marlinLbSelectBackend host maps vip { x with frame := frame' } =
      ((marlinLbSelectBackend host maps vip x).1,
        { (marlinLbSelectBackend host maps vip x).2 with frame := frame' }) := by
  unfold marlinLbSelectBackend
  rw [h.selectBackendQuic hbound]
  dsimp only
  split
  · rcases marlinLbSelectBackendQuic host maps vip x with ⟨target, x'⟩
    cases target with
    | none => rfl
    | some be => rfl
  · rfl

end Select

/-- Bytes beyond the declared datagram never steer a UDP packet. -/
theorem udpEnd_bounds_steering {frame frame' : Frame} {l4Off : Nat} (hudp : UdpPacket frame l4Off)
    (h : AgreeBelow (udpEnd frame l4Off) frame frame') :
    (∀ mctx, marlinParse frame' mctx = marlinParse frame mctx) ∧
      ∀ (cfg : MarlinConfig) (host : Host) (maps : Maps) (vip : VipMeta)
        (verdict : MarlinAclVerdict) (counters : Counters) (buckets : RatelimitMap),
        let pkt := { frame.parsed cfg with aclVerdict := verdict }
        let pkt' := { frame'.parsed cfg with aclVerdict := verdict }
        let choice := marlinLbSelectBackend host maps vip ⟨frame, pkt, counters, buckets⟩
        let choice' := marlinLbSelectBackend host maps vip ⟨frame', pkt', counters, buckets⟩
        marlinLbSelectVip maps pkt' = marlinLbSelectVip maps pkt ∧
          choice'.1 = choice.1 ∧ choice'.2.counters = choice.2.counters := by
  have hparse := h.parse hudp
  refine ⟨hparse, ?_⟩
  intro cfg host maps vip verdict counters buckets
  have hpkt : frame'.parsed cfg = frame.parsed cfg :=
    congrArg Prod.snd (hparse (MarlinCtx.start cfg))
  have hselect := AgreeBelow.selectBackend
    (x := ⟨frame, { frame.parsed cfg with aclVerdict := verdict }, counters, buckets⟩) h
    (hudp.declared cfg) host maps vip
  have hchoice := congrArg Prod.fst hselect
  have hcounters := congrArg (fun r : Option Backend × Xdp => r.2.counters) hselect
  rw [hpkt]
  exact ⟨rfl, hchoice, hcounters⟩

namespace SampleUdp

def frame (trailer : UInt8) : Frame := Sample.quicFrame ++ [trailer]

theorem udpPacket (trailer : UInt8) : UdpPacket (frame trailer) 34 := by
  have hbyte : (frame trailer).byte ethHlen = 0x45 := rfl
  have hproto : (frame trailer).byte (ethHlen + 9) = ipprotoUdp := rfl
  have hfield : (frame trailer).be16 (ethHlen + 6) = ⟨0x40, 0⟩ := rfl
  have hpacket := @IpPacket.v4 (frame trailer) ethHlen (by rw [hbyte]; decide)
  rw [hbyte, hproto, hfield] at hpacket
  refine ⟨afInet, _, _, _, rfl, hpacket, ?_⟩
  intro f hf
  rw [List.mem_singleton] at hf
  subst hf
  exact ⟨by decide, by decide⟩

def choice (trailer : UInt8) : Option Backend :=
  (marlinLbSelectBackend Sample.host (Sample.slotMaps marlinBeFState) Sample.quicVip
    ⟨frame trailer, { (frame trailer).parsed 0 with aclVerdict := .none }, Sample.counters,
      fun _ => none⟩).1

end SampleUdp

theorem udpEnd_bounds_steering_trailer :
    marlinParse (SampleUdp.frame 2) 0 = marlinParse (SampleUdp.frame 1) 0 ∧
      SampleUdp.choice 2 = some ((Sample.slotMaps marlinBeFState).backends 9) := by
  have hsteered : SampleUdp.choice 1 = some ((Sample.slotMaps marlinBeFState).backends 9) := by
    decide +kernel
  have hbounds := udpEnd_bounds_steering (SampleUdp.udpPacket 1)
    (agreeBelow_append Sample.quicFrame [1] [2] rfl (by decide))
  have hchoice := (hbounds.2 0 Sample.host (Sample.slotMaps marlinBeFState) Sample.quicVip .none
    Sample.counters fun _ => none).2.1
  exact ⟨hbounds.1 0, hchoice.trans hsteered⟩

end Marlin
