import Marlin.Bpf.LbCore
import Marlin.Bpf.Wire

/-!
# An ICMP error follows its flow

A backend's reply bypasses the load balancer, so an error that the reply meets on
its way quotes the reverse direction.  The parser exchanges the two directions of
the quoted header; what comes out is the tuple that the client's own packets have,
and with it the VIP and the row.
-/

namespace Marlin

/-! ## Flows on the wire -/

/-- One direction of a conversation. -/
structure Flow where
  src : Addr
  dst : Addr
  sport : Be16
  dport : Be16
  proto : UInt8
  deriving DecidableEq, Repr

def Flow.reverse (flow : Flow) : Flow :=
  { flow with
    src := flow.dst
    dst := flow.src
    sport := flow.dport
    dport := flow.sport }

def etherType (family : UInt8) : Be16 := if family = afInet then ethPIp else ethPIpv6

def Flow.At (flow : Flow) (frame : Frame) (l3Off : Nat) (family : UInt8)
    (frags : List FragField) : Prop :=
  ∃ l4Off, IpPacket frame l3Off family flow.src flow.dst flow.proto l4Off frags ∧
    frame.be16 l4Off = flow.sport ∧ frame.be16 (l4Off + 2) = flow.dport

def Flow.CarriedBy (flow : Flow) (family : UInt8) (frame : Frame) : Prop :=
  frame.be16 12 = etherType family ∧
    ∃ frags, flow.At frame ethHlen family frags ∧ ∀ f ∈ frags, f.Whole

def icmpProto (family : UInt8) : UInt8 :=
  if family = afInet then ipprotoIcmp else ipprotoIcmpv6

/-- An unfragmented ICMP error that quotes a packet, perhaps a first fragment, of the flow. -/
def Flow.QuotedBy (flow : Flow) (family : UInt8) (frame : Frame) : Prop :=
  frame.be16 12 = etherType family ∧
    ∃ src dst l4Off frags, IpPacket frame ethHlen family src dst (icmpProto family) l4Off frags ∧
      (∀ f ∈ frags, f.Whole) ∧ marlinIcmpIsError family (frame.byte l4Off) = true ∧
      ∃ quoted, flow.At frame (l4Off + 8) family quoted ∧ ∀ f ∈ quoted, f.offset = 0

def Flow.tuple (flow : Flow) (family : UInt8) : PacketTuple :=
  { src := flow.src
    dst := flow.dst
    sport := flow.sport
    dport := flow.dport
    proto := flow.proto
    family := family
    pad := 0 }

theorem IpPacket.family_cases {frame : Frame} {l3Off l4Off : Nat} {family proto : UInt8}
    {src dst : Addr} {frags : List FragField}
    (h : IpPacket frame l3Off family src dst proto l4Off frags) :
    family = afInet ∨ family = afInet6 := by
  cases h with
  | v4 => exact .inl rfl
  | v6 => exact .inr rfl

theorem marlinEthFamily_etherType {frame : Frame} {family : UInt8}
    (hfamily : family = afInet ∨ family = afInet6)
    (h : frame.be16 12 = etherType family) : marlinEthFamily frame = some family := by
  rcases hfamily with rfl | rfl
  · simp [marlinEthFamily, h, etherType]
  · simp [marlinEthFamily, h, etherType, show afInet6 ≠ afInet by decide,
      show ethPIpv6 ≠ ethPIp by decide]

/-! ## The two parse paths -/

section Parse

variable {frame : Frame} {family : UInt8} {cfg : MarlinConfig} {flow : Flow}

theorem marlinProtoIsIcmp_hasPorts {proto : UInt8} (h : marlinProtoHasPorts proto = true)
    (family : UInt8) : marlinProtoIsIcmp family proto = false := by
  have hne : proto ≠ ipprotoIcmp ∧ proto ≠ ipprotoIcmpv6 := by
    simp only [marlinProtoHasPorts, Bool.or_eq_true, beq_iff_eq] at h
    rcases h with (rfl | rfl) | rfl <;> decide
  simp [marlinProtoIsIcmp, hne.1, hne.2]

private theorem marlinParse_whole {src dst : Addr} {proto : UInt8} {l4Off : Nat}
    {frags : List FragField} (hether : frame.be16 12 = etherType family)
    (hpacket : IpPacket frame ethHlen family src dst proto l4Off frags)
    (hwhole : ∀ f ∈ frags, f.Whole)
    (h : (marlinParse frame (MarlinCtx.start cfg)).1 = .ok) :
    ∃ mctx : MarlinCtx, mctx.flags = 0 ∧ mctx.tuple = ⟨src, dst, 0, 0, proto, family, 0⟩ ∧
      ParsedL4 frame family ⟨src, dst, l4Off, 0, proto, false⟩ mctx
        (marlinParse frame (MarlinCtx.start cfg)).2 := by
  obtain ⟨family', l3, hfamily, hl3, hparse⟩ := marlinParse_ok h
  rw [marlinEthFamily_etherType hpacket.family_cases hether, Option.some.injEq] at hfamily
  subst hfamily
  obtain rfl := marlinParseL3_whole hpacket hwhole hl3
  rw [hparse] at h ⊢
  exact ⟨_, UInt32.or_zero, rfl, (marlinParseL4_ok h).2.2⟩

theorem marlinParse_carried (hcarried : flow.CarriedBy family frame)
    (hports : marlinProtoHasPorts flow.proto = true)
    (h : (marlinParse frame (MarlinCtx.start cfg)).1 = .ok) :
    (marlinParse frame (MarlinCtx.start cfg)).2.tuple = flow.tuple family := by
  obtain ⟨hether, frags, ⟨l4Off, hpacket, hsport, hdport⟩, hwhole⟩ := hcarried
  obtain ⟨mctx, hflags, htuple, hparsed⟩ := marlinParse_whole hether hpacket hwhole h
  generalize (marlinParse frame (MarlinCtx.start cfg)).2 = parsed at hparsed ⊢
  cases hparsed with
  | tail hlater => exact absurd (by rw [hflags]; decide) hlater
  | icmp _ hicmp => simp [marlinProtoIsIcmp_hasPorts hports family] at hicmp
  | ports => simp only [MarlinCtx.withPorts, htuple, Flow.tuple, hsport, hdport]

theorem marlinParse_quoted (hquoted : flow.QuotedBy family frame)
    (h : (marlinParse frame (MarlinCtx.start cfg)).1 = .ok) :
    (marlinParse frame (MarlinCtx.start cfg)).2.tuple = flow.reverse.tuple family ∧
      (marlinParse frame (MarlinCtx.start cfg)).2.flags = marlinCtxFIcmp := by
  obtain ⟨hether, src, dst, l4Off, frags, hpacket, hwhole, -, quoted,
    ⟨embOff, hemb, hsport, hdport⟩, hhead⟩ := hquoted
  obtain ⟨mctx, hflags, htuple, hparsed⟩ := marlinParse_whole hether hpacket hwhole h
  generalize (marlinParse frame (MarlinCtx.start cfg)).2 = parsed at hparsed ⊢
  have hisIcmp : marlinProtoIsIcmp family (icmpProto family) = true := by
    rcases hpacket.family_cases with rfl | rfl <;> decide
  cases hparsed with
  | tail _ hicmp => simp [hisIcmp] at hicmp
  | ports _ hicmp => simp [hisIcmp] at hicmp
  | icmp _ _ hparse =>
      obtain ⟨emb, hl3, rfl⟩ := marlinParseIcmp_ok hparse
      obtain ⟨hsrc, hdst, hproto, hoff⟩ := marlinParseL3_head hemb hhead hl3
      constructor
      · simp only [MarlinCtx.quoting, htuple, hsrc, hdst, hproto, hoff, hsport, hdport,
          Flow.tuple, Flow.reverse]
      · simp only [MarlinCtx.quoting, hflags, UInt32.zero_or]

end Parse

/-! ## The error's way through selection -/

def MarlinCtx.vipKeys (pkt : MarlinCtx) : List VipKey :=
  [marlinLbVipKey pkt, { marlinLbVipKey pkt with port := 0 }]

/-- Two contexts are steered alike wherever steering goes by the tuple. -/
structure MarlinCtx.SteeredAs (pkt pkt' : MarlinCtx) : Prop where
  keys : pkt.vipKeys = pkt'.vipKeys
  vip : ∀ maps, marlinLbSelectVip maps pkt = marlinLbSelectVip maps pkt'
  cell : ∀ vip, marlinLbFkey pkt vip = marlinLbFkey pkt' vip
  backend : ∀ maps vip,
    marlinLbSelectBackendByHash maps pkt vip = marlinLbSelectBackendByHash maps pkt' vip

theorem MarlinCtx.steeredAs_of_tuple {pkt pkt' : MarlinCtx} (h : pkt.tuple = pkt'.tuple) :
    pkt.SteeredAs pkt' := by
  have hkey : marlinLbVipKey pkt = marlinLbVipKey pkt' := by simp only [marlinLbVipKey, h]
  have hcell : ∀ vip, marlinLbFkey pkt vip = marlinLbFkey pkt' vip := by
    intro vip
    simp only [marlinLbFkey, marlinLbMix, h]
  refine ⟨?_, ?_, hcell, ?_⟩
  · simp only [MarlinCtx.vipKeys, hkey]
  · intro maps
    rw [marlinLbSelectVip, marlinLbSelectVip, hkey]
  · intro maps vip
    simp only [marlinLbSelectBackendByHash, hcell]

/--
An ICMP error about a reply of the flow is parsed to the tuple of the flow's own
packets, all 40 bytes of it; it is not taken for a fragment, and it resolves to the
same VIP and the same forwarding cell whatever the VIP hashes.
-/
theorem marlinParse_icmpFollowsFlow {flow : Flow} {family : UInt8} {packet error : Frame}
    {cfg cfg' : MarlinConfig}
    (hports : marlinProtoHasPorts flow.proto = true)
    (hpacket : flow.CarriedBy family packet)
    (herror : flow.reverse.QuotedBy family error)
    (hpacketOk : (marlinParse packet (MarlinCtx.start cfg)).1 = .ok)
    (herrorOk : (marlinParse error (MarlinCtx.start cfg')).1 = .ok) :
    (marlinParse error (MarlinCtx.start cfg')).2.tuple.bytes =
        (marlinParse packet (MarlinCtx.start cfg)).2.tuple.bytes ∧
      (marlinParse error (MarlinCtx.start cfg')).2.SteeredAs
        (marlinParse packet (MarlinCtx.start cfg)).2 ∧
      (marlinParse error (MarlinCtx.start cfg')).2.flags &&& marlinCtxFFragAny = 0 := by
  have htuple : (marlinParse error (MarlinCtx.start cfg')).2.tuple =
      (marlinParse packet (MarlinCtx.start cfg)).2.tuple := by
    rw [marlinParse_carried hpacket hports hpacketOk, (marlinParse_quoted herror herrorOk).1]
    rfl
  refine ⟨by rw [htuple], MarlinCtx.steeredAs_of_tuple htuple, ?_⟩
  rw [(marlinParse_quoted herror herrorOk).2]
  decide

/-! ### A connection to 192.0.2.1 and an error about a reply -/

namespace SampleFlow

def ipv4Frame (proto : UInt8) (src dst : Be32) (payload : List UInt8) : Frame :=
  List.replicate 12 0 ++ ethPIp.bytes ++
    [0x45, 0, 0, 0, 0, 0, 0, 0, 64, proto, 0, 0] ++ src.bytes ++ dst.bytes ++ payload

def client : Be32 := ⟨10, 0, 0, 1⟩
def vip : Be32 := ⟨192, 0, 2, 1⟩

def flow : Flow :=
  { src := ⟨client, 0, 0, 0⟩
    dst := ⟨vip, 0, 0, 0⟩
    sport := ⟨4, 210⟩
    dport := ⟨0, 80⟩
    proto := ipprotoTcp }

def packet : Frame := ipv4Frame ipprotoTcp client vip [4, 210, 0, 80]

def error : Frame :=
  ipv4Frame ipprotoIcmp ⟨198, 51, 100, 7⟩ vip
    ([3, 4, 0, 0, 0, 0, 0, 0] ++
      (ipv4Frame ipprotoTcp vip client [0, 80, 4, 210]).drop ethHlen)

theorem packet_carried : flow.CarriedBy afInet packet :=
  ⟨by decide, _, ⟨34, .v4 (by decide), by decide, by decide⟩, by
    simp only [List.mem_singleton, forall_eq]
    exact ⟨by decide, by decide⟩⟩

theorem error_quoted : flow.reverse.QuotedBy afInet error :=
  ⟨by decide, _, _, 34, _, .v4 (by decide), by
    simp only [List.mem_singleton, forall_eq]
    exact ⟨by decide, by decide⟩, by decide, _,
    ⟨62, .v4 (by decide), by decide, by decide⟩, by
    simp only [List.mem_singleton, forall_eq]
    decide⟩

end SampleFlow

theorem marlinParse_icmpFollowsFlow_tcp :
    (marlinParse SampleFlow.error (MarlinCtx.start 0)).2.SteeredAs
      (marlinParse SampleFlow.packet (MarlinCtx.start 0)).2 :=
  (marlinParse_icmpFollowsFlow (by decide) SampleFlow.packet_carried SampleFlow.error_quoted
    (by decide) (by decide)).2.1

end Marlin
