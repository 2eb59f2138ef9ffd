import Marlin.Bpf.IcmpFlow
import Marlin.Realisation

/-!
# Affinity of multi-homed associations

An SCTP association changes its path: the client's address, the server's address and
the family differ from one frame to the next, the association does not.  An address
group is one entry with one block, so every path falls on the same row as long as the
entry hashes only what the paths share.
-/

namespace Marlin

open Marlin.Library

/-! ## Only UDP is marked as QUIC -/

section Quic

variable {frame : Frame}

theorem marlinParseIcmp_quic (frame : Frame) (l4Off : Nat) (family : UInt8) (mctx : MarlinCtx) :
    (marlinParseIcmp frame l4Off family mctx).2.flags &&& marlinCtxFQuic =
      mctx.flags &&& marlinCtxFQuic := by
  have hicmp : marlinCtxFIcmp &&& marlinCtxFQuic = 0 := by decide
  simp only [marlinParseIcmp]
  repeat' split
  all_goals first | rfl | simp only [flags_or_and, hicmp, UInt32.or_zero]

theorem marlinParseL4_quic (frame : Frame) (family : UInt8) (l3 : MarlinL3) (mctx : MarlinCtx) :
    (marlinParseL4 frame family l3 mctx).2.flags &&& marlinCtxFQuic =
        mctx.flags &&& marlinCtxFQuic ∨
      l3.proto = ipprotoUdp ∧
        (marlinParseL4 frame family l3 mctx).2.tuple.proto = mctx.tuple.proto := by
  simp only [marlinParseL4]
  split
  · exact .inl rfl
  split
  · exact .inl rfl
  split
  · exact .inl rfl
  split
  · exact .inl (marlinParseIcmp_quic _ _ _ _)
  split
  · exact .inl rfl
  · next sport dport _ =>
    split
    · next hudp =>
      obtain ⟨quic, len, -, hparse⟩ := marlinParseQuic_cases frame l3.l4Off
        { mctx with tuple := { mctx.tuple with sport := sport, dport := dport } }
      rw [hparse]
      exact .inr ⟨by simpa using hudp, rfl⟩
    · exact .inl rfl

theorem Frame.parsed_quic {cfg : MarlinConfig}
    (h : (frame.parsed cfg).flags &&& marlinCtxFQuic ≠ 0) :
    (frame.parsed cfg).tuple.proto = ipprotoUdp := by
  have hzero : (0 : UInt32) &&& marlinCtxFQuic = 0 := by decide
  simp only [Frame.parsed, marlinParse] at h ⊢
  split at h
  · exact absurd hzero h
  · next hlen =>
    rw [if_neg hlen]
    cases hfamily : marlinEthFamily frame with
    | none => simp [hfamily, hzero] at h
    | some family =>
        cases hl3 : marlinParseL3 frame marlinL3OffEth family maxExtHdrs with
        | error rc => simp [hfamily, hl3, hzero] at h
        | ok l3 =>
            simp only [hfamily, hl3] at h ⊢
            rcases marlinParseL4_quic frame family l3
              (({ MarlinCtx.start cfg with pktLen := frame.length % 65536 } :
                MarlinCtx).withL3 family l3) with hflags | ⟨hudp, hproto⟩
            · rw [hflags] at h
              refine absurd ?_ h
              simp only [MarlinCtx.withL3, MarlinCtx.start_flags, UInt32.zero_or]
              have hfrag : marlinCtxFFragAny &&& marlinCtxFQuic = 0 := by decide
              exact marlinParseL3_and hfrag hl3
            · rw [hproto]
              exact hudp

end Quic

/-! ## The client of a frame -/

section Client

variable {frame : Frame} {family proto : UInt8} {src dst : Addr} {l4Off : Nat}
  {frags : List FragField} {l3 : MarlinL3}

theorem Ext6Path.head {off off' : Nat} {nexthdr : UInt8} {frags : List Be16}
    (hpath : Ext6Path frame off nexthdr frags off' proto) :
    nexthdr = proto ∨ marlinIsExt6 nexthdr = true := by
  cases hpath with
  | refl => exact .inl rfl
  | options hnext => exact .inr (by rcases hnext with rfl | rfl | rfl <;> rfl)
  | fragment => exact .inr rfl

theorem marlinWalkExt6Loop_src {maxExt n i off off' : Nat} {nexthdr : UInt8}
    {frags : List Be16} {out : MarlinL3}
    (hpath : Ext6Path frame off nexthdr frags off' proto) (hupper : marlinIsExt6 proto = false)
    (h : marlinWalkExt6Loop frame maxExt n i off nexthdr out = .ok l3) :
    l3.src = out.src ∧ (l3.proto = proto ∨ marlinIsExt6 l3.proto = true) := by
  induction hpath generalizing n i out with
  | refl off nexthdr =>
      obtain ⟨-, rfl⟩ := marlinWalkExt6Loop_upper hupper h
      exact ⟨rfl, .inl rfl⟩
  | options hnext _ ih =>
      obtain ⟨m, hm⟩ := marlinWalkExt6Loop_options hnext h
      exact ih hupper hm
  | fragment hpath ih =>
      rcases marlinWalkExt6Loop_fragment h with ⟨-, rfl⟩ | ⟨-, m, hm⟩
      · exact ⟨rfl, hpath.head⟩
      · simpa using ih hupper hm

theorem marlinParseL3_src {l3Off maxExt : Nat}
    (hpacket : IpPacket frame l3Off family src dst proto l4Off frags)
    (h : marlinParseL3 frame l3Off family maxExt = .ok l3) :
    l3.src = src ∧ (l3.proto = proto ∨ marlinIsExt6 l3.proto = true) := by
  cases hpacket with
  | v4 =>
      obtain rfl := marlinParseL3_v4 h
      exact ⟨rfl, .inl rfl⟩
  | v6 hpath hupper => exact marlinWalkExt6Loop_src hpath hupper (marlinParseL3_v6 h)

/--
The frame belongs to an SCTP association of the client: an SCTP packet, whole or a
fragment, from that address, or an ICMP error about a packet to it.
-/
inductive Frame.SctpClient (frame : Frame) (client : Addr) : Prop
  | packet {family : UInt8} {dst : Addr} {l4Off : Nat} {frags : List FragField}
      (hether : frame.be16 12 = etherType family)
      (hpacket : IpPacket frame ethHlen family client dst ipprotoSctp l4Off frags)
  | error {family : UInt8} {flow : Flow} (hproto : flow.proto = ipprotoSctp)
      (hclient : flow.src = client) (herror : flow.reverse.QuotedBy family frame)

theorem Flow.CarriedBy.sctpClient {flow : Flow} (h : flow.CarriedBy family frame)
    (hproto : flow.proto = ipprotoSctp) : frame.SctpClient flow.src := by
  obtain ⟨hether, frags, ⟨l4Off, hpacket, -, -⟩, -⟩ := h
  rw [hproto] at hpacket
  exact .packet hether hpacket

theorem not_icmp_of_sctp (family : UInt8)
    (h : proto = ipprotoSctp ∨ marlinIsExt6 proto = true) :
    marlinProtoIsIcmp family proto = false ∧ proto ≠ ipprotoUdp := by
  have hne : proto ≠ ipprotoIcmp ∧ proto ≠ ipprotoIcmpv6 ∧ proto ≠ ipprotoUdp := by
    simp only [marlinIsExt6, Bool.or_eq_true, beq_iff_eq] at h
    rcases h with rfl | ((rfl | rfl) | rfl) | rfl <;> decide
  exact ⟨by simp [marlinProtoIsIcmp, hne.1, hne.2.1], hne.2.2⟩

theorem Frame.SctpClient.parsed {client : Addr} {cfg : MarlinConfig}
    (h : frame.SctpClient client) (hok : frame.Accepted cfg) :
    (frame.parsed cfg).tuple.src = client ∧ (frame.parsed cfg).tuple.proto ≠ ipprotoUdp := by
  cases h with
  | packet hether hpacket =>
      obtain ⟨family, l3, hfamily, hl3, hparse⟩ := marlinParse_ok hok
      rw [marlinEthFamily_etherType hpacket.family_cases hether, Option.some.injEq] at hfamily
      subst hfamily
      obtain ⟨hsrc, hproto⟩ := marlinParseL3_src hpacket hl3
      obtain ⟨hplain, hudp⟩ := not_icmp_of_sctp _ hproto
      rw [Frame.Accepted, hparse] at hok
      have hparsed := (marlinParseL4_ok hok).2.2
      rw [← hparse] at hparsed
      change ParsedL4 _ _ _ _ (frame.parsed cfg) at hparsed
      generalize frame.parsed cfg = parsed at hparsed
      cases hparsed with
      | tail => exact ⟨hsrc, hudp⟩
      | icmp _ hicmp =>
          rw [hplain] at hicmp
          cases hicmp
      | ports => exact ⟨hsrc, hudp⟩
  | @error _ flow hproto hclient herror =>
      have htuple : (frame.parsed cfg).tuple = flow.reverse.reverse.tuple _ :=
        (marlinParse_quoted herror hok).1
      have hudp : ipprotoSctp ≠ ipprotoUdp := by decide
      rw [htuple]
      exact ⟨hclient, by rw [← hproto] at hudp; exact hudp⟩

end Client

/-! ## Selection without a connection ID -/

section Selection

variable {S : Type} [LinearOrder S] {score : UInt64 → Nat → S} {conf : MarlinConf} {mp : Maps}
  {vip : ConfVip} {frame frame' : Frame}

/-- Every host gives both frames the same backend, in whatever state they reach the core. -/
def SameBackend (mp : Maps) (vip : VipMeta) (frame frame' : Frame) : Prop :=
  ∀ (host host' : Host) (x y : Xdp), x.Holds frame mp.config → y.Holds frame' mp.config →
    (marlinLbSelectBackend host mp vip x).1 = (marlinLbSelectBackend host' mp vip y).1

theorem Realised.selectBackend (h : Realised score conf mp) (hvip : vip ∈ conf.vips)
    (host : Host) {x : Xdp} (hx : x.Holds frame mp.config)
    (hudp : (frame.parsed mp.config).tuple.proto ≠ ipprotoUdp) :
    (marlinLbSelectBackend host mp vip.vipMeta x).1 =
      if vip.members = [] then none
      else some (mp.backends (conf.winner score vip (frame.parsed mp.config).tuple)) := by
  obtain ⟨-, verdict, hpkt⟩ := hx
  have hquic : ¬QuicSteered host mp vip.vipMeta x := by
    rintro ⟨-, hflag, -⟩
    rw [hpkt] at hflag
    exact hudp (Frame.parsed_quic hflag)
  rw [marlinLbSelectBackend_hash hquic, h.selectByHash hvip, hpkt]

theorem Realised.sameBackend (h : Realised score conf mp) (hvip : vip ∈ conf.vips)
    (hudp : (frame.parsed mp.config).tuple.proto ≠ ipprotoUdp)
    (hudp' : (frame'.parsed mp.config).tuple.proto ≠ ipprotoUdp)
    (hinput : (frame.parsed mp.config).tuple.hashInput vip.vipMeta.flags =
      (frame'.parsed mp.config).tuple.hashInput vip.vipMeta.flags) :
    SameBackend mp vip.vipMeta frame frame' := by
  intro host host' x y hx hy
  have hwinner : conf.winner score vip (frame.parsed mp.config).tuple =
      conf.winner score vip (frame'.parsed mp.config).tuple := by
    rw [MarlinConf.winner, MarlinConf.winner, PacketTuple.row, PacketTuple.row, hinput]
  rw [h.selectBackend hvip host hx hudp, h.selectBackend hvip host' hy hudp', hwinner]

end Selection

/-! ## Address groups -/

/-- An SCTP entry with several addresses. -/
structure ConfVip.SctpGroup (vip : ConfVip) : Prop where
  several : 2 ≤ vip.keys.length
  sctp : ∀ key ∈ vip.keys, key.proto = ipprotoSctp

def Maps.Resolves (mp : Maps) (frame : Frame) (vip : ConfVip) : Prop :=
  frame.Accepted mp.config ∧
    marlinLbSelectVip mp (frame.parsed mp.config) = some vip.vipMeta

/-- The paths of one association lead to one backend. -/
structure Affine (mp : Maps) (vip : ConfVip) : Prop where
  /-- By ports: from any client, to any address, in either family. -/
  ports : vip.vipMeta.flags &&& vipHashPorts ≠ 0 →
    ∀ (flow flow' : Flow) (family family' : UInt8) (frame frame' : Frame),
      flow.proto = ipprotoSctp → flow'.proto = ipprotoSctp →
      flow.sport = flow'.sport → flow.dport = flow'.dport →
      flow.CarriedBy family frame → flow'.CarriedBy family' frame' →
      mp.Resolves frame vip → mp.Resolves frame' vip →
      SameBackend mp vip.vipMeta frame frame'
  /-- By the client's address: to any address, fragments and ICMP errors included. -/
  client : vip.vipMeta.flags &&& vipHashPorts = 0 →
    ∀ (client : Addr) (frame frame' : Frame),
      frame.SctpClient client → frame'.SctpClient client →
      mp.Resolves frame vip → mp.Resolves frame' vip →
      SameBackend mp vip.vipMeta frame frame'

/--
Once an accepted configuration is applied, over whatever the maps held before, an SCTP
address group keeps the paths of an association together.
-/
theorem reconcileApply_affine {S : Type} [LinearOrder S] (score : UInt64 → Nat → S)
    {keys : BackendKeys} (hkeys : keys.Sound) {e : Env} (hhonest : e.Honest)
    {conf : MarlinConf} (hconf : conf.Accepted) {prior : Maps} {n : Nat} {out : MarlinConf}
    {mp : Maps} (hout : (reconcileApply score keys conf e n prior).result = some out)
    (hmp : mp = (reconcileApply score keys conf e n prior).store) {vip : ConfVip}
    (hvip : vip ∈ out.vips) (hgroup : vip.SctpGroup) : Affine mp vip := by
  obtain ⟨rfl, hreal⟩ := hconf.realised score hkeys hhonest hout
  rw [← hmp] at hreal
  obtain ⟨i, entry, hentry, heq⟩ := MarlinConf.mem_withNums.mp hvip
  have hplain : vip.vipMeta.flags &&& vipHash5tuple = 0 := by
    subst heq
    exact (hconf.valid.group entry (List.mem_of_getElem? hentry) hgroup.several hgroup.sctp).1
  have hudp : ipprotoSctp ≠ ipprotoUdp := by decide
  have hports : marlinProtoHasPorts ipprotoSctp = true := by decide
  constructor
  · intro hflag flow flow' family family' frame frame' hproto hproto' hsport hdport hcarried
      hcarried' hresolves hresolves'
    have htuple := marlinParse_carried hcarried (by rw [hproto]; exact hports) hresolves.1
    have htuple' := marlinParse_carried hcarried' (by rw [hproto']; exact hports) hresolves'.1
    refine hreal.sameBackend hvip ?_ ?_ ?_
    · rw [Frame.parsed, htuple, Flow.tuple, hproto]
      exact hudp
    · rw [Frame.parsed, htuple', Flow.tuple, hproto']
      exact hudp
    · simp only [PacketTuple.hashInput, hplain, hflag, ne_eq, not_true_eq_false, not_false_eq_true,
        if_false, if_true, Frame.parsed, htuple, htuple', Flow.tuple, hsport, hdport]
  · intro hflag client frame frame' hclient hclient' hresolves hresolves'
    obtain ⟨hsrc, hproto⟩ := hclient.parsed hresolves.1
    obtain ⟨hsrc', hproto'⟩ := hclient'.parsed hresolves'.1
    refine hreal.sameBackend hvip hproto hproto' ?_
    simp only [PacketTuple.hashInput, hplain, hflag, ne_eq, not_true_eq_false, if_false,
      hsrc, hsrc']

namespace Sample

/-- Two backends behind two SCTP groups: one, hashed by ports, with an address of each family,
and one, hashed by the client's address, with two IPv4 addresses. -/
def groupConf : MarlinConf :=
  loadFile (file (tomlTable [
    ("instance", tomlTable [("interface", tomlStr "eth0")]),
    ("backend", .array [
      tomlTable [("name", tomlStr "b1"), ("id", .int64 5), ("addr", tomlStr "10.0.0.1"),
        ("mode", tomlStr "l2dsr")],
      tomlTable [("name", tomlStr "b2"), ("id", .int64 6), ("addr", tomlStr "10.0.0.2"),
        ("mode", tomlStr "l2dsr")]]),
    ("vip", .array [tomlTable [
      ("addr", .array [tomlStr "192.0.2.1", tomlStr "2001:db8::1"]), ("port", .int64 3868),
      ("proto", tomlStr "sctp"), ("hash_ports", .boolean true),
      ("hash_key", tomlStr "000102030405060708090a0b0c0d0e0f"),
      ("table_seed", tomlStr "0f0e0d0c0b0a09080706050403020100"),
      ("members", .array [tomlTable [("backend", tomlStr "b1"), ("weight", .int64 1)],
        tomlTable [("backend", tomlStr "b2"), ("weight", .int64 1)]])],
      tomlTable [
      ("addr", .array [tomlStr "192.0.2.2", tomlStr "192.0.2.3"]), ("port", .int64 3868),
      ("proto", tomlStr "sctp"),
      ("hash_key", tomlStr "000102030405060708090a0b0c0d0e0f"),
      ("table_seed", tomlStr "0f0e0d0c0b0a09080706050403020100"),
      ("members", .array [tomlTable [("backend", tomlStr "b1"), ("weight", .int64 1)],
        tomlTable [("backend", tomlStr "b2"), ("weight", .int64 1)]])]])]) (by decide))
    (by decide +kernel)

theorem groupConf_accepted : groupConf.Accepted := loadFile_accepted _ _

def groupKey4 (n : UInt8) : VipKey :=
  ⟨⟨⟨192, 0, 2, n⟩, 0, 0, 0⟩, ⟨15, 28⟩, ipprotoSctp, afInet⟩

def groupKey6 : VipKey :=
  ⟨⟨⟨32, 1, 13, 184⟩, 0, 0, ⟨0, 0, 0, 1⟩⟩, ⟨15, 28⟩, ipprotoSctp, afInet6⟩

theorem groupConf_holds : groupConf.acl = ⟨false, [], [], [], []⟩ ∧
    groupConf.inst.txPorts = [] ∧
    (∀ b ∈ groupConf.backends, BackendKeys.layout.ofConf b < maxBackends) ∧
    (∃ vip ∈ groupConf.vips, vip.keys = [groupKey4 1, groupKey6] ∧
      vip.vipMeta.flags &&& vipHashPorts ≠ 0) ∧
    ∃ vip ∈ groupConf.vips, vip.keys = [groupKey4 2, groupKey4 3] ∧
      vip.vipMeta.flags &&& vipHashPorts = 0 := by
  decide +kernel

def path4 (n : UInt8) : Flow where
  src := ⟨⟨198, 51, 100, 7⟩, 0, 0, 0⟩
  dst := (groupKey4 n).addr
  sport := ⟨4, 210⟩
  dport := (groupKey4 n).port
  proto := ipprotoSctp

def path6 : Flow :=
  { path4 1 with
    src := ⟨⟨32, 1, 13, 184⟩, ⟨0, 7, 0, 0⟩, 0, ⟨0, 0, 0, 9⟩⟩
    dst := groupKey6.addr }

def path4Frame (n : UInt8) : Frame :=
  SampleFlow.ipv4Frame ipprotoSctp (path4 n).src.w0 (path4 n).dst.w0
    ((path4 n).sport.bytes ++ (path4 n).dport.bytes)

def path6Frame : Frame :=
  List.replicate 12 0 ++ ethPIpv6.bytes ++ [0x60, 0, 0, 0, 0, 4, ipprotoSctp, 64] ++
    path6.src.bytes ++ path6.dst.bytes ++ path6.sport.bytes ++ path6.dport.bytes

theorem path4Frame_carried : ∀ n ∈ [1, 2, 3], (path4 n).CarriedBy afInet (path4Frame n) := by
  simp only [List.forall_mem_cons, List.not_mem_nil, false_imp_iff, implies_true, and_true]
  refine ⟨?_, ?_, ?_⟩
  all_goals
    refine ⟨by decide, _, ⟨34, .v4 (by decide), by decide, by decide⟩, ?_⟩
    simp only [List.mem_singleton, forall_eq]
    exact ⟨by decide, by decide⟩

theorem path6Frame_carried : path6.CarriedBy afInet6 path6Frame :=
  ⟨by decide, _, ⟨54, .v6 (.refl _ _) (by decide), by decide, by decide⟩, by simp⟩

theorem path4Frame_parsed : ∀ n ∈ [1, 2, 3], (path4Frame n).Accepted 0 ∧
    marlinLbVipKey ((path4Frame n).parsed 0) = groupKey4 n := by
  simp only [List.forall_mem_cons, List.not_mem_nil, false_imp_iff, implies_true, and_true,
    Frame.Accepted]
  decide

theorem path6Frame_parsed : path6Frame.Accepted 0 ∧
    marlinLbVipKey (path6Frame.parsed 0) = groupKey6 := by
  rw [Frame.Accepted]
  decide

theorem groupConf_applied :
    (reconcileApply score .layout groupConf calmEnv 0 Maps.fresh).result =
      some (groupConf.assigned Maps.fresh) := by
  obtain ⟨hacl, hports, hkeys, -, -⟩ := groupConf_holds
  refine groupConf_accepted.returns score BackendKeys.layout_sound calmEnv 0
    (readEnv_feasible (fun _ => rfl) groupConf_accepted hports hkeys Maps.fresh_bounded
      fun list family => Or.inr ?_)
  rw [hacl]
  cases list <;> cases family <;> rfl

theorem groupConf_resolves {mp : Maps}
    (hmp : mp = (reconcileApply score .layout groupConf calmEnv 0 Maps.fresh).store)
    {vip : ConfVip} (hvip : vip ∈ (groupConf.assigned Maps.fresh).vips) {frame : Frame}
    (hok : frame.Accepted 0) (hkey : marlinLbVipKey (frame.parsed 0) ∈ vip.keys) :
    mp.Resolves frame vip := by
  obtain ⟨-, hreal⟩ := groupConf_accepted.realised score BackendKeys.layout_sound
    calmEnv_honest groupConf_applied
  rw [← hmp] at hreal
  rw [← frame.parsed_vipKey 0 mp.config] at hkey
  exact ⟨hok.withCfg mp.config, hreal.selectVip_iff.mpr ⟨vip, hvip, .inl hkey, rfl⟩⟩

end Sample

/-- The two paths of a dual-stack association, by its ports, and those of an association with
two addresses, by the client's. -/
theorem reconcileApply_affine_dual : ∃ mp, ∃ byPorts ∈ (Sample.groupConf.assigned Maps.fresh).vips,
    ∃ byClient ∈ (Sample.groupConf.assigned Maps.fresh).vips,
      mp = (reconcileApply Sample.score .layout Sample.groupConf Sample.calmEnv 0
        Maps.fresh).store ∧
      SameBackend mp byPorts.vipMeta (Sample.path4Frame 1) Sample.path6Frame ∧
      SameBackend mp byClient.vipMeta (Sample.path4Frame 2) (Sample.path4Frame 3) := by
  obtain ⟨-, -, -, ⟨entry, hentry, hkeys, hflag⟩, other, hother, hkeys', hflag'⟩ :=
    Sample.groupConf_holds
  obtain ⟨num, hvip⟩ := MarlinConf.mem_assigned Maps.fresh hentry
  obtain ⟨num', hvip'⟩ := MarlinConf.mem_assigned Maps.fresh hother
  have hpath := Sample.path4Frame_parsed
  have hcarried := Sample.path4Frame_carried
  simp only [List.forall_mem_cons, List.not_mem_nil, false_imp_iff, implies_true, and_true]
    at hpath hcarried
  obtain ⟨⟨hok1, hkey1⟩, ⟨hok2, hkey2⟩, hok3, hkey3⟩ := hpath
  obtain ⟨hok6, hkey6⟩ := Sample.path6Frame_parsed
  refine ⟨_, _, hvip, _, hvip', rfl, ?_, ?_⟩
  · change (entry.withNum num).keys = _ at hkeys
    have haffine := reconcileApply_affine Sample.score BackendKeys.layout_sound
      Sample.calmEnv_honest Sample.groupConf_accepted Sample.groupConf_applied rfl hvip
      ⟨by rw [hkeys]; decide, by rw [hkeys]; decide⟩
    exact haffine.ports hflag (Sample.path4 1) Sample.path6 _ _ _ _ rfl rfl rfl rfl
      hcarried.1 Sample.path6Frame_carried
      (Sample.groupConf_resolves rfl hvip hok1 (by rw [hkeys, hkey1]; decide))
      (Sample.groupConf_resolves rfl hvip hok6 (by rw [hkeys, hkey6]; decide))
  · change (other.withNum num').keys = _ at hkeys'
    have haffine := reconcileApply_affine Sample.score BackendKeys.layout_sound
      Sample.calmEnv_honest Sample.groupConf_accepted Sample.groupConf_applied rfl hvip'
      ⟨by rw [hkeys']; decide, by rw [hkeys']; decide⟩
    exact haffine.client hflag' (Sample.path4 2).src _ _ (hcarried.2.1.sctpClient rfl)
      (hcarried.2.2.sctpClient rfl)
      (Sample.groupConf_resolves rfl hvip' hok2 (by rw [hkeys', hkey2]; decide))
      (Sample.groupConf_resolves rfl hvip' hok3 (by rw [hkeys', hkey3]; decide))

end Marlin
