import Marlin.Bpf.L2dsr
import Marlin.Bpf.Tunnel
import Marlin.Racing

/-!
# What leaves the load balancer

A frame is sent on only for an entry of `vip_map` whose rules admit it, and only to a backend
that its slot marks up.  What is sent is what arrived, readdressed on the segment or inside a
tunnel to the backend.  Nothing is assumed about what the maps hold, and each read of the
packet may find them at a moment of its own.
-/

namespace Marlin

open Marlin.Library

/-! ## What is sent -/

def ipv4Saddr (ip : List UInt8) : Be32 := Frame.be32 ip 12
def ipv4Daddr (ip : List UInt8) : Be32 := Frame.be32 ip 16

def encapModes : List UInt8 := [marlinModeIpip, marlinModeGue, marlinModeVxlan]

/-- The ways in which `frame` is sent to the backend of the context, as `out`. -/
inductive SentTo (host : Host) (pkt : MarlinCtx) (vip : VipMeta) (frame out : Frame) : Prop
  | stored (hmode : encapMode pkt.backend.flags = marlinModeL2dsr) (hmac : pkt.backend.mac ≠ 0)
      (hsent : Readdressed frame out pkt.backend.mac (frame.mac 0))
  | onLink (hmode : encapMode pkt.backend.flags = marlinModeL2dsr)
      (hfib : FollowsFib host frame pkt)
      (hsent : Readdressed frame out (fibAnswer host frame pkt).2.dmac
        (fibAnswer host frame pkt).2.smac)
  | tunnel (hmode : encapMode pkt.backend.flags ∈ encapModes)
      (hsent : Emitted (pkt.marked vip) vip frame out)
      (hsource : ipv4Saddr (out.drop ethHlen) = pkt.cfg.tunnelSrc)
      (hdest : ipv4Daddr (out.drop ethHlen) = pkt.backend.addr)

/-- The FIB resolves `addr` over another interface than the frame came from, and the maps have
an entry for that. -/
def LeavesBy (host : Host) (maps : Maps) (addr : Be32) : Prop :=
  ∃ query : BpfFibLookup, query.ipv4Dst = addr ∧ query.ifindex = host.ingressIfindex ∧
    (host.fibLookup query).1 = bpfFibLkupRetSuccess ∧
    (host.fibLookup query).2.ifindex ≠ host.ingressIfindex ∧
    (host.fibLookup query).2.ifindex ∈ maps.txPorts

/-! ## Sending -/

section Sending

variable {host : Host} {maps : Maps} {frame out : Frame} {mctx mctx' : MarlinCtx}
  {vip : VipMeta} {counters : Counters} {x : Xdp}

theorem marlinLbEncapPacket_outer (h : marlinLbEncapPacket host frame mctx = (.ok, out, mctx')) :
    encapMode mctx.backend.flags ∈ encapModes ∧ ∃ protocol overhead len body, Announces out
      ((marlinBuildOuterIpv4 mctx protocol overhead len).bytes ++ body) := by
  simp only [marlinLbEncapPacket] at h
  split at h
  · next hmode =>
    obtain ⟨-, -, hout⟩ := marlinIpipEncapPacket_ok h
    exact ⟨by simp [encapModes, hmode], _, _, _, _, hout⟩
  split at h
  · next hmode =>
    obtain ⟨-, -, hout⟩ := marlinGueEncapPacket_ok h
    exact ⟨by simp [encapModes, hmode], _, _, _, _, hout⟩
  split at h
  · next hmode =>
    obtain ⟨-, -, hout⟩ := marlinVxlanEncapPacket_ok h
    exact ⟨by simp [encapModes, hmode], _, _, _, _, hout⟩
  · cases h

theorem Announces.outer {protocol : UInt8} {overhead len : Nat} {body : List UInt8}
    (h : Announces out ((marlinBuildOuterIpv4 mctx protocol overhead len).bytes ++ body)) :
    ipv4Saddr (out.drop ethHlen) = mctx.cfg.tunnelSrc ∧
      ipv4Daddr (out.drop ethHlen) = mctx.backend.addr := by
  have hdrop : out.drop ethHlen = _ := h.drop.1
  rw [hdrop]
  exact ⟨rfl, rfl⟩

theorem marlinLbForward_outer (hmode : encapMode x.pkt.backend.flags ≠ marlinModeL2dsr)
    (h : (marlinLbForward host maps vip x).1.Forwards) :
    encapMode x.pkt.backend.flags ∈ encapModes ∧
      ipv4Saddr ((marlinLbForward host maps vip x).2.frame.drop ethHlen) =
        x.pkt.cfg.tunnelSrc ∧
      ipv4Daddr ((marlinLbForward host maps vip x).2.frame.drop ethHlen) =
        x.pkt.backend.addr := by
  simp only [marlinLbForward, hmode, ne_eq, not_false_eq_true, if_true] at h ⊢
  by_cases hvalid : marlinLbValidate x.pkt x.frame.length = .ok
  · simp only [hvalid, not_true_eq_false, if_false] at h ⊢
    generalize hencap : marlinLbEncapPacket host x.frame _ = encap at h ⊢
    obtain ⟨rc, out, mctx'⟩ := encap
    dsimp only at h ⊢
    split at h
    · have hnot := marlinLbEncapPacket_not_forwards host x.frame (x.pkt.marked vip)
      rw [MarlinCtx.marked, hencap] at hnot
      exact absurd h hnot
    · next hrc =>
      obtain rfl : rc = .ok := not_not.mp hrc
      obtain ⟨hin, protocol, overhead, len, body, hout⟩ := marlinLbEncapPacket_outer hencap
      exact ⟨hin, (marlinNexthopEncapsulate_announces hout).outer⟩
  · simp only [hvalid, not_false_eq_true, if_true] at h
    exact absurd h (marlinLbValidate_not_forwards _ _)

theorem marlinLbForward_l2dsr (hmode : encapMode x.pkt.backend.flags = marlinModeL2dsr)
    (h : (marlinLbForward host maps vip x).1.Forwards) :
    SentTo host x.pkt vip x.frame (marlinLbForward host maps vip x).2.frame := by
  by_cases hvalid : marlinLbValidate x.pkt x.frame.length = .ok
  · simp only [marlinLbForward, hmode, hvalid, ne_eq, not_true_eq_false, if_false] at h ⊢
    have hlong : ethHlen ≤ x.frame.length := by
      by_contra hshort
      rw [marlinNexthopL2dsr, if_pos (Nat.lt_of_not_le hshort)] at h
      rcases h with h | h <;> cases h
    have hresult := marlinNexthopL2dsr_result host maps x.frame x.pkt x.counters hlong
    rcases hresult.emitted h with ⟨hstored, -⟩ | hfib
    · exact .stored hmode hstored.mac hstored.addressed
    · exact .onLink hmode hfib.follows hfib.addressed
  · simp only [marlinLbForward, hvalid, ne_eq, not_false_eq_true, if_true] at h
    exact absurd h (marlinLbValidate_not_forwards _ _)

theorem modeOverhead_le (mode : UInt8) : modeOverhead mode ≤ marlinOverheadVxlan := by
  simp only [modeOverhead]
  split
  · decide
  split
  · decide
  · exact Nat.le_refl _

theorem marlinLbForward_sent (hflags : x.pkt.flags &&& marlinCtxDscpMask = 0)
    (hmax : x.pkt.cfg.maxFrame < 65536) (hvni : x.pkt.backend.vni < 2 ^ 24)
    (hfits : LengthFits x.frame x.pkt marlinOverheadVxlan)
    (h : (marlinLbForward host maps vip x).1.Forwards) :
    SentTo host x.pkt vip x.frame (marlinLbForward host maps vip x).2.frame := by
  by_cases hmode : encapMode x.pkt.backend.flags = marlinModeL2dsr
  · exact marlinLbForward_l2dsr hmode h
  · obtain ⟨hin, hsource, hdest⟩ := marlinLbForward_outer hmode h
    have hfits' : LengthFits x.frame x.pkt (modeOverhead (encapMode x.pkt.backend.flags)) :=
      hfits.imp_right fun hroom =>
        Nat.lt_of_le_of_lt (Nat.add_le_add_left (modeOverhead_le _) _) hroom
    exact .tunnel hin (marlinLbForward_emitted hflags hmax hvni hmode hfits' h) hsource hdest

theorem marlinNexthopFib_redirect {disc : MarlinNhDiscipline}
    (h : (marlinNexthopFib host maps frame mctx disc counters).rc = .okRedirect) :
    LeavesBy host maps mctx.backend.addr := by
  simp only [marlinNexthopFib] at h
  repeat' split at h
  all_goals first | contradiction | skip
  next hsuccess _ hother hport =>
  refine ⟨marlinFibQuery host frame mctx, rfl, rfl, hsuccess, hother, ?_⟩
  rw [← AList.lookup_isSome]
  exact Option.isSome_iff_ne_none.mpr fun hnone => hport (Option.isNone_iff_eq_none.mpr hnone)

theorem marlinLbForward_redirect (h : (marlinLbForward host maps vip x).1 = .okRedirect) :
    LeavesBy host maps x.pkt.backend.addr := by
  have hencap := marlinLbEncapPacket_backend host x.frame (x.pkt.marked vip)
  simp only [MarlinCtx.marked] at hencap
  simp only [marlinLbForward] at h
  split at h
  · exact absurd (Or.inr h) (marlinLbValidate_not_forwards _ _)
  split at h
  · split at h
    · exact absurd (Or.inr h) (marlinLbEncapPacket_not_forwards host x.frame (x.pkt.marked vip))
    · simp only [marlinNexthopEncapsulate] at h
      repeat' split at h
      all_goals first | contradiction | skip
      rw [← hencap]
      exact marlinNexthopFib_redirect h
  · simp only [marlinNexthopL2dsr] at h
    repeat' split at h
    all_goals first | contradiction | exact marlinNexthopFib_redirect h

end Sending

/-! ## Verdicts that pass a frame up -/

section Passing

variable (host : Host) (maps : Maps) (frame : Frame) (pkt : MarlinCtx) (counters : Counters)

theorem marlinNexthopFib_not_pass (disc : MarlinNhDiscipline) :
    marlinAction (marlinNexthopFib host maps frame pkt disc counters).rc ≠ .pass := by
  simp only [marlinNexthopFib]
  repeat' split
  all_goals simp [marlinAction]

theorem marlinNexthopEncapsulate_not_pass :
    marlinAction (marlinNexthopEncapsulate host maps frame pkt counters).rc ≠ .pass := by
  simp only [marlinNexthopEncapsulate]
  repeat' split
  all_goals first | exact marlinNexthopFib_not_pass host maps frame pkt _ _ | simp [marlinAction]

theorem marlinNexthopL2dsr_not_pass :
    marlinAction (marlinNexthopL2dsr host maps frame pkt counters).rc ≠ .pass := by
  simp only [marlinNexthopL2dsr]
  repeat' split
  all_goals first | exact marlinNexthopFib_not_pass host maps frame pkt _ _ | simp [marlinAction]

theorem marlinEncapValidate_not_pass (overhead : Nat) :
    marlinAction (marlinEncapValidate pkt overhead) ≠ .pass := by
  simp only [marlinEncapValidate, marlinFrameFits]
  repeat' split
  all_goals simp [marlinAction]

theorem marlinLbEncapPacket_not_pass :
    marlinAction (marlinLbEncapPacket host frame pkt).1 ≠ .pass := by
  have hvalid := marlinEncapValidate_not_pass pkt
  simp only [marlinLbEncapPacket, marlinIpipEncapPacket, marlinGueEncapPacket,
    marlinVxlanEncapPacket]
  repeat' split
  all_goals first | exact hvalid _ | simp [marlinAction]

theorem marlinLbForward_not_pass (vip : VipMeta) (x : Xdp) :
    marlinAction (marlinLbForward host maps vip x).1 ≠ .pass := by
  simp only [marlinLbForward]
  split
  · simp only [marlinLbValidate]
    repeat' split
    all_goals simp [marlinAction]
  split
  · split
    · exact marlinLbEncapPacket_not_pass host x.frame (x.pkt.marked vip)
    · exact marlinNexthopEncapsulate_not_pass host maps _ _ _
  · exact marlinNexthopL2dsr_not_pass host maps _ _ _

end Passing

/-! ## Verdicts of the parser -/

def MarlinRet.ofParser : MarlinRet → Bool
  | .okTx | .okRedirect => false
  | _ => true

theorem MarlinRet.ofParser_not_forwards {rc : MarlinRet} (h : rc.ofParser = true) :
    ¬rc.Forwards := by
  rintro (rfl | rfl) <;> cases h

theorem marlinWalkExt6Loop_ofParser (frame : Frame) (maxExt n : Nat) :
    ∀ (i off : Nat) (nexthdr : UInt8) (out : MarlinL3) (rc : MarlinRet),
      marlinWalkExt6Loop frame maxExt n i off nexthdr out = .error rc → rc.ofParser = true := by
  induction n with
  | zero =>
      intro i off nexthdr out rc h
      cases h
      rfl
  | succ n ih =>
      intro i off nexthdr out rc h
      simp only [marlinWalkExt6Loop] at h
      repeat' split at h
      all_goals first
        | (cases h <;> rfl)
        | exact ih _ _ _ _ _ h

theorem marlinParseL3_ofParser {frame : Frame} {l3Off : Nat} {family : UInt8} {maxExt : Nat}
    {rc : MarlinRet} (h : marlinParseL3 frame l3Off family maxExt = .error rc) :
    rc.ofParser = true := by
  simp only [marlinParseL3] at h
  repeat' split at h
  all_goals first
    | (cases h <;> rfl)
    | exact marlinWalkExt6Loop_ofParser _ _ _ _ _ _ _ _ h

theorem marlinParsePorts_ofParser {frame : Frame} {l4Off : Nat} {proto : UInt8}
    {rc : MarlinRet} (h : marlinParsePorts frame l4Off proto = .error rc) :
    rc.ofParser = true := by
  simp only [marlinParsePorts] at h
  repeat' split at h
  all_goals (cases h <;> rfl)

theorem marlinParseIcmp_ofParser (frame : Frame) (l4Off : Nat) (family : UInt8)
    (pkt : MarlinCtx) : (marlinParseIcmp frame l4Off family pkt).1.ofParser = true := by
  simp only [marlinParseIcmp]
  repeat' split
  all_goals rfl

theorem marlinParseL4_ofParser (frame : Frame) (family : UInt8) (l3 : MarlinL3)
    (pkt : MarlinCtx) : (marlinParseL4 frame family l3 pkt).1.ofParser = true := by
  simp only [marlinParseL4]
  repeat' split
  all_goals first
    | rfl
    | exact marlinParseIcmp_ofParser ..
    | (next h => exact marlinParsePorts_ofParser h)

theorem marlinParse_ofParser (frame : Frame) (pkt : MarlinCtx) :
    (marlinParse frame pkt).1.ofParser = true := by
  simp only [marlinParse]
  split
  · rfl
  · split
    · rfl
    · split
      · next h => exact marlinParseL3_ofParser h
      · exact marlinParseL4_ofParser ..

/-! ## Dispatch -/

section Dispatch

variable {host : Host} {seen : Moments} {frame : Frame} {vip : VipMeta} {be : Backend} {x : Xdp}

/-- The slot in which a packet finds its backend: that of its row, or that of its connection
ID. -/
inductive ReadSlot (host : Host) (seen : Moments) (frame : Frame) (vip : VipMeta) (id : Nat) :
    Backend → Prop
  | row (hrow : (seen .row).fwdTable
      (marlinLbFkey (frame.parsed (seen .config).config) vip) = id) :
      ReadSlot host seen frame vip id ((seen .slot).backends id)
  | cid (hquic : vip.flags &&& vipQuic ≠ 0)
      (hcid : (marlinLbQuicDecode host vip (frame.entry (seen .config).config)).1 = id) :
      ReadSlot host seen frame vip id ((seen .quicSlot).backends id)

/-- What a frame has to meet before it is sent to a backend. -/
structure Dispatched (host : Host) (seen : Moments) (frame : Frame) (vip : VipMeta)
    (be : Backend) : Prop where
  accepted : frame.Accepted (seen .config).config
  selected : marlinLbSelectVipAt seen (frame.parsed (seen .config).config) = some vip
  num : vip.vipNum < maxVips
  admitted : marlinAclCheckAt seen (frame.parsed (seen .config).config) = .block →
    vip.flags &&& vipAcl = 0
  whole : marlinLbCheckFrag (frame.parsed (seen .config).config) vip = .ok
  found : ∃ id, id ≠ marlinNoBackend ∧ id < maxBackends ∧ ReadSlot host seen frame vip id be
  up : be.flags &&& marlinBeFState ≠ 0

def Frame.dispatched (frame : Frame) (seen : Moments) (be : Backend) : MarlinCtx :=
  { frame.parsed (seen .config).config with
    aclVerdict := marlinAclCheckAt seen (frame.parsed (seen .config).config)
    backend := be }

theorem marlinLbSelectBackendByHash_some {maps : Maps} {pkt : MarlinCtx}
    (h : marlinLbSelectBackendByHash maps pkt vip = some be) :
    ∃ id, id ≠ marlinNoBackend ∧ id < maxBackends ∧ maps.fwdTable (marlinLbFkey pkt vip) = id ∧
      maps.backends id = be := by
  simp only [marlinLbSelectBackendByHash] at h
  split at h
  · cases h
  split at h
  · cases h
  split at h
  · cases h
  next hid =>
  rw [not_or] at hid
  have hlt := Nat.lt_of_not_le hid.2
  rw [Maps.backendAt, if_pos hlt] at h
  exact ⟨_, hid.1, hlt, rfl, Option.some.inj h⟩

theorem marlinLbSelectBackendAt_some
    (hx : x.Holds frame (seen .config).config)
    (h : (marlinLbSelectBackendAt host seen vip x).1 = some be) :
    ∃ id, id ≠ marlinNoBackend ∧ id < maxBackends ∧ ReadSlot host seen frame vip id be := by
  have hsame := hx.samePacket
  have hkey : marlinLbFkey x.pkt vip = marlinLbFkey (frame.parsed (seen .config).config) vip := by
    have htuple : x.pkt.tuple = (frame.parsed (seen .config).config).tuple := hsame.tuple
    simp only [marlinLbFkey, marlinLbMix, htuple]
  have hhash : ∀ pkt, pkt = x.pkt → marlinLbSelectBackendByHash
      { seen .slot with fwdTable := (seen .row).fwdTable } pkt vip = some be →
      ∃ id, id ≠ marlinNoBackend ∧ id < maxBackends ∧ ReadSlot host seen frame vip id be := by
    rintro pkt rfl hsome
    obtain ⟨id, hne, hlt, hrow, hslot⟩ := marlinLbSelectBackendByHash_some hsome
    rw [hkey] at hrow
    exact ⟨id, hne, hlt, hslot ▸ .row hrow⟩
  simp only [marlinLbSelectBackendAt] at h
  split at h
  · next hquic =>
    have hpkt := marlinLbSelectBackendQuic_pkt host (seen .quicState) vip x
    have hsome := @marlinLbSelectBackendQuic_some host (seen .quicState) vip
    cases hresult : marlinLbSelectBackendQuic host (seen .quicState) vip x with
    | mk target after =>
        rw [hresult] at h hpkt
        cases target with
        | some found =>
            obtain ⟨id, hne, hlt, hdecode, -⟩ := hsome (congrArg Prod.fst hresult)
            have hcopied : (seen .quicSlot).backends id = be := by
              dsimp only at h
              rw [hdecode, Maps.backendAt, if_pos hlt] at h
              exact Option.some.inj h
            rw [marlinLbQuicDecode_samePacket host vip hsame] at hdecode
            exact ⟨id, hne, hlt, hcopied ▸ .cid hquic.1 hdecode⟩
        | none => exact hhash after.pkt hpkt h
  · exact hhash x.pkt rfl h

theorem marlinLbAdmit_ok (h : (marlinLbAdmit host (some vip) x).1 = .ok) :
    vip.vipNum < maxVips ∧ (x.pkt.aclVerdict = .block → vip.flags &&& vipAcl = 0) := by
  simp only [marlinLbAdmit] at h
  split at h
  · cases h
  next hnum =>
  refine ⟨Nat.lt_of_not_le hnum, fun hblock => ?_⟩
  by_contra hacl
  have hdrop : ∀ counters, marlinLbAclEnforce { x with counters := counters }.pkt (some vip) =
      .dropAclBlocked := by
    intro counters
    simp [marlinLbAclEnforce, hblock, hacl]
  rw [hdrop, if_pos (by simp)] at h
  cases h

theorem marlinLbLoadBackend_up {target : Option Backend} {x : Xdp}
    (h : (marlinLbLoadBackend target x).1 = .ok) :
    ∃ be, target = some be ∧ be.flags &&& marlinBeFState ≠ 0 ∧
      (marlinLbLoadBackend target x).2.frame = x.frame ∧
      (marlinLbLoadBackend target x).2.pkt = { x.pkt with backend := be } := by
  cases target with
  | none => cases h
  | some be =>
      simp only [marlinLbLoadBackend] at h ⊢
      split at h
      · cases h
      · next hup =>
        rw [if_neg hup]
        exact ⟨be, rfl, hup, rfl, rfl⟩

theorem marlinLbSelectBackendQuic_frame (host : Host) (maps : Maps) (vip : VipMeta) (x : Xdp) :
    (marlinLbSelectBackendQuic host maps vip x).2.frame = x.frame := by
  have hdecode : (marlinLbQuicDecode host vip x).2.frame = x.frame := by
    simp only [marlinLbQuicDecode]
    repeat' split
    all_goals rfl
  simp only [marlinLbSelectBackendQuic]
  repeat' split
  all_goals exact hdecode

theorem marlinLbSelectBackendAt_kept (host : Host) (seen : Moments) (vip : VipMeta) (x : Xdp) :
    (marlinLbSelectBackendAt host seen vip x).2.frame = x.frame ∧
      (marlinLbSelectBackendAt host seen vip x).2.pkt = x.pkt := by
  have hframe := marlinLbSelectBackendQuic_frame host (seen .quicState) vip x
  have hpkt := marlinLbSelectBackendQuic_pkt host (seen .quicState) vip x
  simp only [marlinLbSelectBackendAt]
  split
  · split
    · next hresult =>
      rw [hresult] at hframe hpkt
      exact ⟨hframe, hpkt⟩
    · next hresult =>
      rw [hresult] at hframe hpkt
      exact ⟨hframe, hpkt⟩
  · exact ⟨rfl, rfl⟩

theorem marlinLbLoadBackend_frame (target : Option Backend) (x : Xdp) :
    (marlinLbLoadBackend target x).2.frame = x.frame := by
  cases target with
  | none => rfl
  | some be =>
      simp only [marlinLbLoadBackend]
      split <;> rfl

theorem marlinLbProcessPacketAt_pass
    (h : marlinAction (marlinLbProcessPacketAt host seen vip x).1 = .pass) :
    (marlinLbProcessPacketAt host seen vip x).2.frame = x.frame := by
  simp only [marlinLbProcessPacketAt] at h ⊢
  split
  · rfl
  next hwhole =>
  rw [if_neg hwhole] at h
  split
  · exact (marlinLbLoadBackend_frame ..).trans (marlinLbSelectBackendAt_kept ..).1
  · next hloaded =>
    rw [if_neg hloaded] at h
    exact absurd h (marlinLbForward_not_pass host (seen .txPort) vip _)

theorem marlinLbCheckFrag_not_forwards (pkt : MarlinCtx) (vip : VipMeta) :
    ¬(marlinLbCheckFrag pkt vip).Forwards := by
  simp only [marlinLbCheckFrag]
  repeat' split
  all_goals simp [MarlinRet.Forwards]

theorem marlinLbLoadBackend_not_forwards (target : Option Backend) (x : Xdp) :
    ¬(marlinLbLoadBackend target x).1.Forwards := by
  cases target with
  | none => simp [marlinLbLoadBackend, MarlinRet.Forwards]
  | some be =>
      simp only [marlinLbLoadBackend]
      split
      all_goals simp [MarlinRet.Forwards]

theorem marlinLbAdmit_not_forwards (host : Host) (vmeta : Option VipMeta) (x : Xdp) :
    ¬(marlinLbAdmit host vmeta x).1.Forwards := by
  have hlimit : ∀ pkt counters buckets,
      ¬(marlinRatelimit host pkt counters buckets).rc.Forwards := by
    intro pkt counters buckets hsends
    have hanswer := marlinRatelimit_ofRatelimit host pkt counters buckets
    rcases hsends with hrc | hrc
    all_goals
      rw [hrc] at hanswer
      cases hanswer
  cases vmeta with
  | none =>
      simp only [marlinLbAdmit, marlinLbAclEnforce]
      repeat' split
      all_goals simp [MarlinRet.Forwards]
  | some vip =>
      simp only [marlinLbAdmit, marlinLbFilter, marlinLbAclEnforce]
      repeat' split
      all_goals first | exact hlimit _ _ _ | simp [MarlinRet.Forwards]

/-- The values that the tunnel units rely on fit their fields. -/
structure FieldsFit (seen : Moments) (frame : Frame) : Prop where
  maxFrame : (seen .config).config.maxFrame < 65536
  vni : ∀ r id, ((seen r).backends id).vni < 2 ^ 24
  length : (seen .config).config.maxFrame ≠ 0 ∨
    frame.length + marlinOverheadVxlan < 65536 + ethHlen

theorem ReadSlot.vni (hfits : FieldsFit seen frame) {id : Nat}
    (h : ReadSlot host seen frame vip id be) : be.vni < 2 ^ 24 := by
  cases h with
  | row hrow => exact hfits.vni _ _
  | cid hquic hcid => exact hfits.vni _ _

theorem marlinLbProcessPacketAt_sends (hfits : FieldsFit seen frame)
    (haccepted : frame.Accepted (seen .config).config)
    (hframe : x.frame = frame)
    (hpkt : x.pkt = { frame.parsed (seen .config).config with
      aclVerdict := marlinAclCheckAt seen (frame.parsed (seen .config).config) })
    (h : (marlinLbProcessPacketAt host seen vip x).1.Forwards) :
    ∃ be, marlinLbCheckFrag (frame.parsed (seen .config).config) vip = .ok ∧
      (∃ id, id ≠ marlinNoBackend ∧ id < maxBackends ∧ ReadSlot host seen frame vip id be) ∧
      be.flags &&& marlinBeFState ≠ 0 ∧
      SentTo host (frame.dispatched seen be) vip frame
        (marlinLbProcessPacketAt host seen vip x).2.frame ∧
      ((marlinLbProcessPacketAt host seen vip x).1 = .okRedirect →
        LeavesBy host (seen .txPort) be.addr) := by
  have hcfg : (frame.parsed (seen .config).config).cfg = (seen .config).config :=
    congrArg MarlinCtx.cfg (frame.parsed_withCfg (seen .config).config (seen .config).config)
  simp only [marlinLbProcessPacketAt] at h ⊢
  by_cases hwhole : marlinLbCheckFrag x.pkt vip = .ok
  · simp only [hwhole, ne_eq, not_true_eq_false, if_false] at h ⊢
    by_cases hloaded : (marlinLbLoadBackend (marlinLbSelectBackendAt host seen vip x).1
        (marlinLbSelectBackendAt host seen vip x).2).1 = .ok
    · simp only [hloaded, not_true_eq_false, if_false] at h ⊢
      obtain ⟨be, htarget, hup, hframe', hpkt'⟩ := marlinLbLoadBackend_up hloaded
      obtain ⟨hkept, hkept'⟩ := marlinLbSelectBackendAt_kept host seen vip x
      obtain ⟨id, hne, hlt, hslot⟩ :=
        marlinLbSelectBackendAt_some ⟨hframe, _, hpkt⟩ htarget
      rw [hkept, hframe] at hframe'
      have hcontext : (marlinLbLoadBackend (marlinLbSelectBackendAt host seen vip x).1
          (marlinLbSelectBackendAt host seen vip x).2).2.pkt = frame.dispatched seen be := by
        rw [hpkt', hkept', hpkt]
        rfl
      generalize (marlinLbLoadBackend (marlinLbSelectBackendAt host seen vip x).1
        (marlinLbSelectBackendAt host seen vip x).2).2 = y at h hframe' hcontext ⊢
      have hsent :
          SentTo host y.pkt vip y.frame (marlinLbForward host (seen .txPort) vip y).2.frame :=
        marlinLbForward_sent (by rw [hcontext]; exact marlinParse_dscp haccepted)
          (by rw [hcontext]; exact hcfg ▸ hfits.maxFrame)
          (by rw [hcontext]; exact hslot.vni hfits)
          (by rw [hcontext, hframe', LengthFits]; exact hcfg ▸ hfits.length) h
      rw [hcontext, hframe'] at hsent
      refine ⟨be, by rw [hpkt] at hwhole; exact hwhole, ⟨id, hne, hlt, hslot⟩, hup, hsent, ?_⟩
      intro hredirect
      have hport := marlinLbForward_redirect hredirect
      rw [hcontext] at hport
      exact hport
    · simp only [hloaded, not_false_eq_true, if_true] at h
      exact absurd h (marlinLbLoadBackend_not_forwards _ _)
  · simp only [hwhole, ne_eq, not_false_eq_true, if_true] at h
    exact absurd h (marlinLbCheckFrag_not_forwards _ _)

end Dispatch

theorem marlinAction_tx_iff (rc : MarlinRet) : marlinAction rc = .tx ↔ rc = .okTx := by
  cases rc <;> simp [marlinAction]

theorem marlinAction_redirect_iff (rc : MarlinRet) :
    marlinAction rc = .redirect ↔ rc = .okRedirect := by
  cases rc <;> simp [marlinAction]

theorem marlinLbProcessAt_pass {host : Host} {seen : Moments} {x : Xdp}
    (h : marlinAction (marlinLbProcessAt host seen x).1 = .pass) :
    (marlinLbProcessAt host seen x).2.frame = x.frame := by
  cases hvip : marlinLbSelectVipAt seen x.pkt with
  | none =>
      rw [marlinLbProcessAt_none host rfl hvip]
      rfl
  | some vip =>
      have hsome := marlinLbProcessAt_some host rfl hvip
      rw [hsome] at h ⊢
      dsimp only at h ⊢
      split
      · exact marlinLbAdmit_frame ..
      · next hadmit =>
        rw [if_neg hadmit] at h
        exact (marlinLbProcessPacketAt_pass h).trans (marlinLbAdmit_frame ..)

theorem marlinLbProcessAt_sends {host : Host} {seen : Moments} {frame : Frame} {x : Xdp}
    (hfits : FieldsFit seen frame) (haccepted : frame.Accepted (seen .config).config)
    (hframe : x.frame = frame) (hpkt : x.pkt = frame.parsed (seen .config).config)
    (h : (marlinLbProcessAt host seen x).1.Forwards) :
    ∃ vip be, Dispatched host seen frame vip be ∧
      SentTo host (frame.dispatched seen be) vip frame
        (marlinLbProcessAt host seen x).2.frame ∧
      ((marlinLbProcessAt host seen x).1 = .okRedirect →
        LeavesBy host (seen .txPort) be.addr) := by
  cases hvip : marlinLbSelectVipAt seen x.pkt with
  | none =>
      rw [marlinLbProcessAt_none host rfl hvip] at h
      exact absurd h (marlinLbAdmit_not_forwards host none _)
  | some vip =>
      have hsome := marlinLbProcessAt_some host rfl hvip
      rw [hsome] at h ⊢
      generalize hy : ({ x with pkt :=
        { x.pkt with aclVerdict := marlinAclCheckAt seen x.pkt } } : Xdp) = y at h ⊢
      dsimp only at h ⊢
      by_cases hadmit : (marlinLbAdmit host (some vip) y).1 = .ok
      · rw [if_neg (not_not.mpr hadmit)] at h ⊢
        obtain ⟨hnum, hacl⟩ := marlinLbAdmit_ok hadmit
        have hframe' : (marlinLbAdmit host (some vip) y).2.frame = frame := by
          rw [marlinLbAdmit_frame, ← hy, hframe]
        have hpkt' : (marlinLbAdmit host (some vip) y).2.pkt =
            { frame.parsed (seen .config).config with
              aclVerdict := marlinAclCheckAt seen (frame.parsed (seen .config).config) } := by
          rw [marlinLbAdmit_pkt, ← hy, hpkt]
        obtain ⟨be, hwhole, hfound, hup, hsent, hport⟩ :=
          marlinLbProcessPacketAt_sends hfits haccepted hframe' hpkt' h
        rw [← hy, hpkt] at hacl
        rw [hpkt] at hvip
        exact ⟨vip, be, ⟨haccepted, hvip, hnum, hacl, hwhole, hfound, hup⟩, hsent, hport⟩
      · rw [if_pos hadmit] at h
        exact absurd h (marlinLbAdmit_not_forwards host (some vip) y)

theorem xdpMainAt_accepted {seen : Moments} {frame : Frame} (host : Host)
    (h : frame.Accepted (seen .config).config) (counters : Counters) (buckets : RatelimitMap) :
    xdpMainAt host seen frame counters buckets =
      let r := marlinLbProcessAt host seen
        ⟨frame, frame.parsed (seen .config).config, counters, buckets⟩
      (marlinAction r.1, r.2.count r.1) := by
  have hrc : (marlinParse frame (MarlinCtx.start (seen .config).config)).1 = .ok := h
  simp only [xdpMainAt, hrc, ne_eq, not_true_eq_false, if_false, Frame.parsed]

theorem xdpMainAt_refused {seen : Moments} {frame : Frame} (host : Host)
    (h : ¬frame.Accepted (seen .config).config) (counters : Counters) (buckets : RatelimitMap) :
    ∃ rc : MarlinRet, rc.ofParser = true ∧
      (xdpMainAt host seen frame counters buckets).1 = marlinAction rc ∧
      (xdpMainAt host seen frame counters buckets).2.frame = frame := by
  have hrc : (marlinParse frame (MarlinCtx.start (seen .config).config)).1 ≠ .ok := h
  refine ⟨_, marlinParse_ofParser frame (MarlinCtx.start (seen .config).config), ?_⟩
  simp only [xdpMainAt]
  rw [if_pos hrc]
  exact ⟨rfl, rfl⟩

theorem xdpMainAt_pass {host : Host} {seen : Moments} {frame : Frame} {counters : Counters}
    {buckets : RatelimitMap} (h : (xdpMainAt host seen frame counters buckets).1 = .pass) :
    (xdpMainAt host seen frame counters buckets).2.frame = frame := by
  by_cases haccepted : frame.Accepted (seen .config).config
  · rw [xdpMainAt_accepted host haccepted] at h ⊢
    exact marlinLbProcessAt_pass h
  · obtain ⟨rc, -, -, hframe⟩ := xdpMainAt_refused host haccepted counters buckets
    exact hframe

theorem xdpMainAt_sends (host : Host) {seen : Moments} {frame : Frame}
    (hfits : FieldsFit seen frame) (counters : Counters) (buckets : RatelimitMap)
    (h : (xdpMainAt host seen frame counters buckets).1 = .tx ∨
      (xdpMainAt host seen frame counters buckets).1 = .redirect) :
    ∃ vip be, Dispatched host seen frame vip be ∧
      SentTo host (frame.dispatched seen be) vip frame
        (xdpMainAt host seen frame counters buckets).2.frame ∧
      ((xdpMainAt host seen frame counters buckets).1 = .redirect →
        LeavesBy host (seen .txPort) be.addr) := by
  by_cases haccepted : frame.Accepted (seen .config).config
  · rw [xdpMainAt_accepted host haccepted] at h ⊢
    dsimp only at h ⊢
    rw [marlinAction_tx_iff, marlinAction_redirect_iff] at h
    rw [marlinAction_redirect_iff]
    exact marlinLbProcessAt_sends hfits haccepted rfl rfl h
  · obtain ⟨rc, hrc, haction, -⟩ := xdpMainAt_refused host haccepted counters buckets
    rw [haction, marlinAction_tx_iff, marlinAction_redirect_iff] at h
    exact absurd h (MarlinRet.ofParser_not_forwards hrc)

namespace SampleEmission

def maps : Maps :=
  { Maps.fresh with
    config := { (0 : MarlinConfig) with tunnelSrc := ⟨10, 0, 0, 9⟩, maxFrame := 1514 }
    backends := fun id => if id = 5 then
      { (0 : Backend) with id := 5, addr := ⟨10, 0, 0, 5⟩, flags := 0x41 } else 0
    fwdTable := fun _ => 5
    vipMap := (∅ : Table VipKey VipMeta).update 0 Sample.key ⟨0, 0, Vector.replicate 16 0⟩ }

/-- The slot of the backend is written just before it is read. -/
def moments (r : MapRead) : Maps :=
  if r = .slot then maps else { maps with backends := fun _ => 0 }

theorem fieldsFit : FieldsFit moments Sample.segment := by
  refine ⟨by decide, fun r id => ?_, Or.inl (by decide)⟩
  have hvni : (maps.backends id).vni = 0 := by
    change (if id = 5 then _ else (0 : Backend)).vni = 0
    split <;> rfl
  have hzero : ((moments r).backends id).vni = 0 := by
    rw [moments]
    split
    · exact hvni
    · rfl
  rw [hzero]
  decide

end SampleEmission

end Marlin
