import Marlin.Realisation

/-!
# A packet that races with the loader

The kernel orders a packet's map reads against the loader's map writes one by one, so
that two reads of one packet may find the maps in two different states.  Here `xdp_main`
is followed read by read; what it does depends on what the reads find, and on nothing
else in the maps.
-/

namespace Marlin

/-- The map reads of one packet, in the order in which they are made. -/
inductive MapRead where
  | config
  | aclAllow
  | aclBlock
  | vip
  | anyPort
  | quicState
  | quicSlot
  | row
  | slot
  | txPort
  deriving DecidableEq, Repr

/-- The state of the maps at the moment of each read. -/
abbrev Moments := MapRead → Maps

/-- `marlin_acl_check`, whose two tries are looked up one after the other. -/
def marlinAclCheckAt (seen : Moments) (pkt : MarlinCtx) : MarlinAclVerdict :=
  marlinAclCheck { seen .aclAllow with
    aclBlockV4 := (seen .aclBlock).aclBlockV4
    aclBlockV6 := (seen .aclBlock).aclBlockV6 } pkt

def marlinLbSelectVipAt (seen : Moments) (pkt : MarlinCtx) : Option VipMeta :=
  let key := marlinLbVipKey pkt
  match (seen .vip).vipMap.lookup key with
  | some hit => some hit
  | none => (seen .anyPort).vipMap.lookup { key with port := 0 }

/-- `marlin_lb_select_backend`.  It looks whether the slot of a connection ID is up;
`marlin_lb_load_backend` then copies what it finds there. -/
def marlinLbSelectBackendAt (host : Host) (seen : Moments) (vip : VipMeta) (x : Xdp) :
    Option Backend × Xdp :=
  let byHash : Maps := { seen .slot with fwdTable := (seen .row).fwdTable }
  if vip.flags &&& vipQuic ≠ 0 ∧ x.pkt.flags &&& marlinCtxFQuic ≠ 0 then
    match marlinLbSelectBackendQuic host (seen .quicState) vip x with
    | (some _, y) => ((seen .quicSlot).backendAt (marlinLbQuicDecode host vip x).1, y)
    | (none, y) => (marlinLbSelectBackendByHash byHash y.pkt vip, y)
  else (marlinLbSelectBackendByHash byHash x.pkt vip, x)

def marlinLbProcessPacketAt (host : Host) (seen : Moments) (vip : VipMeta) (x : Xdp) :
    MarlinRet × Xdp :=
  let rc := marlinLbCheckFrag x.pkt vip
  if rc ≠ .ok then (rc, x)
  else
    let (target, x) := marlinLbSelectBackendAt host seen vip x
    let (rc, x) := marlinLbLoadBackend target x
    if rc ≠ .ok then (rc, x) else marlinLbForward host (seen .txPort) vip x

def marlinLbProcessAt (host : Host) (seen : Moments) (x : Xdp) : MarlinRet × Xdp :=
  let x := { x with pkt := { x.pkt with aclVerdict := marlinAclCheckAt seen x.pkt } }
  let vmeta := marlinLbSelectVipAt seen x.pkt
  let (rc, x) := marlinLbAdmit host vmeta x
  if rc ≠ .ok then (rc, x)
  else
    match vmeta with
    | none => (rc, x)
    | some vip => marlinLbProcessPacketAt host seen vip x

/-- `xdp_main`, each read of a map made in the state of its own moment. -/
def xdpMainAt (host : Host) (seen : Moments) (frame : Frame) (counters : Counters)
    (buckets : RatelimitMap) : XdpAction × Xdp :=
  let (rc, pkt) := marlinParse frame (MarlinCtx.start (seen .config).config)
  let x : Xdp := ⟨frame, pkt, counters, buckets⟩
  if rc ≠ .ok then (marlinAction rc, x.count rc)
  else
    let (rc, x) := marlinLbProcessAt host seen x
    (marlinAction rc, x.count rc)

theorem marlinLbSelectBackendQuic_some {host : Host} {maps : Maps} {vip : VipMeta} {be : Backend}
    {x : Xdp} (h : (marlinLbSelectBackendQuic host maps vip x).1 = some be) :
    ∃ id, id ≠ marlinNoBackend ∧ id < maxBackends ∧ (marlinLbQuicDecode host vip x).1 = id ∧
      maps.backends id = be := by
  simp only [marlinLbSelectBackendQuic] at h
  split at h
  · cases h
  next hid =>
  cases hslot : maps.backendAt (marlinLbQuicDecode host vip x).1 with
  | none =>
      rw [hslot] at h
      cases h
  | some found =>
      simp only [hslot] at h
      split at h
      · cases h
      rw [Maps.backendAt] at hslot
      split at hslot
      · next hlt =>
        exact ⟨_, hid, hlt, rfl, (Option.some.inj hslot).trans (Option.some.inj h)⟩
      · cases hslot

theorem marlinLbSelectBackendAt_still (host : Host) (maps : Maps) :
    marlinLbSelectBackendAt host (fun _ => maps) = marlinLbSelectBackend host maps := by
  funext vip x
  have hsome := @marlinLbSelectBackendQuic_some host maps vip
  simp only [marlinLbSelectBackendAt, marlinLbSelectBackend]
  split
  · cases hquic : marlinLbSelectBackendQuic host maps vip x with
    | mk target y =>
        cases target with
        | none => rfl
        | some be =>
            obtain ⟨id, -, hlt, hid, hslot⟩ := hsome (congrArg Prod.fst hquic)
            dsimp only
            rw [hid, Maps.backendAt, if_pos hlt, hslot]
  · rfl

theorem marlinLbProcessPacketAt_still (host : Host) (maps : Maps) :
    marlinLbProcessPacketAt host (fun _ => maps) = marlinLbProcessPacket host maps := by
  funext vip x
  simp only [marlinLbProcessPacketAt, marlinLbSelectBackendAt_still]
  rfl

theorem marlinLbProcessAt_still (host : Host) (maps : Maps) :
    marlinLbProcessAt host (fun _ => maps) = marlinLbProcess host maps := by
  funext x
  simp only [marlinLbProcessAt, marlinLbProcessPacketAt_still]
  rfl

theorem xdpMainAt_still (host : Host) (maps : Maps) :
    xdpMainAt host (fun _ => maps) = xdpMain host maps := by
  funext frame counters buckets
  simp only [xdpMainAt, marlinLbProcessAt_still]
  rfl

/-! ## What a packet reads -/

def Frame.entry (frame : Frame) (cfg : MarlinConfig) : Xdp :=
  ⟨frame, frame.parsed cfg, ⟨fun _ => ⟨0, 0⟩, fun _ => ⟨0, 0⟩, fun _ => 0⟩, fun _ => none⟩

def Frame.target (host : Host) (frame : Frame) (maps : Maps) (vip : VipMeta) : Option Backend :=
  (marlinLbSelectBackend host maps vip (frame.entry maps.config)).1

/-- The answers of the FIB to queries about the address name the same ports in both states. -/
def SamePorts (host : Host) (addr : Be32) (mp mp' : Maps) : Prop :=
  ∀ query : BpfFibLookup, query.ipv4Dst = addr →
    ((host.fibLookup query).2.ifindex ∈ mp'.txPorts ↔ (host.fibLookup query).2.ifindex ∈ mp.txPorts)

/--
Every read that `xdp_main` makes for the frame finds in `seen` what it finds in `maps`.  Of
the ACL only the verdict has to be the same.
-/
structure SameReads (host : Host) (frame : Frame) (maps : Maps) (seen : Moments) : Prop where
  config : ∃ lists, (seen .config).config = { maps.config with aclLists := lists }
  verdict : marlinAclCheckAt seen (frame.parsed (seen .config).config) =
    marlinAclCheck maps (frame.parsed maps.config)
  vip : ∀ key, key = marlinLbVipKey (frame.parsed maps.config) →
    (seen .vip).vipMap.lookup key = maps.vipMap.lookup key
  anyPort : ∀ key, key = marlinLbVipKey (frame.parsed maps.config) →
    maps.vipMap.lookup key = none →
      (seen .anyPort).vipMap.lookup { key with port := 0 } =
        maps.vipMap.lookup { key with port := 0 }
  quicSlot : ∀ r, r = .quicState ∨ r = .quicSlot →
    ∀ vip, marlinLbSelectVip maps (frame.parsed maps.config) = some vip →
    vip.flags &&& vipQuic ≠ 0 → (frame.parsed maps.config).flags &&& marlinCtxFQuic ≠ 0 →
    ∀ id, id = (marlinLbQuicDecode host vip (frame.entry maps.config)).1 →
      id ≠ marlinNoBackend → id < maxBackends → (seen r).backends id = maps.backends id
  row : ∀ vip, marlinLbSelectVip maps (frame.parsed maps.config) = some vip →
    vip.vipNum < maxVips →
    ∀ key, key = marlinLbFkey (frame.parsed maps.config) vip →
      (seen .row).fwdTable key = maps.fwdTable key
  slot : ∀ vip, marlinLbSelectVip maps (frame.parsed maps.config) = some vip →
    vip.vipNum < maxVips →
    ∀ id, id = maps.fwdTable (marlinLbFkey (frame.parsed maps.config) vip) →
      id ≠ marlinNoBackend → id < maxBackends → (seen .slot).backends id = maps.backends id
  txPort : ∀ vip be, marlinLbSelectVip maps (frame.parsed maps.config) = some vip →
    frame.target host maps vip = some be → SamePorts host be.addr maps (seen .txPort)

/-! ## The lists that `config` announces -/

def MarlinCtx.withLists (pkt : MarlinCtx) (lists : UInt16) : MarlinCtx :=
  pkt.withCfg { pkt.cfg with aclLists := lists }

def Xdp.withLists (x : Xdp) (lists : UInt16) : Xdp := { x with pkt := x.pkt.withLists lists }

section Lists

variable (host : Host) (maps : Maps) (vip : VipMeta) (x : Xdp) (lists : UInt16)

theorem marlinLbAdmit_withLists (vmeta : Option VipMeta) :
    marlinLbAdmit host vmeta (x.withLists lists) =
      ((marlinLbAdmit host vmeta x).1, (marlinLbAdmit host vmeta x).2.withLists lists) := by
  cases vmeta with
  | none => rfl
  | some vip =>
      change (if vip.vipNum ≥ maxVips then _ else
        if marlinLbAclEnforce x.pkt (some vip) ≠ .ok then _ else _) = _
      simp only [marlinLbAdmit]
      split
      · rfl
      · split
        · rfl
        · simp only [marlinLbFilter]
          repeat' split
          all_goals first | rfl | contradiction

theorem marlinLbQuicDecode_withLists :
    marlinLbQuicDecode host vip (x.withLists lists) =
      ((marlinLbQuicDecode host vip x).1, (marlinLbQuicDecode host vip x).2.withLists lists) := by
  have hflags : (x.withLists lists).pkt.flags = x.pkt.flags := rfl
  have hpos : (x.withLists lists).pkt.l4Off = x.pkt.l4Off := rfl
  have hlen : (x.withLists lists).pkt.udpPayloadLen = x.pkt.udpPayloadLen := rfl
  have hframe : (x.withLists lists).frame = x.frame := rfl
  simp only [marlinLbQuicDecode, hflags, hpos, hlen, hframe]
  split
  · rfl
  split
  · rfl
  split
  · rfl
  cases host.loadBytes x.frame (x.pkt.l4Off + marlinUdpHlen + 1) 3 with
  | none => rfl
  | some header =>
      dsimp only
      split
      · rfl
      cases host.loadBytes x.frame (x.pkt.l4Off + marlinUdpHlen + 1 + marlinQuicCidEntropyOff)
          (vipQuicCidLen vip.flags - marlinQuicCidEntropyOff) with
      | none => rfl
      | some entropy =>
          dsimp only
          split
          · rfl
          · split <;> rfl

theorem marlinLbLoadBackend_withLists (target : Option Backend) :
    marlinLbLoadBackend target (x.withLists lists) =
      ((marlinLbLoadBackend target x).1, (marlinLbLoadBackend target x).2.withLists lists) := by
  cases target with
  | none => rfl
  | some be =>
      simp only [marlinLbLoadBackend]
      split <;> rfl

theorem marlinLbEncapPacket_withLists (frame : Frame) (pkt : MarlinCtx) :
    marlinLbEncapPacket host frame (pkt.withLists lists) =
      ((marlinLbEncapPacket host frame pkt).1, (marlinLbEncapPacket host frame pkt).2.1,
        (marlinLbEncapPacket host frame pkt).2.2.withLists lists) := by
  have hbackend : (pkt.withLists lists).backend = pkt.backend := rfl
  simp only [marlinLbEncapPacket, hbackend]
  split
  · change (if marlinIpipValidate pkt ≠ .ok then _ else _) = _
    simp only [marlinIpipEncapPacket]
    split
    · rfl
    cases host.adjustHead marlinOverheadIpip frame with
    | none => rfl
    | some data =>
        dsimp only
        split <;> rfl
  split
  · change (if marlinGueValidate pkt ≠ .ok then _ else _) = _
    simp only [marlinGueEncapPacket]
    split
    · rfl
    cases host.adjustHead marlinOverheadGue frame with
    | none => rfl
    | some data =>
        dsimp only
        split <;> rfl
  split
  · change (if marlinVxlanValidate pkt ≠ .ok then _ else _) = _
    simp only [marlinVxlanEncapPacket]
    split
    · rfl
    split
    · rfl
    cases host.adjustHead marlinOverheadVxlan frame with
    | none => rfl
    | some data =>
        dsimp only
        split <;> rfl
  · rfl

def MarlinCtx.marked (pkt : MarlinCtx) (vip : VipMeta) : MarlinCtx :=
  { pkt with flags := pkt.flags ||| (vip.flags &&& vipDscpMask) }

theorem marlinLbForward_withLists :
    marlinLbForward host maps vip (x.withLists lists) =
      ((marlinLbForward host maps vip x).1,
        (marlinLbForward host maps vip x).2.withLists lists) := by
  have hpkt : { (x.withLists lists).pkt with
      flags := (x.withLists lists).pkt.flags ||| (vip.flags &&& vipDscpMask) } =
        (x.pkt.marked vip).withLists lists := rfl
  have hvalid : marlinLbValidate (x.withLists lists).pkt = marlinLbValidate x.pkt := rfl
  have hmode : (x.withLists lists).pkt.backend.flags = x.pkt.backend.flags := rfl
  have hframe : (x.withLists lists).frame = x.frame := rfl
  simp only [marlinLbForward, hpkt, hvalid, hmode, hframe, marlinLbEncapPacket_withLists,
    MarlinCtx.marked]
  split
  · rfl
  split
  · split <;> rfl
  · rfl

end Lists

/-! ## The ports that a packet may leave by -/

section Ports

variable {host : Host} {mp mp' : Maps}

theorem marlinNexthopFib_samePorts {pkt : MarlinCtx} (h : SamePorts host pkt.backend.addr mp mp')
    (frame : Frame) (disc : MarlinNhDiscipline) (counters : Counters) :
    marlinNexthopFib host mp' frame pkt disc counters =
      marlinNexthopFib host mp frame pkt disc counters := by
  have hmem := h (marlinFibQuery host frame pkt) rfl
  have hnone :
      (mp'.txPorts.lookup (host.fibLookup (marlinFibQuery host frame pkt)).2.ifindex).isNone =
      (mp.txPorts.lookup (host.fibLookup (marlinFibQuery host frame pkt)).2.ifindex).isNone := by
    rw [← AList.lookup_isSome, ← AList.lookup_isSome] at hmem
    rw [← Option.not_isSome, ← Option.not_isSome, Bool.eq_iff_iff.mpr hmem]
  simp only [marlinNexthopFib, hnone]

theorem marlinNexthopEncapsulate_samePorts {pkt : MarlinCtx}
    (h : SamePorts host pkt.backend.addr mp mp') (frame : Frame) (counters : Counters) :
    marlinNexthopEncapsulate host mp' frame pkt counters =
      marlinNexthopEncapsulate host mp frame pkt counters := by
  simp only [marlinNexthopEncapsulate, marlinNexthopFib_samePorts h]

theorem marlinNexthopL2dsr_samePorts {pkt : MarlinCtx}
    (h : SamePorts host pkt.backend.addr mp mp') (frame : Frame) (counters : Counters) :
    marlinNexthopL2dsr host mp' frame pkt counters =
      marlinNexthopL2dsr host mp frame pkt counters := by
  simp only [marlinNexthopL2dsr, marlinNexthopFib_samePorts h]

theorem marlinLbEncapPacket_backend (host : Host) (frame : Frame) (pkt : MarlinCtx) :
    (marlinLbEncapPacket host frame pkt).2.2.backend = pkt.backend := by
  simp only [marlinLbEncapPacket, marlinIpipEncapPacket, marlinGueEncapPacket,
    marlinVxlanEncapPacket]
  repeat' split
  all_goals rfl

theorem marlinLbForward_samePorts {x : Xdp} (h : SamePorts host x.pkt.backend.addr mp mp')
    (vip : VipMeta) : marlinLbForward host mp' vip x = marlinLbForward host mp vip x := by
  have hencap := marlinLbEncapPacket_backend host x.frame (x.pkt.marked vip)
  have hafter : SamePorts host
      (marlinLbEncapPacket host x.frame (x.pkt.marked vip)).2.2.backend.addr mp mp' := by
    rw [hencap]
    exact h
  have hleave := marlinNexthopEncapsulate_samePorts hafter
  simp only [MarlinCtx.marked] at hleave
  simp only [marlinLbForward, hleave, marlinNexthopL2dsr_samePorts h]

end Ports

/-! ## Selection -/

section Selection

variable {host : Host} {frame : Frame} {maps : Maps} {vip : VipMeta} {x y : Xdp}

structure Xdp.SamePacket (x y : Xdp) : Prop where
  frame : y.frame = x.frame
  tuple : y.pkt.tuple = x.pkt.tuple
  flags : y.pkt.flags = x.pkt.flags
  l4Off : y.pkt.l4Off = x.pkt.l4Off
  udpPayloadLen : y.pkt.udpPayloadLen = x.pkt.udpPayloadLen

theorem Frame.entry_samePacket (frame : Frame) (cfg cfg' : MarlinConfig) :
    (frame.entry cfg).SamePacket (frame.entry cfg') := by
  have hparsed : (frame.entry cfg').pkt = (frame.entry cfg).pkt.withCfg cfg' :=
    frame.parsed_withCfg cfg cfg'
  constructor
  · rfl
  all_goals
    rw [hparsed]
    rfl

theorem Xdp.Holds.samePacket (h : x.Holds frame maps.config) :
    (frame.entry maps.config).SamePacket x := by
  obtain ⟨hframe, verdict, hpkt⟩ := h
  constructor
  · exact hframe
  all_goals rw [hpkt]; rfl

theorem marlinLbQuicDecode_samePacket (host : Host) (vip : VipMeta) (h : x.SamePacket y) :
    (marlinLbQuicDecode host vip y).1 = (marlinLbQuicDecode host vip x).1 := by
  simp only [marlinLbQuicDecode, h.frame, h.flags, h.l4Off, h.udpPayloadLen]
  repeat' split
  all_goals rfl

theorem marlinLbSelectBackendByHash_samePacket (maps : Maps) (vip : VipMeta)
    (h : x.SamePacket y) : marlinLbSelectBackendByHash maps y.pkt vip =
      marlinLbSelectBackendByHash maps x.pkt vip := by
  have hkey : marlinLbFkey y.pkt vip = marlinLbFkey x.pkt vip := by
    simp only [marlinLbFkey, marlinLbMix, h.tuple]
  simp only [marlinLbSelectBackendByHash, hkey]

theorem marlinLbSelectBackendQuic_congr {seen : Maps} (h : ∀ id,
      id = (marlinLbQuicDecode host vip x).1 → id ≠ marlinNoBackend → id < maxBackends →
      seen.backends id = maps.backends id) :
    marlinLbSelectBackendQuic host seen vip x = marlinLbSelectBackendQuic host maps vip x := by
  simp only [marlinLbSelectBackendQuic]
  split
  · rfl
  · next hid =>
    have hslot : seen.backendAt (marlinLbQuicDecode host vip x).1 =
        maps.backendAt (marlinLbQuicDecode host vip x).1 := by
      simp only [Maps.backendAt]
      split
      · next hlt => rw [h _ rfl hid hlt]
      · rfl
    rw [hslot]

theorem marlinLbSelectBackendByHash_congr {seen : Maps} {pkt : MarlinCtx}
    (hrow : vip.vipNum < maxVips →
      seen.fwdTable (marlinLbFkey pkt vip) = maps.fwdTable (marlinLbFkey pkt vip))
    (hslot : vip.vipNum < maxVips → ∀ id, id = maps.fwdTable (marlinLbFkey pkt vip) →
      id ≠ marlinNoBackend → id < maxBackends → seen.backends id = maps.backends id) :
    marlinLbSelectBackendByHash seen pkt vip = marlinLbSelectBackendByHash maps pkt vip := by
  simp only [marlinLbSelectBackendByHash]
  split
  · rfl
  · next hnum =>
    have hnum : vip.vipNum < maxVips := Nat.lt_of_not_le hnum
    rw [hrow hnum]
    split
    · rfl
    split
    · rfl
    · next hid =>
      rw [not_or] at hid
      have hlt := Nat.lt_of_not_le hid.2
      rw [Maps.backendAt, Maps.backendAt, hslot hnum _ rfl hid.1 hlt]

theorem marlinLbSelectBackendQuic_withLists (host : Host) (maps : Maps) (vip : VipMeta) (x : Xdp)
    (lists : UInt16) : marlinLbSelectBackendQuic host maps vip (x.withLists lists) =
      ((marlinLbSelectBackendQuic host maps vip x).1,
        (marlinLbSelectBackendQuic host maps vip x).2.withLists lists) := by
  simp only [marlinLbSelectBackendQuic, marlinLbQuicDecode_withLists]
  split
  · rfl
  · cases maps.backendAt (marlinLbQuicDecode host vip x).1 with
    | none => rfl
    | some be =>
        dsimp only
        split <;> rfl

theorem marlinLbSelectBackendQuic_samePacket (host : Host) (maps : Maps) (vip : VipMeta)
    (h : x.SamePacket y) : (marlinLbSelectBackendQuic host maps vip y).1 =
      (marlinLbSelectBackendQuic host maps vip x).1 := by
  simp only [marlinLbSelectBackendQuic, marlinLbQuicDecode_samePacket host vip h]
  split
  · rfl
  · cases maps.backendAt (marlinLbQuicDecode host vip x).1 with
    | none => rfl
    | some be =>
        dsimp only
        split <;> rfl

theorem marlinLbSelectBackend_fst (host : Host) (maps : Maps) (vip : VipMeta) (x : Xdp) :
    (marlinLbSelectBackend host maps vip x).1 =
      if vip.flags &&& vipQuic ≠ 0 ∧ x.pkt.flags &&& marlinCtxFQuic ≠ 0 then
        (marlinLbSelectBackendQuic host maps vip x).1.or
          (marlinLbSelectBackendByHash maps x.pkt vip)
      else marlinLbSelectBackendByHash maps x.pkt vip := by
  have hpkt := marlinLbSelectBackendQuic_pkt host maps vip x
  simp only [marlinLbSelectBackend]
  split
  · split
    · next hquic =>
      rw [hquic]
      rfl
    · next hquic =>
      rw [hquic] at hpkt ⊢
      rw [← hpkt]
      rfl
  · rfl

theorem marlinLbSelectBackend_samePacket (host : Host) (maps : Maps) (vip : VipMeta)
    (h : x.SamePacket y) :
    (marlinLbSelectBackend host maps vip y).1 = (marlinLbSelectBackend host maps vip x).1 := by
  rw [marlinLbSelectBackend_fst, marlinLbSelectBackend_fst, h.flags,
    marlinLbSelectBackendQuic_samePacket host maps vip h,
    marlinLbSelectBackendByHash_samePacket maps vip h]

end Selection

theorem marlinLbAdmit_frame (host : Host) (vip : VipMeta) (x : Xdp) :
    (marlinLbAdmit host (some vip) x).2.frame = x.frame := by
  simp only [marlinLbAdmit, marlinLbFilter]
  repeat' split
  all_goals rfl

theorem marlinLbLoadBackend_ok {target : Option Backend} {x : Xdp}
    (h : (marlinLbLoadBackend target x).1 = .ok) :
    ∃ be, target = some be ∧ (marlinLbLoadBackend target x).2.pkt.backend = be := by
  cases target with
  | none => cases h
  | some be =>
      refine ⟨be, rfl, ?_⟩
      simp only [marlinLbLoadBackend]
      split <;> rfl

/-! ## The same reads, the same outcome -/

section

variable {host : Host} {frame : Frame} {maps : Maps} {seen : Moments}

theorem SameReads.selectVip (h : SameReads host frame maps seen) :
    marlinLbSelectVipAt seen (frame.parsed maps.config) =
      marlinLbSelectVip maps (frame.parsed maps.config) := by
  simp only [marlinLbSelectVipAt, marlinLbSelectVip, h.vip _ rfl]
  cases hexact : maps.vipMap.lookup (marlinLbVipKey (frame.parsed maps.config)) with
  | some hit => rfl
  | none => exact h.anyPort _ rfl hexact

theorem SameReads.select (h : SameReads host frame maps seen) {vip : VipMeta}
    (hvip : marlinLbSelectVip maps (frame.parsed maps.config) = some vip) {x : Xdp}
    (hx : x.Holds frame maps.config) (lists : UInt16) :
    marlinLbSelectBackendAt host seen vip (x.withLists lists) =
      ((marlinLbSelectBackend host maps vip x).1,
        (marlinLbSelectBackend host maps vip x).2.withLists lists) := by
  have hsame := hx.samePacket
  have hkey : marlinLbFkey x.pkt vip = marlinLbFkey (frame.parsed maps.config) vip := by
    have htuple : x.pkt.tuple = (frame.parsed maps.config).tuple := hsame.tuple
    simp only [marlinLbFkey, marlinLbMix, htuple]
  have hhash : ∀ y : Xdp, y.pkt = x.pkt → marlinLbSelectBackendByHash
      { seen .slot with fwdTable := (seen .row).fwdTable } (y.withLists lists).pkt vip =
        marlinLbSelectBackendByHash maps y.pkt vip := by
    intro y hy
    change marlinLbSelectBackendByHash _ y.pkt vip = _
    refine marlinLbSelectBackendByHash_congr (fun hnum => ?_) fun hnum id hid => ?_
    · rw [hy, hkey]
      exact h.row vip hvip hnum _ rfl
    · rw [hy, hkey] at hid
      exact h.slot vip hvip hnum id hid
  have hflags : (x.withLists lists).pkt.flags = x.pkt.flags := rfl
  simp only [marlinLbSelectBackendAt, marlinLbSelectBackend, hflags]
  split
  · next hquic =>
    have hparsed : x.pkt.flags = (frame.parsed maps.config).flags := hsame.flags
    have hslot : ∀ r, r = .quicState ∨ r = .quicSlot → ∀ id,
        id = (marlinLbQuicDecode host vip x).1 → id ≠ marlinNoBackend → id < maxBackends →
          (seen r).backends id = maps.backends id := by
      intro r hr id hid
      rw [marlinLbQuicDecode_samePacket host vip hsame] at hid
      exact h.quicSlot r hr vip hvip hquic.1 (hparsed ▸ hquic.2) id hid
    have hread : marlinLbSelectBackendQuic host (seen .quicState) vip x =
        marlinLbSelectBackendQuic host maps vip x :=
      marlinLbSelectBackendQuic_congr (hslot .quicState (Or.inl rfl))
    have hpkt := marlinLbSelectBackendQuic_pkt host maps vip x
    have hsome := @marlinLbSelectBackendQuic_some host maps vip
    rw [marlinLbSelectBackendQuic_withLists, marlinLbQuicDecode_withLists, hread]
    cases hresult : marlinLbSelectBackendQuic host maps vip x with
    | mk target after =>
        rw [hresult] at hpkt
        cases target with
        | some be =>
            obtain ⟨id, hne, hlt, hid, hbe⟩ := hsome (congrArg Prod.fst hresult)
            have hcopied := hslot .quicSlot (Or.inr rfl) id hid.symm hne hlt
            dsimp only
            rw [hid, Maps.backendAt, if_pos hlt, hcopied, hbe]
        | none => exact Prod.ext (hhash after hpkt) rfl
  · exact Prod.ext (hhash x rfl) rfl

theorem SameReads.processPacket (h : SameReads host frame maps seen) {vip : VipMeta}
    (hvip : marlinLbSelectVip maps (frame.parsed maps.config) = some vip) {x : Xdp}
    (hx : x.Holds frame maps.config) (lists : UInt16) :
    marlinLbProcessPacketAt host seen vip (x.withLists lists) =
      ((marlinLbProcessPacket host maps vip x).1,
        (marlinLbProcessPacket host maps vip x).2.withLists lists) := by
  have hfrag : marlinLbCheckFrag (x.withLists lists).pkt vip = marlinLbCheckFrag x.pkt vip := rfl
  have htarget : (marlinLbSelectBackend host maps vip x).1 = frame.target host maps vip :=
    marlinLbSelectBackend_samePacket host maps vip hx.samePacket
  simp only [marlinLbProcessPacketAt, marlinLbProcessPacket, hfrag, h.select hvip hx]
  split
  · rfl
  · rw [marlinLbLoadBackend_withLists]
    split
    · rfl
    · next hloaded =>
      obtain ⟨be, hbe, hbackend⟩ := marlinLbLoadBackend_ok (not_not.mp hloaded)
      have hports := h.txPort vip be hvip (htarget ▸ hbe)
      rw [← hbackend] at hports
      rw [marlinLbForward_withLists, marlinLbForward_samePorts hports]

theorem marlinLbProcessAt_none (host : Host) {seen : Moments} {x : Xdp}
    {verdict : MarlinAclVerdict} (hverdict : marlinAclCheckAt seen x.pkt = verdict)
    (hvip : marlinLbSelectVipAt seen x.pkt = none) :
    marlinLbProcessAt host seen x =
      marlinLbAdmit host none { x with pkt := { x.pkt with aclVerdict := verdict } } := by
  subst hverdict
  have hvip' : marlinLbSelectVipAt seen { x.pkt with
    aclVerdict := marlinAclCheckAt seen x.pkt } = none := hvip
  simp only [marlinLbProcessAt, hvip']
  split <;> rfl

theorem marlinLbProcessAt_some (host : Host) {seen : Moments} {x : Xdp}
    {verdict : MarlinAclVerdict} (hverdict : marlinAclCheckAt seen x.pkt = verdict)
    {vip : VipMeta} (hvip : marlinLbSelectVipAt seen x.pkt = some vip) :
    marlinLbProcessAt host seen x =
      let r := marlinLbAdmit host (some vip) { x with pkt := { x.pkt with aclVerdict := verdict } }
      if r.1 ≠ .ok then r else marlinLbProcessPacketAt host seen vip r.2 := by
  subst hverdict
  have hvip' : marlinLbSelectVipAt seen { x.pkt with
    aclVerdict := marlinAclCheckAt seen x.pkt } = some vip := hvip
  simp only [marlinLbProcessAt, hvip']

theorem SameReads.process (h : SameReads host frame maps seen) {lists : UInt16}
    (hlists : (seen .config).config = { maps.config with aclLists := lists })
    (counters : Counters) (buckets : RatelimitMap) :
    let x : Xdp := ⟨frame, frame.parsed maps.config, counters, buckets⟩
    marlinLbProcessAt host seen (x.withLists lists) =
      ((marlinLbProcess host maps x).1, (marlinLbProcess host maps x).2.withLists lists) := by
  intro x
  have hcfg : (frame.parsed maps.config).cfg = maps.config :=
    congrArg MarlinCtx.cfg (frame.parsed_withCfg maps.config maps.config)
  have hparsed : (x.withLists lists).pkt = frame.parsed (seen .config).config := by
    rw [hlists, frame.parsed_withCfg maps.config]
    change (frame.parsed maps.config).withCfg { (frame.parsed maps.config).cfg with
      aclLists := lists } = _
    rw [hcfg]
  let y : Xdp := { x with pkt := { x.pkt with aclVerdict := marlinAclCheck maps x.pkt } }
  have hverdict : marlinAclCheckAt seen (x.withLists lists).pkt = marlinAclCheck maps x.pkt := by
    rw [hparsed, h.verdict]
  rw [← marlinLbProcessAt_still]
  cases hvip : marlinLbSelectVip maps x.pkt with
  | none =>
      rw [marlinLbProcessAt_none host hverdict (h.selectVip.trans hvip),
        @marlinLbProcessAt_none host (fun _ => maps) _ _ rfl hvip]
      exact marlinLbAdmit_withLists host y lists none
  | some vip =>
      have hraced : marlinLbProcessAt host seen (x.withLists lists) =
          let r := marlinLbAdmit host (some vip) (y.withLists lists)
          if r.1 ≠ .ok then r else marlinLbProcessPacketAt host seen vip r.2 :=
        marlinLbProcessAt_some host hverdict (h.selectVip.trans hvip)
      have halone : marlinLbProcessAt host (fun _ => maps) x =
          let r := marlinLbAdmit host (some vip) y
          if r.1 ≠ .ok then r else marlinLbProcessPacket host maps vip r.2 := by
        rw [← marlinLbProcessPacketAt_still]
        exact marlinLbProcessAt_some host rfl hvip
      have hholds : (marlinLbAdmit host (some vip) y).2.Holds frame maps.config :=
        ⟨marlinLbAdmit_frame host vip y, _, marlinLbAdmit_pkt host vip y⟩
      rw [hraced, halone]
      simp only [marlinLbAdmit_withLists, h.processPacket hvip hholds]
      split <;> rfl

/-- What a packet's reads find decides what becomes of it. -/
theorem SameReads.raced (h : SameReads host frame maps seen) (counters : Counters)
    (buckets : RatelimitMap) :
    ∃ lists, xdpMainAt host seen frame counters buckets =
      ((xdpMain host maps frame counters buckets).1,
        (xdpMain host maps frame counters buckets).2.withLists lists) := by
  obtain ⟨lists, hlists⟩ := h.config
  have hcfg : (frame.parsed maps.config).cfg = maps.config :=
    congrArg MarlinCtx.cfg (frame.parsed_withCfg maps.config maps.config)
  have hparse : marlinParse frame (MarlinCtx.start (seen .config).config) =
      ((marlinParse frame (MarlinCtx.start maps.config)).1,
        (frame.parsed maps.config).withLists lists) := by
    refine (marlinParse_withCfg frame (MarlinCtx.start maps.config) (seen .config).config).trans ?_
    rw [MarlinCtx.withLists, hcfg, ← hlists]
    rfl
  refine ⟨lists, ?_⟩
  simp only [xdpMainAt, xdpMain, hparse]
  split
  · rfl
  · have hcore := h.process hlists counters buckets
    simp only [Xdp.withLists] at hcore
    rw [hcore]
    rfl

end

end Marlin
