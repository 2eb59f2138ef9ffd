import Marlin.Bpf.Acl
import Marlin.Bpf.Encap
import Marlin.Bpf.Nexthop
import Marlin.Bpf.Parser
import Marlin.Bpf.Ratelimit
import Marlin.Siphash

/-!
# The load-balancing core

`lb_core.c` and `main.c`.  A run of the program threads the frame, the context,
this CPU's counters and the rate-limit buckets; the other maps are only read.
-/

namespace Marlin

structure Xdp where
  frame : Frame
  pkt : MarlinCtx
  counters : Counters
  buckets : RatelimitMap

def Xdp.count (x : Xdp) (rc : MarlinRet) : Xdp :=
  { x with counters := marlinStatsReason rc x.counters }

/-! ## VIP resolution and admission -/

def marlinLbVipKey (pkt : MarlinCtx) : VipKey :=
  { addr := if pkt.tuple.family = afInet then ⟨pkt.tuple.dst.w0, 0, 0, 0⟩ else pkt.tuple.dst
    port := pkt.tuple.dport
    proto := pkt.tuple.proto
    family := pkt.tuple.family }

def marlinLbSelectVip (maps : Maps) (pkt : MarlinCtx) : Option VipMeta :=
  let key := marlinLbVipKey pkt
  match maps.vipMap.lookup key with
  | some hit => some hit
  | none => maps.vipMap.lookup { key with port := 0 }

/-- `marlin_lb_acl_enforce`; without a VIP every block counts. -/
def marlinLbAclEnforce (pkt : MarlinCtx) (vmeta : Option VipMeta) : MarlinRet :=
  if pkt.aclVerdict ≠ .block then .ok
  else
    match vmeta with
    | some vip => if vip.flags &&& vipAcl = 0 then .ok else .dropAclBlocked
    | none => .dropAclBlocked

def marlinLbFilter (host : Host) (vflags : UInt32) (x : Xdp) : MarlinRet × Xdp :=
  if x.pkt.cfg.flags &&& cfgRlEnable = 0 then (.ok, x)
  else if vflags &&& vipRatelimit = 0 then (.ok, x)
  else if x.pkt.aclVerdict = .allow then (.ok, x)
  else
    let r := marlinRatelimit host x.pkt x.counters x.buckets
    (r.rc, { x with counters := r.counters, buckets := r.buckets })

def marlinLbAdmit (host : Host) (vmeta : Option VipMeta) (x : Xdp) : MarlinRet × Xdp :=
  match vmeta with
  | none =>
      let ret := marlinLbAclEnforce x.pkt none
      (if ret ≠ .ok then ret else .passVipMiss, x)
  | some vip =>
      if vip.vipNum ≥ maxVips then (.dropMapBounds, x)
      else
        let x := { x with counters := marlinStatsVip vip.vipNum x.pkt.pktLen x.counters }
        let ret := marlinLbAclEnforce x.pkt (some vip)
        if ret ≠ .ok then (ret, x) else marlinLbFilter host vip.flags x

def marlinLbCheckFrag (pkt : MarlinCtx) (vip : VipMeta) : MarlinRet :=
  if vip.flags &&& (vipHash5tuple ||| vipHashPorts) = 0 then .ok
  else if pkt.flags &&& marlinCtxFFragAny = 0 then .ok
  else .dropFragUnsupported

/-! ## Selection -/

def marlinQuicCidMin : Nat := 7
def marlinQuicCidMax : Nat := 20
def marlinQuicCidGenMask : UInt8 := 0xc0
def marlinQuicCidCheckMask : UInt8 := 0x3f
def marlinQuicCidEntropyOff : Nat := 3
def marlinQuicSiphashDomain : UInt8 := 0x51

def marlinQuicInput (entropy : List UInt8) : List UInt8 :=
  marlinQuicSiphashDomain :: (List.range 17).map (fun i => entropy.getD i 0) ++
    [0, 0, 0, 0, 0, 0]

def marlinLbQuicDecode (host : Host) (vip : VipMeta) (x : Xdp) : Nat × Xdp :=
  let clen := vipQuicCidLen vip.flags
  let pos := x.pkt.l4Off + marlinUdpHlen + 1
  if x.pkt.flags &&& marlinCtxFFragAny ≠ 0 then (marlinNoBackend, x)
  else if clen < marlinQuicCidMin ∨ clen > marlinQuicCidMax then (marlinNoBackend, x)
  else if x.pkt.udpPayloadLen < 1 + clen then (marlinNoBackend, x)
  else
    match host.loadBytes x.frame pos 3 with
    | none => (marlinNoBackend, x)
    | some header =>
        let format := header.getD 0 0
        if format &&& marlinQuicCidGenMask ≠ 0 then
          (marlinNoBackend, x.count .countQuicCidCheckFailed)
        else
          match host.loadBytes x.frame (pos + marlinQuicCidEntropyOff)
              (clen - marlinQuicCidEntropyOff) with
          | none => (marlinNoBackend, x)
          | some entropy =>
              let mix := marlinSiphash (marlinQuicInput entropy) vip.hashKey
              if format &&& marlinQuicCidCheckMask ≠
                  (mix >>> 16).toUInt8 &&& marlinQuicCidCheckMask then
                (marlinNoBackend, x.count .countQuicCidCheckFailed)
              else
                let id := (((header.getD 1 0).toUInt32 <<< 8) |||
                  (header.getD 2 0).toUInt32) ^^^ (mix &&& 0xffff).toUInt32
                if id.toNat ≥ maxBackends then (marlinNoBackend, x) else (id.toNat, x)

def marlinLbMix (pkt : MarlinCtx) (vip : VipMeta) : UInt64 :=
  if vip.flags &&& vipHash5tuple ≠ 0 then marlinSiphash pkt.tuple.bytes vip.hashKey
  else if vip.flags &&& vipHashPorts ≠ 0 then
    marlinSiphash (pkt.tuple.sport.bytes ++ pkt.tuple.dport.bytes ++ [0, 0, 0, 0]) vip.hashKey
  else marlinSiphash pkt.tuple.src.bytes vip.hashKey

/-- The `fwd_table` key, whose product is computed in 32 bits. -/
def marlinLbFkey (pkt : MarlinCtx) (vip : VipMeta) : Nat :=
  (vip.vipNum * tableSize + (marlinLbMix pkt vip).toNat % tableSize) % 2 ^ 32

def Maps.backendAt (maps : Maps) (bid : Nat) : Option Backend :=
  if bid < maxBackends then some (maps.backends bid) else none

def marlinLbSelectBackendByHash (maps : Maps) (pkt : MarlinCtx) (vip : VipMeta) :
    Option Backend :=
  if vip.vipNum ≥ maxVips then none
  else
    let fkey := marlinLbFkey pkt vip
    if fkey ≥ maxFwdEntries then none
    else
      let bid := maps.fwdTable fkey
      if bid = marlinNoBackend ∨ bid ≥ maxBackends then none else maps.backendAt bid

def marlinLbSelectBackendQuic (host : Host) (maps : Maps) (vip : VipMeta) (x : Xdp) :
    Option Backend × Xdp :=
  let (bid, x) := marlinLbQuicDecode host vip x
  if bid = marlinNoBackend then (none, x)
  else
    match maps.backendAt bid with
    | none => (none, x)
    | some be =>
        if be.flags &&& marlinBeFState = 0 then (none, x)
        else (some be, x.count .countQuicCidRouted)

def marlinLbSelectBackend (host : Host) (maps : Maps) (vip : VipMeta) (x : Xdp) :
    Option Backend × Xdp :=
  if vip.flags &&& vipQuic ≠ 0 ∧ x.pkt.flags &&& marlinCtxFQuic ≠ 0 then
    match marlinLbSelectBackendQuic host maps vip x with
    | (some be, x) => (some be, x)
    | (none, x) => (marlinLbSelectBackendByHash maps x.pkt vip, x)
  else (marlinLbSelectBackendByHash maps x.pkt vip, x)

def marlinLbLoadBackend (target : Option Backend) (x : Xdp) : MarlinRet × Xdp :=
  match target with
  | none => (.dropNoBackend, x)
  | some be =>
      let x := { x with
        pkt := { x.pkt with backend := be }
        counters := marlinStatsBackend be.id x.pkt.pktLen x.counters }
      if be.flags &&& marlinBeFState = 0 then (.dropBackendDown, x) else (.ok, x)

/-! ## Forwarding -/

def marlinLbValidate (pkt : MarlinCtx) (length : Nat) : MarlinRet :=
  if pkt.pktLen < ethHlen then .dropEncapLength
  else if length ≠ pkt.pktLen then .dropEncapLength
  else .ok

def marlinLbEncapPacket (host : Host) (frame : Frame) (pkt : MarlinCtx) :
    MarlinRet × Frame × MarlinCtx :=
  let mode := encapMode pkt.backend.flags
  if mode = marlinModeIpip then marlinIpipEncapPacket host frame pkt
  else if mode = marlinModeGue then marlinGueEncapPacket host frame pkt
  else if mode = marlinModeVxlan then marlinVxlanEncapPacket host frame pkt
  else (.dropMapBounds, frame, pkt)

/-- The tail of `marlin_lb_process_packet`, once a backend is loaded. -/
def marlinLbForward (host : Host) (maps : Maps) (vip : VipMeta) (x : Xdp) :
    MarlinRet × Xdp :=
  let rc := marlinLbValidate x.pkt x.frame.length
  if rc ≠ .ok then (rc, x)
  else if encapMode x.pkt.backend.flags ≠ marlinModeL2dsr then
    let pkt := { x.pkt with flags := x.pkt.flags ||| (vip.flags &&& vipDscpMask) }
    let (rc, frame, pkt) := marlinLbEncapPacket host x.frame pkt
    if rc ≠ .ok then (rc, { x with frame := frame, pkt := pkt })
    else
      let r := marlinNexthopEncapsulate host maps frame pkt x.counters
      (r.rc, { x with frame := r.frame, pkt := pkt, counters := r.counters })
  else
    let r := marlinNexthopL2dsr host maps x.frame x.pkt x.counters
    (r.rc, { x with frame := r.frame, counters := r.counters })

def marlinLbProcessPacket (host : Host) (maps : Maps) (vip : VipMeta) (x : Xdp) :
    MarlinRet × Xdp :=
  let rc := marlinLbCheckFrag x.pkt vip
  if rc ≠ .ok then (rc, x)
  else
    let (target, x) := marlinLbSelectBackend host maps vip x
    let (rc, x) := marlinLbLoadBackend target x
    if rc ≠ .ok then (rc, x) else marlinLbForward host maps vip x

def marlinLbProcess (host : Host) (maps : Maps) (x : Xdp) : MarlinRet × Xdp :=
  let x := { x with pkt := { x.pkt with aclVerdict := marlinAclCheck maps x.pkt } }
  let vmeta := marlinLbSelectVip maps x.pkt
  let (rc, x) := marlinLbAdmit host vmeta x
  if rc ≠ .ok then (rc, x)
  else
    match vmeta with
    | none => (rc, x)
    | some vip => marlinLbProcessPacket host maps vip x

/-! ## The entry point -/

inductive XdpAction where
  | aborted
  | drop
  | pass
  | tx
  | redirect
  deriving DecidableEq, Repr

def marlinAction : MarlinRet → XdpAction
  | .passVipMiss | .passIcmpEcho | .passNotForwarded => .pass
  | .okTx => .tx
  | .okRedirect => .redirect
  | .dropNoTxPort | .abortNullref => .aborted
  | _ => .drop

def xdpMain (host : Host) (maps : Maps) (frame : Frame) (counters : Counters)
    (buckets : RatelimitMap) : XdpAction × Xdp :=
  let (rc, pkt) := marlinParse frame (MarlinCtx.start maps.config)
  let x : Xdp := ⟨frame, pkt, counters, buckets⟩
  if rc ≠ .ok then (marlinAction rc, x.count rc)
  else
    let (rc, x) := marlinLbProcess host maps x
    (marlinAction rc, x.count rc)

/-! ## Frames that reach the core -/

def Frame.Accepted (frame : Frame) (cfg : MarlinConfig) : Prop :=
  (marlinParse frame (MarlinCtx.start cfg)).1 = .ok

def Frame.parsed (frame : Frame) (cfg : MarlinConfig) : MarlinCtx :=
  (marlinParse frame (MarlinCtx.start cfg)).2

theorem Frame.parsed_withCfg (frame : Frame) (cfg cfg' : MarlinConfig) :
    frame.parsed cfg' = (frame.parsed cfg).withCfg cfg' :=
  congrArg Prod.snd (marlinParse_withCfg frame (MarlinCtx.start cfg) cfg')

theorem Frame.parsed_tuple (frame : Frame) (cfg cfg' : MarlinConfig) :
    (frame.parsed cfg').tuple = (frame.parsed cfg).tuple := by
  rw [frame.parsed_withCfg cfg cfg']
  rfl

theorem Frame.parsed_vipKey (frame : Frame) (cfg cfg' : MarlinConfig) :
    marlinLbVipKey (frame.parsed cfg') = marlinLbVipKey (frame.parsed cfg) := by
  rw [frame.parsed_withCfg cfg cfg']
  rfl

theorem Frame.Accepted.withCfg {frame : Frame} {cfg : MarlinConfig} (h : frame.Accepted cfg)
    (cfg' : MarlinConfig) : frame.Accepted cfg' :=
  (congrArg Prod.fst (marlinParse_withCfg frame (MarlinCtx.start cfg) cfg')).trans h

/-- The core's view of a parsed frame, whatever else has happened by then. -/
def Xdp.Holds (x : Xdp) (frame : Frame) (cfg : MarlinConfig) : Prop :=
  x.frame = frame ∧
    ∃ verdict, x.pkt = { frame.parsed cfg with aclVerdict := verdict }

theorem Xdp.holds_parsed (frame : Frame) (cfg : MarlinConfig) (counters : Counters)
    (buckets : RatelimitMap) : Xdp.Holds ⟨frame, frame.parsed cfg, counters, buckets⟩ frame cfg :=
  ⟨rfl, (frame.parsed cfg).aclVerdict, rfl⟩

theorem xdpMain_accepted (host : Host) {maps : Maps} {frame : Frame}
    (h : frame.Accepted maps.config) (counters : Counters) (buckets : RatelimitMap) :
    xdpMain host maps frame counters buckets =
      let r := marlinLbProcess host maps ⟨frame, frame.parsed maps.config, counters, buckets⟩
      (marlinAction r.1, r.2.count r.1) := by
  have hrc : (marlinParse frame (MarlinCtx.start maps.config)).1 = .ok := h
  simp only [xdpMain, hrc, ne_eq, not_true_eq_false, if_false, Frame.parsed]

end Marlin
