import Marlin.Marlind.FwdGen
import Marlin.Marlind.Maps
import Marlin.Marlind.VipAlloc

/-!
# The reconciler

`reconcile.c`, function by function.  A function that returns `false` after
`conf_diag_add` stops the whole reconcile, which is what every caller in the
source does with that answer.  The reconciler is parametrised by the score of
the table generator and by how the kernel reads the key handed to `backends`.
-/

namespace Marlin

open Marlin.Library

/-! ## Opening the maps -/

def findMapFd (name : String) : Reconcile Bool := do
  match ← Stepwise.ask fun e => e.mapFd name with
  | .missing => do
      Stepwise.say s!"no such map: {name} (was marlin.bpf.o built from the same ABI as this marlind?)"
      pure false
  | .closed => do
      Stepwise.say s!"map {name} has no open file descriptor"
      pure false
  | .opened => pure true

def openMaps : Reconcile Unit := do
  let config ← findMapFd "config"
  let backends ← findMapFd "backends"
  let fwdTable ← findMapFd "fwd_table"
  let vipMap ← findMapFd "vip_map"
  let txPorts ← findMapFd "tx_ports"
  let aclAllowV4 ← findMapFd "acl_allow_v4"
  let aclBlockV4 ← findMapFd "acl_block_v4"
  let aclAllowV6 ← findMapFd "acl_allow_v6"
  let aclBlockV6 ← findMapFd "acl_block_v6"
  if config && backends && fwdTable && vipMap && txPorts && aclAllowV4 && aclBlockV4 &&
      aclAllowV6 && aclBlockV6 then pure ()
  else Stepwise.stop

/-! ## fwd_table block writes -/

/-- The keys of a block, computed in 32 bits, with the value of each. -/
def fwdBlock (vipNum : Nat) (values : Nat → Nat) : List (Nat × Nat) :=
  (List.range tableSize).map fun i => ((vipNum * tableSize + i) % 2 ^ 32, values i)

def writeFwdRow (kv : Nat × Nat) : Reconcile Unit := do
  match ← updateFwd kv.1 kv.2 with
  | none => pure ()
  | some errno => failErrno s!"fwd_table[{kv.1}]: " errno

def writeFwdBlock (vipNum : Nat) (values : Nat → Nat) : Reconcile Unit := do
  if ← callocFails then fail s!"out of memory writing fwd_table[{vipNum}]"
  else do
    let answer ← updateFwdBatch (fwdBlock vipNum values)
    if answer.1 = none ∧ answer.2 = tableSize then pure ()
    else Stepwise.forEach writeFwdRow (fwdBlock vipNum values)

def zeroFwdBlock (vipNum : Nat) : Reconcile Unit := do
  if ← callocFails then fail s!"out of memory zeroing fwd_table[{vipNum}]"
  else writeFwdBlock vipNum fun _ => marlinNoBackend

/-! ## vip_num allocation -/

/-- The loop of `read_vip_baseline`, with `room` rows left below `MAX_VIPS`. -/
def readVipBaselineFrom (room : Nat) (prev : Option VipKey) (out : List VipAllocBaseline) :
    Reconcile (List VipAllocBaseline) := do
  match ← vipMapRef.getNextKey prev with
  | .error errno =>
      if errno = .enoent then pure out
      else failErrno "reading vip_map keys: " errno
  | .ok key =>
      match room with
      | 0 => fail s!"vip_map baseline exceeds MAX_VIPS ({maxVips})"
      | room + 1 => do
          match ← vipMapRef.lookupElem key with
          | .error errno => failErrno "reading vip_map value: " errno
          | .ok vipMeta =>
              if vipMeta.vipNum ≥ maxVips then
                fail s!"vip_map baseline vip_num {vipMeta.vipNum} exceeds MAX_VIPS ({maxVips})"
              else readVipBaselineFrom room (some key) (out ++ [⟨key, vipMeta.vipNum⟩])

def readVipBaseline : Reconcile (List VipAllocBaseline) := readVipBaselineFrom maxVips none []

/-- The assignment and the plan; the assignment is `conf->vips[i].meta.vip_num`. -/
def allocateVipNums (conf : MarlinConf) (baseline : List VipAllocBaseline) :
    Reconcile VipAllocResult :=
  if conf.vips.length > maxVips then
    fail s!"{conf.vips.length} [[vip]] entries, more than MAX_VIPS ({maxVips})"
  else
    let result := vipAlloc (conf.vips.map ConfVip.keys) baseline
    if result.ok = false then
      fail s!"cannot safely allocate and order [[vip]] entries within MAX_VIPS ({maxVips}) blocks"
    else pure result

/-! ## ACL tries -/

/-- `reconcile_acl_v4` and `reconcile_acl_v6`, which differ in the key they build. -/
def reconcileAcl {K : Type} [DecidableEq K] (ref : TableRef K Nat) (want : ConfAclEntry → K)
    (family : String) (entries : List ConfAclEntry) : Reconcile Unit := do
  if ← callocFails then fail "out of memory reconciling an ACL trie"
  else do
    let existing ← ref.collectKeys maxAclEntries none
    entries.zipIdx |> Stepwise.forEach fun entry => do
      match ← ref.updateElem (want entry.1) entry.2 with
      | none => pure ()
      | some errno => failErrno s!"acl trie ({family}) update failed: " errno
    existing |> Stepwise.forEach fun key => do
      if entries.any fun entry => want entry == key then pure ()
      else do
        match ← ref.deleteElem key with
        | none => pure ()
        | some errno =>
            if errno = .enoent then pure ()
            else failErrno s!"acl trie ({family}) delete failed: " errno

def wantAclV4 (entry : ConfAclEntry) : AclKey4 := ⟨entry.prefixlen, entry.addr.w0⟩

def wantAclV6 (entry : ConfAclEntry) : AclKey6 := ⟨entry.prefixlen, entry.addr⟩

def reconcileAclV4 (ref : TableRef AclKey4 Nat) : List ConfAclEntry → Reconcile Unit :=
  reconcileAcl ref wantAclV4 "v4"

def reconcileAclV6 (ref : TableRef AclKey6 Nat) : List ConfAclEntry → Reconcile Unit :=
  reconcileAcl ref wantAclV6 "v6"

def aclListsBits (acl : ConfAcl) : UInt16 :=
  (if acl.allowV4.length > 0 then aclListsBit .allow .v4 else 0) |||
  (if acl.blockV4.length > 0 then aclListsBit .block .v4 else 0) |||
  (if acl.allowV6.length > 0 then aclListsBit .allow .v6 else 0) |||
  (if acl.blockV6.length > 0 then aclListsBit .block .v6 else 0)

/-! ## config -/

/-- The MTU plus the Ethernet header, when the host tells it and it fits. -/
def deriveMaxFrame (iface : CBuf) : Reconcile (Option Nat) := do
  match ← Stepwise.look fun e n _ => e.socket n with
  | some errno => do
      let reason ← Stepwise.ask fun e => e.strerror errno
      Stepwise.say s!"socket() failed deriving max_frame: {reason}"
      pure none
  | none => do
      match ← Stepwise.look fun e n _ => e.mtu n iface with
      | .error errno => do
          let reason ← Stepwise.ask fun e => e.strerror errno
          Stepwise.say
            s!"could not read the MTU of {iface.text} to derive max_frame: {reason}"
          pure none
      | .ok mtu =>
          if mtu < 0 ∨ mtu + ethHlen > 0xffff then do
            Stepwise.say s!"{iface.text}'s MTU ({mtu}) does not fit max_frame"
            pure none
          else pure (some (mtu + ethHlen).toNat)

def anyBackendEncapsulates (conf : MarlinConf) : Bool :=
  conf.backends.any fun backend => backend.abi.flags &&& marlinBeFEncapRequired != 0

/-- The frame limit to write: stated, derived, or 0 where nothing encapsulates. -/
def settleMaxFrame (conf : MarlinConf) : Reconcile Nat :=
  if conf.inst.maxFrameSet then pure conf.inst.maxFrame
  else do
    match ← deriveMaxFrame conf.inst.iface with
    | some maxFrame => pure maxFrame
    | none =>
        if anyBackendEncapsulates conf then
          fail "max_frame could not be derived and at least one backend encapsulates; the egress-MTU check would be silently disabled"
        else pure 0

def configValue (conf : MarlinConf) (aclLists : UInt16) (maxFrame : Nat) : MarlinConfig :=
  { tunnelSrc := conf.inst.tunnelSrc
    flags := (if conf.acl.enabled then cfgAclEnable else 0) |||
      (if conf.ratelimit.enabled then cfgRlEnable else 0)
    maxFrame := maxFrame
    aclLists := aclLists
    rlRefill := if conf.ratelimit.enabled then
      marlindScaleRefill conf.ratelimit.tokensPerSec else 0
    rlBurst := if conf.ratelimit.enabled then
      marlindScaleBurst conf.ratelimit.burstPackets else 0 }

def writeConfig (conf : MarlinConf) (aclListsOverride : UInt16) : Reconcile Unit := do
  let maxFrame ← settleMaxFrame conf
  match ← updateConfig (configValue conf aclListsOverride maxFrame) with
  | none => pure ()
  | some errno => failErrno "config: " errno

def readOldAclLists : Reconcile UInt16 := do
  match ← lookupConfig with
  | .error _ => pure 0
  | .ok old => pure old.aclLists

/-! ## tx_ports -/

def resolveTxPorts : List (CBuf × Nat) → Reconcile (List Nat)
  | [] => pure []
  | (name, i) :: rest => do
      let ifindex ← ifNametoindex name
      if ifindex = 0 then
        fail s!"instance.tx_ports[{i}] ({name.text}) does not resolve to an interface"
      else do
        let out ← resolveTxPorts rest
        pure (ifindex :: out)

def addTxPorts (want : List Nat) : Reconcile Unit :=
  want |> Stepwise.forEach fun ifindex => do
    match ← txPortsRef.updateElem ifindex ifindex with
    | none => pure ()
    | some errno => failErrno s!"tx_ports[{ifindex}]: " errno

def removeStaleTxPorts (want : List Nat) : Reconcile Unit := do
  let existing ← txPortsRef.collectKeys maxTxPorts none
  existing |> Stepwise.forEach fun ifindex => do
    if want.contains ifindex then pure ()
    else do
      match ← txPortsRef.deleteElem ifindex with
      | none => pure ()
      | some errno =>
          if errno = .enoent then pure ()
          else failErrno s!"tx_ports delete failed for ifindex {ifindex}: " errno

/-! ## backends -/

/--
The 32-bit key the kernel reads where the reconciler passes the address of a
16-bit identifier: `&backend->id` in `write_backends`, and the address of the
loop variable, followed by whatever the stack holds, in `retire_stale_backends`.
-/
structure BackendKeys where
  ofConf : ConfBackend → Nat
  ofId : Nat → Nat → Nat

namespace BackendKeys

/--
Four bytes from the address on, on a little-endian host: in `struct conf_backend`
the identifier is followed by `egress`.
-/
def layout : BackendKeys where
  ofConf backend := backend.id % 2 ^ 16 + (backend.egress.getD 0 0).toNat * 2 ^ 16 +
    (backend.egress.getD 1 0).toNat * 2 ^ 24
  ofId stack id := id % 2 ^ 16 + stack % 2 ^ 16 * 2 ^ 16

def byId : BackendKeys where
  ofConf backend := backend.id
  ofId _ id := id

end BackendKeys

def backendValue (backend : ConfBackend) (ifindex : Nat) : Backend :=
  { backend.abi with
    id := backend.id
    egressIfindex := if backend.hasEgress then ifindex else backend.abi.egressIfindex }

/-- `if_nametoindex` is only asked about a backend that states an egress. -/
def egressIfindex (backend : ConfBackend) : Reconcile Nat :=
  if backend.hasEgress then ifNametoindex backend.egress else pure 0

def writeBackend (keys : BackendKeys) (backend : ConfBackend) : Reconcile Unit := do
  let ifindex ← egressIfindex backend
  match ← updateBackend (keys.ofConf backend) (backendValue backend ifindex) with
  | none => pure ()
  | some errno =>
      failErrno s!"backends[{backend.id}] ({backend.name.text}): " errno

def writeBackends (keys : BackendKeys) (conf : MarlinConf) : Reconcile Unit :=
  Stepwise.forEach (writeBackend keys) conf.backends

def backendIdWanted (conf : MarlinConf) (id : Nat) : Bool :=
  conf.backends.any fun backend => backend.id == id

/-- The key the kernel reads at the address of a local `id`. -/
def localKey (keys : BackendKeys) (id : Nat) : Reconcile Nat :=
  Stepwise.look fun e n _ => keys.ofId (e.stack n) id

def retireBackend (keys : BackendKeys) (conf : MarlinConf) (id : Nat) : Reconcile Unit := do
  let key ← localKey keys id
  match ← lookupBackend key with
  | .error _ => pure ()
  | .ok cur =>
      if cur.id ≠ id then pure ()
      else if backendIdWanted conf id then pure ()
      else do
        let key ← localKey keys id
        match ← updateBackend key 0 with
        | none => pure ()
        | some errno => failErrno s!"retiring backends[{id}]: " errno

def retireStaleBackends (keys : BackendKeys) (conf : MarlinConf) : Reconcile Unit :=
  Stepwise.forEach (retireBackend keys conf) (List.range' 1 (maxBackends - 1))

/-! ## vip_map and fwd_table -/

def keyInConf (conf : MarlinConf) (key : VipKey) : Bool :=
  conf.vips.any fun vip => vip.keys.any fun k => vipKeyEq key k

def removeStaleVipKey (conf : MarlinConf) (row : VipAllocBaseline) : Reconcile Unit := do
  if keyInConf conf row.key then pure ()
  else do
    match ← vipMapRef.deleteElem row.key with
    | none => pure ()
    | some errno =>
        if errno = .enoent then pure ()
        else failErrno "vip_map delete failed: " errno

def removeStaleVipKeys (conf : MarlinConf) (baseline : List VipAllocBaseline) :
    Reconcile Unit :=
  Stepwise.forEach (removeStaleVipKey conf) baseline

def releaseStaleVipBlocks (release : List Nat) : Reconcile Unit :=
  Stepwise.forEach zeroFwdBlock release

/-- One member as the generator wants it; an unknown identifier stays `calloc`ed. -/
def genMember (conf : MarlinConf) (member : ConfMember) : FwdGenMember :=
  match conf.backends.find? fun backend => backend.id == member.backendId with
  | none => 0
  | some backend =>
      { backendId := backend.id
        weight := member.weight
        addr := backend.abi.addr
        vni := backend.abi.vni
        innerMac := backend.abi.innerMac }

def genMembers (conf : MarlinConf) (vip : ConfVip) : List FwdGenMember :=
  vip.members.map (genMember conf)

section Score

variable {S : Type} [LinearOrder S] (score : UInt64 → Nat → S)

def genBlock (conf : MarlinConf) (vip : ConfVip) : Nat → Nat :=
  fwdGenBlock score vip.tableSeed (genMembers conf vip)

def writeVip (conf : MarlinConf) (vip : ConfVip) : Reconcile Unit := do
  let noMembers ← callocFails
  let noBlock ← callocFails
  if (vip.members.length > 0 ∧ noMembers) ∨ noBlock then
    fail s!"out of memory generating vip[{vip.vipMeta.vipNum}]"
  else do
    writeFwdBlock vip.vipMeta.vipNum (genBlock score conf vip)
    vip.keys |> Stepwise.forEach fun key => do
      match ← vipMapRef.updateElem key vip.vipMeta with
      | none => pure ()
      | some errno => failErrno "vip_map: " errno

def ConfVip.withNum (vip : ConfVip) (num : Nat) : ConfVip :=
  { vip with vipMeta := { vip.vipMeta with vipNum := num } }

def MarlinConf.withNums (conf : MarlinConf) (num : Nat → Nat) : MarlinConf :=
  { conf with vips := conf.vips.mapIdx fun i vip => vip.withNum (num i) }

/-- The ACL tries and the added `tx_ports`; returns `tx_want`. -/
def applyAside (conf : MarlinConf) : Reconcile (List Nat) := do
  reconcileAclV4 aclAllowV4Ref conf.acl.allowV4
  reconcileAclV4 aclBlockV4Ref conf.acl.blockV4
  reconcileAclV6 aclAllowV6Ref conf.acl.allowV6
  reconcileAclV6 aclBlockV6Ref conf.acl.blockV6
  let txWant ← resolveTxPorts conf.inst.txPorts.zipIdx
  addTxPorts txWant
  pure txWant

/-- The work between the first and the last write of `config`. -/
def applyMaps (keys : BackendKeys) (conf : MarlinConf) (plan : VipAllocPlan) :
    Reconcile Unit := do
  let txWant ← applyAside conf
  writeBackends keys conf
  plan.writeOrder |> Stepwise.forEach fun i =>
    match conf.vips[i]? with
    | none => pure ()
    | some vip => writeVip score conf vip
  releaseStaleVipBlocks plan.release
  retireStaleBackends keys conf
  removeStaleTxPorts txWant

/-- The configuration with its blocks assigned, once every map has been written. -/
def reconcileApply (keys : BackendKeys) (conf : MarlinConf) : Reconcile MarlinConf := do
  let finalAclLists := aclListsBits conf.acl
  openMaps
  let baseline ← readVipBaseline
  let result ← allocateVipNums conf baseline
  let conf := conf.withNums result.num
  removeStaleVipKeys conf baseline
  let oldAclLists ← readOldAclLists
  writeConfig conf (oldAclLists ||| finalAclLists)
  applyMaps score keys conf result.plan
  writeConfig conf finalAclLists
  pure conf

end Score

end Marlin
