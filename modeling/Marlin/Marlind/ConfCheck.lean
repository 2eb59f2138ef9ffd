import Mathlib.Data.FinEnum
import Mathlib.Data.List.Nodup
import Marlin.Marlind.Conf

/-!
# Configuration checks

`conf_check.c`.  Every check is the list of the reports it makes, in the order in
which the source makes them; `confCheck` collects them into the caller's
diagnostics and accepts when the number of rejections did not grow.
`nametoindex` is the host's `if_nametoindex`.
-/

namespace Marlin

open ConfReport

def ifnameEq (lhs rhs : CBuf) : Bool := strncmpEq ifNamesize lhs rhs

def isAttachOrTxport (inst : ConfInstance) (name : CBuf) : Bool :=
  ifnameEq name inst.iface || inst.txPorts.any fun port => ifnameEq name port

/-! ## [instance] -/

def checkTxPorts (inst : ConfInstance) : Nat → List CBuf → List ConfReport
  | _, [] => []
  | i, port :: rest =>
      (rest.zipIdx (i + 1)).flatMap (fun other =>
        errorIf (ifnameEq port other.1)
          s!"instance.tx_ports[{other.2}] duplicates tx_ports[{i}] ({port.text})") ++
      warnIf (ifnameEq port inst.iface)
        s!"instance.tx_ports[{i}] names the attach interface, which never needs to be listed" ++
      checkTxPorts inst (i + 1) rest

def checkInstance (nametoindex : CBuf → Nat) (inst : ConfInstance) :
    ConfInstance × List ConfReport :=
  if inst.iface.headD 0 = 0 then (inst, [.error "instance.interface is required"])
  else
    let ifindex := nametoindex inst.iface
    ({ inst with ifindex := ifindex },
      warnIf (ifindex = 0)
        s!"instance.interface {inst.iface.text} not found on this host -- skipping host-dependent checks" ++
      checkTxPorts inst 0 inst.txPorts)

/-! ## [[backend]] -/

def marlinVniReserved : Nat := 0xff000000

def checkOneBackend (inst : ConfInstance) (backend : ConfBackend) : List ConfReport :=
  let mode := encapMode backend.abi.flags
  let name := backend.name.text
  errorIf (backend.abi.addr = 0) s!"backend[{name}].addr is required" ++
  errorIf (backend.abi.flags &&& marlinBeFEncapRequired ≠ 0 ∧ inst.tunnelSrcSet = false)
    s!"backend[{name}] encapsulates but instance.tunnel_src is unset" ++
  (if mode = marlinModeVxlan then
    errorIf (backend.vniStated = false ∨ backend.abi.vni = 0 ∨
        backend.abi.vni &&& marlinVniReserved ≠ 0)
      s!"backend[{name}].vni is unset or out of range (0 < vni <= 0xffffff)" ++
    errorIf (backend.innerMacStated = false ∨ backend.abi.innerMac = 0)
      s!"backend[{name}].inner_mac is required for vxlan and must not be all-zero"
  else
    errorIf (backend.vniStated = true ∨ backend.innerMacStated = true)
      s!"backend[{name}].vni/inner_mac are only meaningful for mode = \"vxlan\"") ++
  errorIf (backend.hasEgress = true ∧ isAttachOrTxport inst backend.egress = false)
    s!"backend[{name}].egress ({backend.egress.text}) is neither the attach interface nor in tx_ports"

/-- The default that `check_one_backend` fills in for `MARLIN_BE_F_FIB`. -/
def settleFib (backend : ConfBackend) : ConfBackend :=
  let fib := if backend.fibStated then backend.fibValue else backend.macStated
  { backend with
    abi := { backend.abi with
      flags := if fib then backend.abi.flags ||| marlinBeFFib
        else backend.abi.flags &&& ~~~marlinBeFFib } }

def checkBackendsFrom (inst : ConfInstance) : List ConfBackend → List ConfReport
  | [] => []
  | backend :: rest =>
      let name := backend.name.text
      errorIf (backend.id = marlinNoBackend)
        s!"backend[{name}].id is 0, the sentinel for \"no backend\"" ++
      errorIf (backend.id ≥ maxBackends)
        s!"backend[{name}].id {backend.id} is out of range (< {maxBackends})" ++
      rest.flatMap (fun other =>
        errorIf (strncmpEq marlinConfNameMax backend.name other.name)
          s!"backend name \"{name}\" is duplicated" ++
        errorIf (backend.id = other.id)
          s!"backend id {backend.id} is duplicated (\"{name}\" and \"{other.name.text}\")") ++
      checkOneBackend inst backend ++ checkBackendsFrom inst rest

def checkBackends (conf : MarlinConf) : List ConfReport :=
  errorIf (conf.backends.length > maxBackends - 1)
    s!"{conf.backends.length} backends configured, more than MAX_BACKENDS - 1 ({maxBackends - 1})" ++
  checkBackendsFrom conf.inst conf.backends

/-! ## [[vip]] -/

def findBackend (conf : MarlinConf) (name : CBuf) : Option ConfBackend :=
  conf.backends.find? fun backend => strncmpEq marlinConfNameMax backend.name name

def resolveMember (conf : MarlinConf) (member : ConfMember) : ConfMember :=
  match findBackend conf member.backendName with
  | none => member
  | some backend => { member with backendId := backend.id }

def memberUp (conf : MarlinConf) (member : ConfMember) : Bool :=
  match findBackend conf member.backendName with
  | none => false
  | some backend => backend.abi.flags &&& marlinBeFState ≠ 0

def checkMembersFrom (conf : MarlinConf) (idx : Nat) :
    Nat → List ConfMember → List ConfReport
  | _, [] => []
  | i, member :: rest =>
      let name := member.backendName.text
      (match findBackend conf member.backendName with
      | none => [.error s!"vip[{idx}].members[{i}] names unknown backend \"{name}\""]
      | some _ =>
          errorIf (member.weight = 0)
            s!"vip[{idx}].members[{i}] ({name}) weight must be non-zero" ++
          rest.flatMap fun other =>
            errorIf (strncmpEq marlinConfNameMax member.backendName other.backendName)
              s!"vip[{idx}].members lists \"{name}\" more than once") ++
      checkMembersFrom conf idx (i + 1) rest

def checkVipMembers (conf : MarlinConf) (idx : Nat) (vip : ConfVip) : List ConfReport :=
  checkMembersFrom conf idx 0 vip.members ++
  (if vip.members.length = 0 then [.warning s!"vip[{idx}] has no members"]
  else warnIf (vip.members.any (memberUp conf) = false)
    s!"vip[{idx}] has no member in state = \"up\"")

/-- `keys[0].proto`, or 0 for an entry without keys. -/
def ConfVip.proto (vip : ConfVip) : UInt8 := (vip.keys.head?.map VipKey.proto).getD 0

def checkVipGroup (idx : Nat) (vip : ConfVip) : List ConfReport :=
  let hashPorts := vip.vipMeta.flags &&& vipHashPorts ≠ 0
  let hash5tuple := vip.vipMeta.flags &&& vipHash5tuple ≠ 0
  let hasV4 := vip.keys.any fun key => key.family == afInet
  let hasV6 := vip.keys.any fun key => key.family != afInet
  if vip.keys.length < 2 ∨ vip.proto ≠ ipprotoSctp then []
  else
    errorIf hash5tuple
      s!"vip[{idx}] is a group of {vip.keys.length} addresses and cannot set hash_5tuple: it hashes the VIP address" ++
    (if hasV4 ∧ hasV6 ∧ ¬hashPorts then
      [.error s!"vip[{idx}] mixes IPv4 and IPv6 addresses and requires hash_ports = true"]
    else warnIf (¬hashPorts)
      s!"vip[{idx}] is a group hashed by client address: safe only for clients that reach every group address from one source (docs/design/32-sctp.md)")

def checkOneVip (conf : MarlinConf) (idx : Nat) (vip : ConfVip) : List ConfReport :=
  let flags := vip.vipMeta.flags
  let hashPorts := flags &&& vipHashPorts ≠ 0
  let cidLen := vipQuicCidLen flags
  errorIf (flags &&& vipQuic ≠ 0 ∧ (cidLen < 7 ∨ cidLen > 20))
    s!"vip[{idx}].quic_cid_len must be 7-20 when quic = true" ++
  errorIf (vipDscp flags > 63) s!"vip[{idx}].dscp must be 0-63" ++
  errorIf (flags &&& vipRatelimit ≠ 0 ∧ flags &&& vipAcl = 0)
    s!"vip[{idx}].ratelimit = true requires acl = true" ++
  errorIf (hashPorts ∧ vip.proto ≠ ipprotoSctp)
    s!"vip[{idx}].hash_ports = true requires proto = \"sctp\"" ++
  errorIf (hashPorts ∧ flags &&& vipHash5tuple ≠ 0)
    s!"vip[{idx}] cannot set both hash_ports and hash_5tuple" ++
  checkVipGroup idx vip ++ checkVipMembers conf idx vip

/-- The two inner loops over `k2`, for every key `k1` of entry `idx`. -/
def checkVipKeys (idx : Nat) (later : List ConfVip) : Nat → List VipKey → List ConfReport
  | _, [] => []
  | k1, key :: rest =>
      (rest.zipIdx (k1 + 1)).flatMap (fun other =>
        errorIf (vipKeyEq key other.1)
          s!"vip[{idx}].addr[{other.2}] duplicates addr[{k1}]") ++
      (later.zipIdx (idx + 1)).flatMap (fun vip => vip.1.keys.flatMap fun other =>
        errorIf (vipKeyEq key other)
          s!"vip[{idx}] duplicates vip[{vip.2}]'s address/port/proto") ++
      checkVipKeys idx later (k1 + 1) rest

def checkVipsFrom (conf : MarlinConf) : Nat → List ConfVip → List ConfReport
  | _, [] => []
  | idx, vip :: later =>
      checkVipKeys idx later 0 vip.keys ++ checkOneVip conf idx vip ++
      checkVipsFrom conf (idx + 1) later

def checkVips (conf : MarlinConf) : List ConfReport :=
  let totalAddrs := (conf.vips.map fun vip => vip.keys.length).sum % 2 ^ 32
  errorIf (totalAddrs > maxVips)
    s!"{totalAddrs} VIP addresses configured, more than MAX_VIPS ({maxVips})" ++
  checkVipsFrom conf 0 conf.vips

/-! ## [acl] and [ratelimit] -/

def prefixMask (keep : Nat) : UInt8 := UInt8.ofNat (0xff <<< (8 - keep))

def confCidrHostBitsSet (addr : Addr) (prefixlen : Nat) (isV6 : Bool) : Bool :=
  (List.range (if isV6 then 16 else 4)).any fun byte =>
    let bitBase := byte * 8
    if bitBase ≥ prefixlen then addr.bytes.getD byte 0 ≠ 0
    else if bitBase + 8 > prefixlen then
      addr.bytes.getD byte 0 &&& ~~~prefixMask (prefixlen - bitBase) ≠ 0
    else false

/-- `listAllow` stands for the source's test that the list's name contains "allow". -/
def checkAclList (entries : List ConfAclEntry) (isV6 listAllow : Bool) (listName : String) :
    List ConfReport :=
  let width := if isV6 then 16 else 4
  let broad := if isV6 then 32 else 8
  errorIf (entries.length > maxAclEntries)
    s!"acl.{listName} has {entries.length} entries, more than MAX_ACL_ENTRIES ({maxAclEntries})" ++
  entries.zipIdx.flatMap fun entry =>
    errorIf (entry.1.prefixlen = 0 ∧ (∀ byte ∈ entry.1.addr.bytes.take width, byte = 0) ∧
        listAllow = true)
      s!"acl.{listName}[{entry.2}] is a default route (0.0.0.0/0 or ::/0), which nullifies the blocklist entirely" ++
    errorIf (confCidrHostBitsSet entry.1.addr entry.1.prefixlen isV6)
      s!"acl.{listName}[{entry.2}] has host bits set below its prefix length" ++
    warnIf (entry.1.prefixlen < broad)
      s!"acl.{listName}[{entry.2}] is broader than /{broad}, which is unusually wide for an allow rule"

def prefixCovers (outer inner : ConfAclEntry) (width : Nat) : Bool :=
  if outer.prefixlen > inner.prefixlen then false
  else (List.range width).all fun byte =>
    let bitBase := byte * 8
    let lhs := outer.addr.bytes.getD byte 0
    let rhs := inner.addr.bytes.getD byte 0
    if bitBase ≥ outer.prefixlen then true
    else if bitBase + 8 ≤ outer.prefixlen then lhs == rhs
    else
      let mask := prefixMask (outer.prefixlen - bitBase)
      lhs &&& mask == rhs &&& mask

def checkDeadRules (allow block : List ConfAclEntry) (width : Nat) (family : String) :
    List ConfReport :=
  block.zipIdx.flatMap fun rule =>
    match allow.findIdx? fun cover => prefixCovers cover rule.1 width with
    | none => []
    | some j =>
        [.warning s!"acl.block[{rule.2}] ({family}) is wholly covered by acl.allow[{j}], and therefore dead"]

def checkAclDeadRules (acl : ConfAcl) : List ConfReport :=
  checkDeadRules acl.allowV4 acl.blockV4 4 "v4" ++
  checkDeadRules acl.allowV6 acl.blockV6 16 "v6"

def checkAcl (acl : ConfAcl) : List ConfReport :=
  checkAclList acl.allowV4 false true "allow (v4)" ++
  checkAclList acl.blockV4 false false "block (v4)" ++
  checkAclList acl.allowV6 true true "allow (v6)" ++
  checkAclList acl.blockV6 true false "block (v6)" ++
  checkAclDeadRules acl

def checkRatelimit (conf : MarlinConf) : List ConfReport :=
  let rl := conf.ratelimit
  let anyMetered := conf.vips.any fun vip => vip.vipMeta.flags &&& vipRatelimit != 0
  if rl.enabled = false then []
  else
    errorIf (conf.acl.enabled = false)
      "ratelimit.enabled = true requires acl.enabled = true" ++
    errorIf (rl.burstPackets = 0 ∨ rl.burstPackets > 0xffffff)
      "ratelimit.burst_packets must be 1-16777215" ++
    (if anyMetered = false then
      [.warning "ratelimit.enabled = true but no vip carries ratelimit = true"]
    else errorIf (marlindScaleRefill rl.tokensPerSec = 0)
      s!"ratelimit.tokens_per_sec ({rl.tokensPerSec}) scales to a zero refill; the bucket would never refill")

/-! ## The whole check -/

/-- The model as `check_backends` and `check_vip_members` leave it. -/
def MarlinConf.settle (nametoindex : CBuf → Nat) (conf : MarlinConf) : MarlinConf :=
  let conf := { conf with
    inst := (checkInstance nametoindex conf.inst).1
    backends := conf.backends.map settleFib }
  { conf with
    vips := conf.vips.map fun vip =>
      { vip with members := vip.members.map (resolveMember conf) } }

def confCheckReports (nametoindex : CBuf → Nat) (conf : MarlinConf) : List ConfReport :=
  let checked := { conf with
    inst := (checkInstance nametoindex conf.inst).1
    backends := conf.backends.map settleFib }
  (checkInstance nametoindex conf.inst).2 ++
  checkBackends { conf with inst := checked.inst } ++ checkVips checked ++
  checkAcl conf.acl ++ checkRatelimit checked

structure ConfCheckResult where
  ok : Bool
  conf : MarlinConf
  diag : ConfDiag
  deriving DecidableEq, Repr

def confCheck (nametoindex : CBuf → Nat) (conf : MarlinConf) (diag : ConfDiag) :
    ConfCheckResult :=
  let after := diag.collect (confCheckReports nametoindex conf)
  ⟨after.msg.length == diag.msg.length, conf.settle nametoindex, after⟩

/-! ## The check against the previous generation -/

structure BackendIdentity where
  addr : Be32
  mode : UInt8
  encapDport : Be16
  vni : Nat
  innerMac : Mac
  deriving DecidableEq, Repr

def Backend.identity (backend : Backend) : BackendIdentity :=
  ⟨backend.addr, encapMode backend.flags, backend.encapDport, backend.vni,
    backend.innerMac⟩

def backendIdentityChanged (cur prev : ConfBackend) : Bool :=
  cur.abi.addr != prev.abi.addr || encapMode cur.abi.flags != encapMode prev.abi.flags ||
    cur.abi.encapDport != prev.abi.encapDport || cur.abi.vni != prev.abi.vni ||
    cur.abi.innerMac != prev.abi.innerMac

def checkAgainstPreviousReports (cur prev : MarlinConf) : List ConfReport :=
  errorIf (ifnameEq cur.inst.iface prev.inst.iface = false)
    s!"instance.interface changed ({prev.inst.iface.text} -> {cur.inst.iface.text}); restart marlind instead of reloading" ++
  errorIf (strncmpEq pathMax cur.inst.object prev.inst.object = false)
    "instance.object changed; restart marlind instead of reloading" ++
  errorIf (strncmpEq pathMax cur.inst.pinDir prev.inst.pinDir = false)
    "instance.pin_dir changed; restart marlind instead of reloading" ++
  cur.backends.flatMap fun cb =>
    match prev.backends.find? fun pb => cb.id == pb.id with
    | none => []
    | some pb =>
        errorIf (backendIdentityChanged cb pb)
          s!"backend id {cb.id} changed addr/mode/encap_dport/vni/inner_mac in place; remove and re-add it under a new id instead"

def confCheckAgainstPrevious (cur prev : MarlinConf) (diag : ConfDiag) : Bool × ConfDiag :=
  let after := diag.collect (checkAgainstPreviousReports cur prev)
  (after.msg.length == diag.msg.length, after)

/-! ## What acceptance guarantees -/

def MarlinConf.KeysDistinct (conf : MarlinConf) : Prop :=
  conf.keys.Pairwise fun a b => vipKeyEq a b = false

/-- The facts about an accepted configuration that the reconciler builds on. -/
structure MarlinConf.Checked (conf : MarlinConf) : Prop where
  id_ne_zero : ∀ b ∈ conf.backends, b.id ≠ marlinNoBackend
  id_lt : ∀ b ∈ conf.backends, b.id < maxBackends
  ids_nodup : (conf.backends.map ConfBackend.id).Nodup
  names_distinct : conf.backends.Pairwise fun a b =>
    strncmpEq marlinConfNameMax a.name b.name = false
  keys_distinct : conf.KeysDistinct
  resolved : ∀ vip ∈ conf.vips, ∀ m ∈ vip.members,
    ∃ b, findBackend conf m.backendName = some b ∧ b.id = m.backendId

structure MarlinConf.IdsValid (conf : MarlinConf) : Prop where
  id_lt : ∀ b ∈ conf.backends, b.id < maxBackends
  ids_nodup : (conf.backends.map ConfBackend.id).Nodup

theorem MarlinConf.Checked.idsValid {conf : MarlinConf} (h : conf.Checked) : conf.IdsValid :=
  ⟨h.id_lt, h.ids_nodup⟩

theorem MarlinConf.find_id {conf : MarlinConf} (hnodup : (conf.backends.map ConfBackend.id).Nodup)
    {b : ConfBackend} (hb : b ∈ conf.backends) :
    conf.backends.find? (fun other => other.id == b.id) = some b := by
  cases hfind : conf.backends.find? (fun other => other.id == b.id) with
  | none =>
      have hne := List.find?_eq_none.mp hfind b hb
      simp at hne
  | some other =>
      have hid : other.id = b.id := by simpa using List.find?_some hfind
      rw [List.inj_on_of_nodup_map hnodup (List.mem_of_find?_eq_some hfind) hb hid]

private theorem checkBackendsFrom_quiet {inst : ConfInstance} {backends : List ConfBackend}
    (h : Quiet (checkBackendsFrom inst backends)) :
    (∀ b ∈ backends, b.id ≠ marlinNoBackend) ∧ (∀ b ∈ backends, b.id < maxBackends) ∧
      (backends.map ConfBackend.id).Nodup ∧
      backends.Pairwise fun a b => strncmpEq marlinConfNameMax a.name b.name = false := by
  induction backends with
  | nil => simp
  | cons backend rest ih =>
      simp only [checkBackendsFrom, quiet_append, quiet_errorIf, quiet_flatMap, ge_iff_le,
        Nat.not_le] at h
      obtain ⟨⟨⟨⟨hzero, hlt⟩, hdup⟩, -⟩, hrest⟩ := h
      obtain ⟨ihzero, ihlt, ihnodup, ihnames⟩ := ih hrest
      refine ⟨?_, ?_, ?_, ?_⟩
      · exact List.forall_mem_cons.mpr ⟨hzero, ihzero⟩
      · exact List.forall_mem_cons.mpr ⟨hlt, ihlt⟩
      · rw [List.map_cons, List.nodup_cons]
        refine ⟨?_, ihnodup⟩
        intro hmem
        obtain ⟨other, hother, hid⟩ := List.mem_map.mp hmem
        exact (hdup other hother).2 hid.symm
      · refine List.pairwise_cons.mpr ⟨?_, ihnames⟩
        intro other hother
        simpa using (hdup other hother).1

private theorem checkVipKeys_quiet {idx k1 : Nat} {later : List ConfVip}
    {keys : List VipKey} (h : Quiet (checkVipKeys idx later k1 keys)) :
    keys.Pairwise (fun a b => vipKeyEq a b = false) ∧
      ∀ a ∈ keys, ∀ b ∈ later.flatMap ConfVip.keys, vipKeyEq a b = false := by
  induction keys generalizing k1 with
  | nil => simp
  | cons key rest ih =>
      simp only [checkVipKeys, quiet_append, quiet_flatMap, quiet_errorIf,
        Bool.not_eq_true] at h
      obtain ⟨⟨hrest, hlater⟩, htail⟩ := h
      obtain ⟨ihrest, ihlater⟩ := ih htail
      refine ⟨List.pairwise_cons.mpr ⟨?_, ihrest⟩, List.forall_mem_cons.mpr ⟨?_, ihlater⟩⟩
      · intro other hother
        obtain ⟨k2, hk2, heq⟩ := List.getElem_of_mem hother
        exact hrest (other, k1 + 1 + k2)
          (List.mk_mem_zipIdx_iff_le_and_getElem?_sub.mpr ⟨by omega, by
            simpa [Nat.add_sub_cancel_left] using (List.getElem?_eq_some_iff.mpr ⟨hk2, heq⟩)⟩)
      · intro other hother
        obtain ⟨vip, hvip, hkey⟩ := List.mem_flatMap.mp hother
        obtain ⟨j, hj, heq⟩ := List.getElem_of_mem hvip
        exact hlater (vip, idx + 1 + j)
          (List.mk_mem_zipIdx_iff_le_and_getElem?_sub.mpr ⟨by omega, by
            simpa [Nat.add_sub_cancel_left] using (List.getElem?_eq_some_iff.mpr ⟨hj, heq⟩)⟩)
          other hkey

private theorem checkMembersFrom_quiet {conf : MarlinConf} {idx i : Nat}
    {members : List ConfMember} (h : Quiet (checkMembersFrom conf idx i members)) :
    ∀ m ∈ members, ∃ b, findBackend conf m.backendName = some b := by
  induction members generalizing i with
  | nil => simp
  | cons member rest ih =>
      simp only [checkMembersFrom, quiet_append] at h
      refine List.forall_mem_cons.mpr ⟨?_, ih h.2⟩
      cases hfind : findBackend conf member.backendName with
      | none =>
          rw [hfind] at h
          simp [isError] at h
      | some b => exact ⟨b, rfl⟩

private theorem checkVipsFrom_quiet {conf : MarlinConf} {idx : Nat} {vips : List ConfVip}
    (h : Quiet (checkVipsFrom conf idx vips)) :
    (vips.flatMap ConfVip.keys).Pairwise (fun a b => vipKeyEq a b = false) ∧
      ∀ vip ∈ vips, ∀ m ∈ vip.members, ∃ b, findBackend conf m.backendName = some b := by
  induction vips generalizing idx with
  | nil => simp
  | cons vip later ih =>
      simp only [checkVipsFrom, checkOneVip, checkVipMembers, quiet_append] at h
      obtain ⟨⟨hkeys, -, hmembers, -⟩, hlater⟩ := h
      obtain ⟨ihkeys, ihmembers⟩ := ih hlater
      obtain ⟨hown, hother⟩ := checkVipKeys_quiet hkeys
      refine ⟨?_, List.forall_mem_cons.mpr ⟨checkMembersFrom_quiet hmembers, ihmembers⟩⟩
      rw [List.flatMap_cons, List.pairwise_append]
      exact ⟨hown, ihkeys, hother⟩

@[simp] theorem settleFib_id (backend : ConfBackend) : (settleFib backend).id = backend.id :=
  rfl

@[simp] theorem MarlinConf.settle_keys (nametoindex : CBuf → Nat) (conf : MarlinConf) :
    (conf.settle nametoindex).keys = conf.keys := by
  simp [MarlinConf.keys, MarlinConf.settle, List.flatMap_map]

theorem MarlinConf.settle_ids (nametoindex : CBuf → Nat) (conf : MarlinConf) :
    (conf.settle nametoindex).backends.map ConfBackend.id =
      conf.backends.map ConfBackend.id := by
  simp [MarlinConf.settle, Function.comp_def]

theorem confCheck_checked {nametoindex : CBuf → Nat} {conf : MarlinConf} {diag : ConfDiag}
    (hroom : diag.msg.length < marlinConfDiagMax)
    (h : (confCheck nametoindex conf diag).ok = true) :
    (confCheck nametoindex conf diag).conf.Checked := by
  have hquiet : Quiet (confCheckReports nametoindex conf) :=
    (diag.length_collect_eq_iff _ hroom).mp (by simpa [confCheck] using h)
  simp only [confCheckReports, checkBackends, checkVips, quiet_append] at hquiet
  obtain ⟨⟨⟨⟨-, -, hbackends⟩, -, hvips⟩, -⟩, -⟩ := hquiet
  obtain ⟨hzero, hlt, hnodup, hnames⟩ := checkBackendsFrom_quiet hbackends
  obtain ⟨hkeys, hmembers⟩ := checkVipsFrom_quiet hvips
  have hids : ∀ P : Nat → Prop, (∀ b ∈ conf.backends, P b.id) →
      ∀ b ∈ (conf.settle nametoindex).backends, P b.id := by
    intro P hP b hb
    obtain ⟨b', hb', rfl⟩ := List.mem_map.mp (show b ∈ conf.backends.map settleFib from hb)
    exact hP b' hb'
  change (conf.settle nametoindex).Checked
  refine ⟨hids (· ≠ marlinNoBackend) hzero, hids (· < maxBackends) hlt, ?_, ?_, ?_, ?_⟩
  · rw [MarlinConf.settle_ids]
    exact hnodup
  · exact List.pairwise_map.mpr hnames
  · rw [MarlinConf.KeysDistinct, MarlinConf.settle_keys]
    exact hkeys
  · intro vip hvip m hm
    obtain ⟨vip', hvip', rfl⟩ := List.mem_map.mp hvip
    obtain ⟨m', hm', rfl⟩ := List.mem_map.mp hm
    obtain ⟨b, hb⟩ := hmembers vip' hvip' m' hm'
    have hname : (resolveMember { conf with
        inst := (checkInstance nametoindex conf.inst).1
        backends := conf.backends.map settleFib } m').backendName = m'.backendName := by
      rw [resolveMember, hb]
    refine ⟨b, ?_, ?_⟩
    · rw [hname]
      exact hb
    · rw [resolveMember, hb]

/--
A configuration that `conf_load` returns: parsed without a rejection, with every
address zeroed before it was filled in and every mode one of the four that the parser
knows, and accepted by `conf_check`.
-/
structure LoadedConf where
  parsed : MarlinConf
  nametoindex : CBuf → Nat
  diag : ConfDiag
  unrejected : diag.msg = []
  canonical : ∀ key ∈ parsed.keys, key.Canonical
  flagged : ∀ b ∈ parsed.backends, ∃ mode ∈ confModes, ∃ up,
    b.abi.flags = parsedBackendFlags mode up
  accepted : (confCheck nametoindex parsed diag).ok = true

namespace LoadedConf

def conf (loaded : LoadedConf) : MarlinConf :=
  (confCheck loaded.nametoindex loaded.parsed loaded.diag).conf

theorem checked (loaded : LoadedConf) : loaded.conf.Checked :=
  confCheck_checked (by rw [loaded.unrejected]; decide) loaded.accepted

theorem keysCanonical (loaded : LoadedConf) : ∀ key ∈ loaded.conf.keys, key.Canonical := by
  rw [show loaded.conf = loaded.parsed.settle loaded.nametoindex from rfl,
    MarlinConf.settle_keys]
  exact loaded.canonical

theorem mode_mem (loaded : LoadedConf) :
    ∀ b ∈ loaded.conf.backends, encapMode b.abi.flags ∈ confModes := by
  have hfib : ∀ mode ∈ confModes, ∀ up fib : Bool,
      encapMode (if fib then parsedBackendFlags mode up ||| marlinBeFFib
        else parsedBackendFlags mode up &&& ~~~marlinBeFFib) ∈ confModes := by
    decide +kernel
  intro b hb
  obtain ⟨b', hb', rfl⟩ := List.mem_map.mp
    (show b ∈ loaded.parsed.backends.map settleFib from hb)
  obtain ⟨mode, hmode, up, hflags⟩ := loaded.flagged b' hb'
  have hsettled := hfib mode hmode up (if b'.fibStated then b'.fibValue else b'.macStated)
  rw [← hflags] at hsettled
  exact hsettled

end LoadedConf

/-! ## The guard against in-place edits -/

theorem backendIdentityChanged_iff (cur prev : ConfBackend) :
    backendIdentityChanged cur prev = false ↔ cur.abi.identity = prev.abi.identity := by
  simp [backendIdentityChanged, Backend.identity, and_assoc]

def MarlinConf.Agrees (cur prev : MarlinConf) : Prop :=
  ∀ cb ∈ cur.backends, ∀ pb ∈ prev.backends, cb.id = pb.id →
    cb.abi.identity = pb.abi.identity

theorem confCheckAgainstPrevious_agrees {cur prev : MarlinConf} {diag : ConfDiag}
    (hroom : diag.msg.length < marlinConfDiagMax)
    (hprev : (prev.backends.map ConfBackend.id).Nodup)
    (h : (confCheckAgainstPrevious cur prev diag).1 = true) : cur.Agrees prev := by
  have hquiet : Quiet (checkAgainstPreviousReports cur prev) :=
    (diag.length_collect_eq_iff _ hroom).mp (by simpa [confCheckAgainstPrevious] using h)
  simp only [checkAgainstPreviousReports, quiet_append, quiet_flatMap] at hquiet
  intro cb hcb pb hpb hid
  have hfind := hquiet.2 cb hcb
  cases hprevious : prev.backends.find? fun pb => cb.id == pb.id with
  | none => simpa [hid] using List.find?_eq_none.mp hprevious pb hpb
  | some other =>
      have hother : cb.id = other.id := by simpa using List.find?_some hprevious
      have heq : other = pb :=
        List.inj_on_of_nodup_map hprev (List.mem_of_find?_eq_some hprevious) hpb
          (hother.symm.trans hid)
      rw [hprevious, heq] at hfind
      simp only [quiet_errorIf, Bool.not_eq_true] at hfind
      exact (backendIdentityChanged_iff cb pb).mp hfind

end Marlin
