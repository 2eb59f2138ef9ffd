import Marlin.Marlind.ConfCheck
import Marlin.Marlind.ConfValue

/-!
# Lowering a TOML document

`conf.c`: from the value tree of the TOML parser to a `MarlinConf`, and `conf_load`.
A parse function is the value it leaves and the reports it makes, in order.  An
allocation is named by what it is made for, as its diagnostic names it.
-/

namespace Marlin

open ConfReport

/-! ## Value trees -/

/-- `toml_datum_t`; `other` is a type that the schema has no key of. -/
inductive Toml where
  | string (bytes : List UInt8)
  | int64 (val : Int)
  | boolean (val : Bool)
  | array (elem : List Toml)
  | table (entries : List (List UInt8 × Toml))
  | other

namespace Toml

mutual

def size : Toml → Nat
  | .array elem => 1 + sizeList elem
  | .table entries => 1 + sizeEntries entries
  | _ => 1

def sizeList : List Toml → Nat
  | [] => 0
  | t :: ts => t.size + sizeList ts

def sizeEntries : List (List UInt8 × Toml) → Nat
  | [] => 0
  | (_, t) :: rest => t.size + sizeEntries rest

end

def get (tab : Toml) (key : String) : Option Toml :=
  match tab with
  | .table entries => (entries.find? fun kv => CBuf.str kv.1 == cstr key).map Prod.snd
  | _ => none

end Toml

/--
A parsed file.  `toml_parse_file` refuses `INT_MAX - 1` bytes or more, and every value
takes at least one byte of the file.
-/
structure TomlDoc where
  toptab : Toml
  size_lt : toptab.size < 2 ^ 31

/-! ## Reports along a parse -/

structure Parsed (α : Type) where
  val : α
  reports : List ConfReport

namespace Parsed

instance : Monad Parsed where
  pure a := ⟨a, []⟩
  bind p f := ⟨(f p.val).val, p.reports ++ (f p.val).reports⟩

def report (text : String) : Parsed Unit := ⟨(), [.error text]⟩

def reject {α : Type} (a : α) (text : String) : Parsed α := ⟨a, [.error text]⟩

def collect {α β : Type} (f : α → Nat → Parsed β) : Nat → List α → Parsed (List β)
  | _, [] => pure []
  | i, x :: xs => do
      let y ← f x i
      let ys ← collect f (i + 1) xs
      pure (y :: ys)

end Parsed

/-! ## Accessors -/

/-- What a `get_*` tells its caller: `false`, or `true` with `present` and the value. -/
inductive Got (α : Type) where
  | failed
  | absent
  | value (a : α)

/-- The value, or what the caller's variable held. -/
def Got.getD {α : Type} (got : Got α) (default : α) : α :=
  match got with
  | .value a => a
  | _ => default

def getBool (tab : Toml) (key path : String) : Parsed (Got Bool) :=
  match tab.get key with
  | none => pure .absent
  | some (.boolean b) => pure (.value b)
  | some _ => .reject .failed s!"{path}.{key} must be a boolean"

def getInt (tab : Toml) (key path : String) : Parsed (Got Int) :=
  match tab.get key with
  | none => pure .absent
  | some (.int64 val) => pure (.value val)
  | some _ => .reject .failed s!"{path}.{key} must be an integer"

def getStr (tab : Toml) (key path : String) (cap : Nat) : Parsed (Got CBuf) :=
  match tab.get key with
  | none => pure .absent
  | some (.string bytes) =>
      if bytes.length ≥ cap then
        .reject .failed s!"{path}.{key} is too long (max {cap - 1} bytes)"
      else pure (.value bytes)
  | some _ => .reject .failed s!"{path}.{key} must be a string"

def reqStr (tab : Toml) (key path : String) (cap : Nat) : Parsed (Option CBuf) := do
  match ← getStr tab key path cap with
  | .failed => pure none
  | .absent => .reject none s!"{path}.{key} is required"
  | .value buf => pure (some buf)

/-! ## [instance] -/

def marlinDefaultObj : CBuf := cstr "/usr/lib/marlin/marlin.bpf.o"
def marlinDefaultPinDir : CBuf := cstr "/sys/fs/bpf/marlin"

/-- The loop of `parse_instance_tx_ports`, from element `i` on with `room` slots left. -/
def parseTxPortsFrom : Nat → Nat → List Toml → Parsed (List CBuf)
  | 0, _, _ => pure []
  | _, _, [] => pure []
  | room + 1, i, elem :: rest =>
      match elem with
      | .string bytes =>
          if bytes.length ≥ ifNamesize then do
            .report s!"instance.tx_ports[{i}] is not a valid interface name"
            parseTxPortsFrom (room + 1) (i + 1) rest
          else do
            let ports ← parseTxPortsFrom room (i + 1) rest
            pure (bytes :: ports)
      | _ => do
          .report s!"instance.tx_ports[{i}] is not a valid interface name"
          parseTxPortsFrom (room + 1) (i + 1) rest

def parseInstanceTxPorts (tab : Toml) : Parsed (List CBuf) :=
  match tab.get "tx_ports" with
  | none => pure []
  | some (.array elem) => do
      if elem.length > maxTxPorts then
        .report s!"instance.tx_ports has {elem.length} entries, more than MAX_TX_PORTS ({maxTxPorts})"
      parseTxPortsFrom maxTxPorts 0 elem
  | some _ => .reject [] "instance.tx_ports must be an array of strings"

def parseTunnelSrc (tab : Toml) : Parsed (Option Be32) := do
  match ← getStr tab "tunnel_src" "instance" 64 with
  | .value buf =>
      match confParseIpv4 buf.str with
      | none => .reject none "instance.tunnel_src is not a valid IPv4 address"
      | some addr => pure (some addr)
  | _ => pure none

def parseMaxFrame (tab : Toml) : Parsed (Option Nat) := do
  match ← getInt tab "max_frame" "instance" with
  | .value val =>
      if val < 0 ∨ val > 0xffff then .reject none "instance.max_frame out of range (0-65535)"
      else pure (some val.toNat)
  | _ => pure none

/-- A `calloc`ed `struct conf_instance`. -/
instance : Zero ConfInstance := ⟨⟨[], 0, [], [], false, 0, [], false, 0⟩⟩

def parseInstance (top : Toml) : Parsed ConfInstance :=
  match top.get "instance" with
  | some (.table entries) => do
      let tab := Toml.table entries
      let iface ← reqStr tab "interface" "instance" ifNamesize
      let object ← getStr tab "object" "instance" pathMax
      let pinDir ← getStr tab "pin_dir" "instance" pathMax
      let tunnelSrc ← parseTunnelSrc tab
      let txPorts ← parseInstanceTxPorts tab
      let maxFrame ← parseMaxFrame tab
      pure
        { iface := iface.getD []
          ifindex := 0
          object := object.getD marlinDefaultObj
          pinDir := pinDir.getD marlinDefaultPinDir
          tunnelSrcSet := tunnelSrc.isSome
          tunnelSrc := tunnelSrc.getD 0
          txPorts := txPorts
          maxFrameSet := maxFrame.isSome
          maxFrame := maxFrame.getD 0 }
  | _ => .reject 0 "[instance] is required"

/-! ## [acl] and [ratelimit] -/

/-- The loop of `parse_acl_array`; `oom` says which allocations fail. -/
def parseAclFrom (oom : String → Bool) (key : String) : Nat → List Toml → Parsed (List ConfCidr)
  | _, [] => pure []
  | i, elem :: rest =>
      let cidr :=
        match elem with
        | .string bytes => confParseCidr (CBuf.str bytes)
        | _ => none
      match cidr with
      | none => do
          .report s!"acl.{key}[{i}] is not a valid CIDR prefix"
          parseAclFrom oom key (i + 1) rest
      | some cidr =>
          if oom s!"acl.{key}[{i}]" then do
            .report s!"out of memory parsing acl.{key}[{i}]"
            parseAclFrom oom key (i + 1) rest
          else do
            let cidrs ← parseAclFrom oom key (i + 1) rest
            pure (cidr :: cidrs)

def parseAclArray (oom : String → Bool) (tab : Toml) (key : String) : Parsed (List ConfCidr) :=
  match tab.get key with
  | none => pure []
  | some (.array elem) => parseAclFrom oom key 0 elem
  | some _ => .reject [] s!"acl.{key} must be an array of strings"

def aclEntries (cidrs : List ConfCidr) (isV6 : Bool) : List ConfAclEntry :=
  (cidrs.filter fun cidr => cidr.isV6 == isV6).map fun cidr => ⟨cidr.prefixlen, cidr.addr⟩

instance : Zero ConfAcl := ⟨⟨false, [], [], [], []⟩⟩

def parseAcl (oom : String → Bool) (top : Toml) : Parsed ConfAcl :=
  match top.get "acl" with
  | none => pure 0
  | some (.table entries) => do
      let tab := Toml.table entries
      let enabled ← getBool tab "enabled" "acl"
      let allow ← parseAclArray oom tab "allow"
      let block ← parseAclArray oom tab "block"
      pure
        { enabled := enabled.getD false
          allowV4 := aclEntries allow false
          blockV4 := aclEntries block false
          allowV6 := aclEntries allow true
          blockV6 := aclEntries block true }
  | some _ => .reject 0 "[acl] must be a table"

def parseRatelimitInt (tab : Toml) (key : String) : Parsed Nat := do
  match ← getInt tab key "ratelimit" with
  | .value val =>
      if val < 0 ∨ val > 0xffffffff then .reject 0 s!"ratelimit.{key} out of range"
      else pure val.toNat
  | _ => pure 0

instance : Zero ConfRatelimit := ⟨⟨false, 0, 0⟩⟩

def parseRatelimit (top : Toml) : Parsed ConfRatelimit :=
  match top.get "ratelimit" with
  | none => pure 0
  | some (.table entries) => do
      let tab := Toml.table entries
      let enabled ← getBool tab "enabled" "ratelimit"
      let tokensPerSec ← parseRatelimitInt tab "tokens_per_sec"
      let burstPackets ← parseRatelimitInt tab "burst_packets"
      pure ⟨enabled.getD false, tokensPerSec, burstPackets⟩
  | some _ => .reject 0 "[ratelimit] must be a table"

/-! ## [[backend]] -/

def backendEncapDport (mode : UInt8) : Option Nat → Be16
  | some hostValue => Be16.ofNat hostValue
  | none =>
      if mode = marlinModeGue then Be16.ofNat marlinGueDportDefault
      else if mode = marlinModeVxlan then Be16.ofNat marlinVxlanDportDefault
      else 0

def parseBackendId (tab : Toml) (path : String) : Parsed Nat := do
  match ← getInt tab "id" path with
  | .value val =>
      if val < 0 ∨ val ≥ maxBackends then
        .reject 0 s!"{path}.id out of range (0-{maxBackends - 1})"
      else pure val.toNat
  | .absent => .reject 0 s!"{path}.id is required"
  | .failed => pure 0

def parseBackendAddr (tab : Toml) (path : String) : Parsed Be32 := do
  match ← reqStr tab "addr" path 64 with
  | none => pure 0
  | some buf =>
      match confParseIpv4 buf.str with
      | none => .reject 0 s!"{path}.addr is not a valid IPv4 address"
      | some addr => pure addr

def parseBackendMode (tab : Toml) (path : String) : Parsed UInt8 := do
  match ← reqStr tab "mode" path 16 with
  | none => pure marlinModeL2dsr
  | some buf =>
      match confParseMode buf.str with
      | none => .reject marlinModeL2dsr s!"{path}.mode must be one of l2dsr, ipip, gue, vxlan"
      | some mode => pure mode

def parseBackendState (tab : Toml) (path : String) : Parsed Bool := do
  match ← getStr tab "state" path 8 with
  | .value buf =>
      match confParseState buf.str with
      | none => .reject true s!"{path}.state must be \"up\" or \"down\""
      | some up => pure up
  | _ => pure true

def parseBackendMac (tab : Toml) (key path : String) : Parsed (Option Mac) := do
  match ← getStr tab key path 32 with
  | .value buf =>
      match confParseMac buf.str with
      | none => .reject none s!"{path}.{key} is not a valid MAC address"
      | some mac => pure (some mac)
  | _ => pure none

/-- `encap_dport` and `vni`, which differ in their bound; `none` is not stated. -/
def parseBackendInt (tab : Toml) (key path : String) (bound : Nat) (range : String) :
    Parsed (Option Nat) := do
  match ← getInt tab key path with
  | .value val =>
      if val < 0 ∨ val > bound then .reject none s!"{path}.{key} out of range ({range})"
      else pure (some val.toNat)
  | _ => pure none

def parseBackendEncapDport (tab : Toml) (path : String) : Parsed (Option Nat) :=
  parseBackendInt tab "encap_dport" path 0xffff "0-65535"

def parseBackendVni (tab : Toml) (path : String) : Parsed (Option Nat) :=
  parseBackendInt tab "vni" path 0xffffff "0-0xffffff"

instance : Zero ConfBackend :=
  ⟨⟨[], 0, [], false, false, false, false, false, false, 0⟩⟩

def parseOneBackend (tab : Toml) (idx : Nat) : Parsed ConfBackend := do
  let path := s!"backend[{idx}]"
  let name ← reqStr tab "name" path marlinConfNameMax
  let id ← parseBackendId tab path
  let addr ← parseBackendAddr tab path
  let mode ← parseBackendMode tab path
  let up ← parseBackendState tab path
  let mac ← parseBackendMac tab "mac" path
  let fib ← getBool tab "fib" path
  let egress ← getStr tab "egress" path ifNamesize
  let dport ← parseBackendEncapDport tab path
  let vni ← parseBackendVni tab path
  let innerMac ← parseBackendMac tab "inner_mac" path
  pure
    { name := name.getD []
      id := id
      egress := egress.getD []
      hasEgress := match egress with | .value _ => true | _ => false
      macStated := mac.isSome
      fibStated := match fib with | .value _ => true | _ => false
      fibValue := fib.getD false
      vniStated := vni.isSome
      innerMacStated := innerMac.isSome
      abi :=
        { addr := addr
          mac := mac.getD 0
          encapDport := backendEncapDport mode dport
          flags := parsedBackendFlags mode up
          egressIfindex := 0
          vni := vni.getD 0
          innerMac := innerMac.getD 0
          id := 0 } }

/-- An element that is no table leaves the `calloc`ed backend. -/
def parseBackendElem (elem : Toml) (idx : Nat) : Parsed ConfBackend :=
  match elem with
  | .table entries => parseOneBackend (.table entries) idx
  | _ => .reject 0 s!"backend[{idx}] must be a table"

def parseBackends (oom : String → Bool) (top : Toml) : Parsed (List ConfBackend) :=
  match top.get "backend" with
  | none => pure []
  | some (.array elem) =>
      if oom "[[backend]]" ∧ elem.length > 0 then
        .reject [] "out of memory parsing [[backend]]"
      else .collect parseBackendElem 0 elem
  | some _ => .reject [] "[[backend]] must be an array of tables"

/-! ## [[vip]] -/

def marlinConfVipNumUnset : Nat := 0xffffffff

def vipQuicCidLenShift : UInt32 := 8
def vipDscpShift : UInt32 := 16

def parseVipFlag (tab : Toml) (key path : String) (bit : UInt32) : Parsed UInt32 := do
  let flag ← getBool tab key path
  pure (if flag.getD false then bit else 0)

def parseVipField (tab : Toml) (key path : String) (bound : Nat) (shift mask : UInt32) :
    Parsed UInt32 := do
  match ← getInt tab key path with
  | .value val =>
      if val < 0 ∨ val > bound then .reject 0 s!"{path}.{key} out of range (0-{bound})"
      else pure ((UInt32.ofNat val.toNat <<< shift) &&& mask)
  | _ => pure 0

def parseVipFlagBits (tab : Toml) (path : String) : Parsed UInt32 := do
  let acl ← parseVipFlag tab "acl" path vipAcl
  let ratelimit ← parseVipFlag tab "ratelimit" path vipRatelimit
  let hash5tuple ← parseVipFlag tab "hash_5tuple" path vipHash5tuple
  let hashPorts ← parseVipFlag tab "hash_ports" path vipHashPorts
  let quic ← parseVipFlag tab "quic" path vipQuic
  let cidLen ← parseVipField tab "quic_cid_len" path 31 vipQuicCidLenShift vipQuicCidLenMask
  let dscp ← parseVipField tab "dscp" path 63 vipDscpShift vipDscpMask
  pure (acl ||| ratelimit ||| hash5tuple ||| hashPorts ||| quic ||| cidLen ||| dscp)

instance : Zero VipKey := ⟨⟨0, 0, 0, 0⟩⟩

def parseOneAddr (str : List UInt8) (path : String) : Parsed VipKey :=
  match confParseIpv4 str with
  | some addr4 => pure { (0 : VipKey) with addr := ⟨addr4, 0, 0, 0⟩, family := afInet }
  | none =>
      match confParseIpv6 str with
      | some addr6 => pure { (0 : VipKey) with addr := addr6, family := afInet6 }
      | none => .reject 0 s!"{path} is not a valid IPv4 or IPv6 address"

def parseVipAddrElem (path : String) (elem : Toml) (i : Nat) : Parsed VipKey :=
  let addrPath := s!"{path}.addr[{i}]"
  match elem with
  | .string bytes =>
      if bytes.length ≥ 64 then .reject 0 s!"{addrPath} is too long (max 63 bytes)"
      else parseOneAddr (CBuf.str bytes) addrPath
  | _ => .reject 0 s!"{addrPath} must be a string"

def parseVipAddress (oom : String → Bool) (tab : Toml) (path : String) :
    Parsed (List VipKey) :=
  match tab.get "addr" with
  | none => .reject [] s!"{path}.addr is required"
  | some (.string bytes) =>
      if bytes.length ≥ 64 then .reject [] s!"{path}.addr is too long (max 63 bytes)"
      else if oom s!"{path}.addr" then .reject [] s!"out of memory parsing {path}.addr"
      else do
        let key ← parseOneAddr (CBuf.str bytes) s!"{path}.addr"
        pure [key]
  | some (.array elem) =>
      if elem.length = 0 then .reject [] s!"{path}.addr must not be an empty array"
      else if oom s!"{path}.addr" then .reject [] s!"out of memory parsing {path}.addr"
      else .collect (parseVipAddrElem path) 0 elem
  | some _ => .reject [] s!"{path}.addr must be a string or an array of strings"

instance : Zero ConfMember := ⟨⟨[], 0, 0⟩⟩

def parseMemberWeight (elem : Toml) (path : String) : Parsed Nat := do
  match ← getInt elem "weight" path with
  | .value weight =>
      if weight ≤ 0 ∨ weight > 0xffffffff then .reject 0 s!"{path}.weight out of range"
      else pure weight.toNat
  | .absent => .reject 0 s!"{path}.weight is required"
  | .failed => pure 0

def parseVipMember (path : String) (elem : Toml) (i : Nat) : Parsed ConfMember :=
  let path := s!"{path}.members[{i}]"
  match elem with
  | .table entries => do
      let name ← reqStr (.table entries) "backend" path marlinConfNameMax
      let weight ← parseMemberWeight (.table entries) path
      pure ⟨name.getD [], 0, weight⟩
  | _ => .reject 0
      s!"{path} is not a table (expected \x7b backend = ..., weight = ... \x7d)"

def parseVipMembers (oom : String → Bool) (tab : Toml) (path : String) :
    Parsed (List ConfMember) :=
  match tab.get "members" with
  | some (.array elem) =>
      if oom s!"{path}.members" ∧ elem.length > 0 then
        .reject [] s!"out of memory parsing {path}.members"
      else .collect (parseVipMember path) 0 elem
  | _ => .reject [] s!"{path}.members is required and must be an array"

def parseVipPort (tab : Toml) (path : String) : Parsed Be16 := do
  match ← getInt tab "port" path with
  | .value port =>
      if port < 0 ∨ port > 0xffff then .reject 0 s!"{path}.port out of range (0-65535)"
      else pure (Be16.ofNat port.toNat)
  | _ => pure 0

def parseVipProto (tab : Toml) (path : String) : Parsed UInt8 := do
  match ← reqStr tab "proto" path 8 with
  | none => pure 0
  | some buf =>
      match confParseProto buf.str with
      | none => .reject 0 s!"{path}.proto must be \"tcp\", \"udp\" or \"sctp\""
      | some proto => pure proto

def parseVipHexkey (tab : Toml) (key path : String) : Parsed Key16 := do
  let zero : Key16 := Vector.replicate 16 0
  match ← reqStr tab key path 40 with
  | none => pure zero
  | some buf =>
      match confParseHexkey16 buf.str with
      | none => .reject zero s!"{path}.{key} must be exactly 32 hex digits"
      | some bytes => pure bytes

def parseOneVip (oom : String → Bool) (tab : Toml) (idx : Nat) : Parsed ConfVip := do
  let path := s!"vip[{idx}]"
  let keys ← parseVipAddress oom tab path
  let port ← parseVipPort tab path
  let proto ← parseVipProto tab path
  let hashKey ← parseVipHexkey tab "hash_key" path
  let tableSeed ← parseVipHexkey tab "table_seed" path
  let flags ← parseVipFlagBits tab path
  let members ← parseVipMembers oom tab path
  pure
    { keys := keys.map fun key => { key with port := port, proto := proto }
      vipMeta := ⟨marlinConfVipNumUnset, flags, hashKey⟩
      tableSeed := tableSeed
      members := members }

instance : Zero ConfVip :=
  ⟨⟨[], ⟨0, 0, Vector.replicate 16 0⟩, Vector.replicate 16 0, []⟩⟩

def parseVipElem (oom : String → Bool) (elem : Toml) (idx : Nat) : Parsed ConfVip :=
  match elem with
  | .table entries => parseOneVip oom (.table entries) idx
  | _ => .reject 0 s!"vip[{idx}] must be a table"

def parseVips (oom : String → Bool) (top : Toml) : Parsed (List ConfVip) :=
  match top.get "vip" with
  | none => pure []
  | some (.array elem) =>
      if oom "[[vip]]" ∧ elem.length > 0 then .reject [] "out of memory parsing [[vip]]"
      else .collect (parseVipElem oom) 0 elem
  | some _ => .reject [] "[[vip]] must be an array of tables"

/-! ## Files -/

inductive ConfLoadMode where
  | full
  | instanceOnly
  deriving DecidableEq, Repr

structure ConfFile where
  path : String
  /-- The text of the `errno` where `open` or `fstat`, or later `fdopen`, fails. -/
  openFault : Option String
  fdopenFault : Option String
  othersMayWrite : Bool
  othersMayRead : Bool
  /-- The answer of the TOML parser. -/
  toml : Except String TomlDoc

structure ConfHost where
  nametoindex : CBuf → Nat
  oom : String → Bool

/-- The reports of `open_conf_file`, and whether it returns a stream. -/
def openConfFile (file : ConfFile) (enforce : Bool) : Parsed Bool :=
  match file.openFault with
  | some text => .reject false s!"{file.path}: {text}"
  | none =>
      if file.othersMayWrite ∧ enforce then
        .reject false s!"{file.path} is group- or world-writable; refusing to read it (chmod 0640)"
      else do
        let warned : Parsed Unit := ⟨(), warnIf (file.othersMayWrite = true)
          s!"{file.path} is group- or world-writable -- would be refused outside --check" ++
          warnIf (file.othersMayRead = true)
            s!"{file.path} is world-readable; it holds every VIP's hash_key and table_seed"⟩
        warned
        match file.fdopenFault with
        | some text => .reject false s!"{file.path}: {text}"
        | none => pure true

def parseConf (host : ConfHost) (mode : ConfLoadMode) (top : Toml) : Parsed MarlinConf := do
  let inst ← parseInstance top
  match mode with
  | .instanceOnly => pure ⟨inst, 0, 0, [], []⟩
  | .full => do
      let acl ← parseAcl host.oom top
      let ratelimit ← parseRatelimit top
      let backends ← parseBackends host.oom top
      let vips ← parseVips host.oom top
      pure ⟨inst, acl, ratelimit, backends, vips⟩

def confLoad (host : ConfHost) (file : ConfFile) (mode : ConfLoadMode) (enforcePerms : Bool)
    (diag : ConfDiag) : Option MarlinConf × ConfDiag :=
  let before := diag.msg.length
  let opened := openConfFile file enforcePerms
  let diag := diag.collect opened.reports
  if opened.val = false then (none, diag)
  else
    match file.toml with
    | .error errmsg => (none, diag.collect [.error s!"{file.path}: {errmsg}"])
    | .ok doc =>
        if host.oom file.path then
          (none, diag.collect [.error s!"out of memory parsing {file.path}"])
        else
          let parsed := parseConf host mode doc.toptab
          let diag := diag.collect parsed.reports
          if diag.msg.length ≠ before then (none, diag)
          else
            match mode with
            | .instanceOnly => (some parsed.val, diag)
            | .full =>
                let result := confCheck host.nametoindex parsed.val diag
                (if result.ok then some result.conf else none, result.diag)

end Marlin
