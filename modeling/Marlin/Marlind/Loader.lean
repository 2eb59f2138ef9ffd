import Marlin.Marlind.Compat
import Marlin.Marlind.ReconcileRuns

/-!
# The loader

`config.c`, `preflight.c`, `bpf_load.c`, `cmd_attach.c`, `cmd_status.c` and `cmd_unpin.c` as
processes that share a kernel, one call of theirs a step; only a whole `reconcile_apply` and a
whole `attach_probe` are one step each.  What the host answers to the calls of a step is part of
it, so that every one of them may fail at every moment.
-/

namespace Marlin

/-! ## Exit codes -/

def exitAttached : Nat := 0
def exitUsage : Nat := 1
def exitNotAttached : Nat := 3
def exitForeign : Nat := 4
def exitIncompatible : Nat := 5
def exitConfig : Nat := 6

/-! ## The kernel -/

/-- The maps of the object file that are not internal. -/
inductive ObjMap where
  | config
  | mctxScratch
  | backends
  | fwdTable
  | vipMap
  | txPorts
  | aclAllowV4
  | aclBlockV4
  | aclAllowV6
  | aclBlockV6
  | ratelimit
  | vipStats
  | backendStats
  | dropStats
  deriving DecidableEq, Repr

def objMaps : List ObjMap :=
  [.config, .mctxScratch, .backends, .fwdTable, .vipMap, .txPorts, .aclAllowV4, .aclBlockV4,
    .aclAllowV6, .aclBlockV6, .ratelimit, .vipStats, .backendStats, .dropStats]

theorem mem_objMaps (m : ObjMap) : m ∈ objMaps := by
  cases m <;> decide

def ObjMap.name : ObjMap → CBuf
  | .config => cstr "config"
  | .mctxScratch => cstr "mctx_scratch"
  | .backends => cstr "backends"
  | .fwdTable => cstr "fwd_table"
  | .vipMap => cstr "vip_map"
  | .txPorts => cstr "tx_ports"
  | .aclAllowV4 => cstr "acl_allow_v4"
  | .aclBlockV4 => cstr "acl_block_v4"
  | .aclAllowV6 => cstr "acl_allow_v6"
  | .aclBlockV6 => cstr "acl_block_v6"
  | .ratelimit => cstr "ratelimit"
  | .vipStats => cstr "vip_stats"
  | .backendStats => cstr "backend_stats"
  | .dropStats => cstr "drop_stats"

def marlinProgName : CBuf := cstr "xdp_main"

inductive PinName where
  | map (m : ObjMap)
  | version
  | prog
  deriving DecidableEq, Repr

def PinName.name : PinName → CBuf
  | .map m => m.name
  | .version => cstr "version"
  | .prog => marlinProgName

def pinNames : List PinName := .prog :: .version :: objMaps.map .map

def pinPathFits (pinDir : CBuf) (pin : PinName) : Bool :=
  pinDir.str.length + 1 + pin.name.length < pathMax

/-- An object file: its `version` field, if it has one, the definitions of its maps and
whether there is a program of the loader's name. -/
structure BpfObject where
  build : Option CBuf
  layout : ObjMap → Nat
  hasProg : Bool

def marlinVersionMax : Nat := 64

def marlindBuildVersion (build : CBuf) : List UInt8 := CBuf.str (build.take marlinVersionMax)

/-- One `bpf_object__load`: what was loaded and under which directory its maps are pinned. -/
structure BpfLoad where
  object : BpfObject
  pinDir : CBuf

/-- An XDP link.  `prog` is the load whose program it runs and `owner` the process that holds
it; both are `none` for links of other software. -/
structure XdpLink where
  id : Nat
  ifindex : Nat
  prog : Option Nat
  owner : Option Nat
  deriving DecidableEq, Repr

/--
Interfaces with their indices, XDP links in the order of their identifiers, pins and maps.
What one load creates has the number of the load: a pinned map is the map of its name that
the load created, and `heap` holds the contents of the maps of each load.
-/
structure Kernel where
  ifs : List (Nat × CBuf)
  nextIfindex : Nat
  links : List XdpLink
  nextLink : Nat
  pins : CBuf → PinName → Option Nat
  loads : Nat
  loaded : Nat → BpfLoad
  heap : Nat → Maps

namespace Kernel

def nametoindex (k : Kernel) (name : CBuf) : Nat :=
  ((k.ifs.find? fun netdev => netdev.2.str == name.str).map Prod.fst).getD 0

def pin (k : Kernel) (dir : CBuf) (name : PinName) (obj : Option Nat) : Kernel :=
  { k with pins := Function.update k.pins dir (Function.update (k.pins dir) name obj) }

/-- The maps behind the handles of a loaded object. -/
def view (k : Kernel) (handles : ObjMap → Nat) : Maps where
  config := (k.heap (handles .config)).config
  backends := (k.heap (handles .backends)).backends
  fwdTable := (k.heap (handles .fwdTable)).fwdTable
  vipMap := (k.heap (handles .vipMap)).vipMap
  txPorts := (k.heap (handles .txPorts)).txPorts
  aclAllowV4 := (k.heap (handles .aclAllowV4)).aclAllowV4
  aclBlockV4 := (k.heap (handles .aclBlockV4)).aclBlockV4
  aclAllowV6 := (k.heap (handles .aclAllowV6)).aclAllowV6
  aclBlockV6 := (k.heap (handles .aclBlockV6)).aclBlockV6

def store (k : Kernel) (handles : ObjMap → Nat) (mp : Maps) : Kernel :=
  { k with
    heap := fun load =>
      let old := k.heap load
      { config := if handles .config = load then mp.config else old.config
        backends := if handles .backends = load then mp.backends else old.backends
        fwdTable := if handles .fwdTable = load then mp.fwdTable else old.fwdTable
        vipMap := if handles .vipMap = load then mp.vipMap else old.vipMap
        txPorts := if handles .txPorts = load then mp.txPorts else old.txPorts
        aclAllowV4 := if handles .aclAllowV4 = load then mp.aclAllowV4 else old.aclAllowV4
        aclBlockV4 := if handles .aclBlockV4 = load then mp.aclBlockV4 else old.aclBlockV4
        aclAllowV6 := if handles .aclAllowV6 = load then mp.aclAllowV6 else old.aclAllowV6
        aclBlockV6 := if handles .aclBlockV6 = load then mp.aclBlockV6 else old.aclBlockV6 } }

@[simp] theorem view_store (k : Kernel) (handles : ObjMap → Nat) (mp : Maps) :
    (k.store handles mp).view handles = mp := by
  simp [store, view]

def close (k : Kernel) (pid : Nat) : Kernel :=
  { k with links := k.links.filter (·.owner ≠ some pid) }

end Kernel

/-! ## Netlink -/

structure NlMsg where
  type : Nat
  len : Nat
  ifindex : Nat
  deriving DecidableEq, Repr

def nlmsgHdrlen : Nat := 16
def nlmsgAlign (len : Nat) : Nat := (len + 3) / 4 * 4
def rtmDellink : Nat := 17
def linkMonitorBuf : Nat := 4096

/-- The messages that the `NLMSG_OK` loop reaches in the `len` bytes that were received. -/
def nlmsgsWithin (len : Nat) : List NlMsg → List NlMsg
  | [] => []
  | nlh :: rest =>
      if nlmsgHdrlen ≤ len ∧ nlmsgHdrlen ≤ nlh.len ∧ nlh.len ≤ len then
        nlh :: nlmsgsWithin (len - nlmsgAlign nlh.len) rest
      else []

/-- What `recv` leaves of a datagram in the buffer. -/
def nlmsgsReceived (datagram : List NlMsg) : List NlMsg :=
  nlmsgsWithin (min linkMonitorBuf (datagram.map fun nlh => nlmsgAlign nlh.len).sum) datagram

/-- A datagram is read up to its first message for the interface; with that, reading ends. -/
def linkMonitorSawDellink (ifindex : Nat) : List (List NlMsg) → Bool × List (List NlMsg)
  | [] => (false, [])
  | datagram :: queue =>
      if (nlmsgsReceived datagram).any fun nlh => nlh.type == rtmDellink && nlh.ifindex == ifindex
      then (true, queue)
      else linkMonitorSawDellink ifindex queue

/-! ## Configuration and preflight -/

structure AttachConfig where
  iface : CBuf
  ifindex : Nat
  objPath : CBuf
  pinDir : CBuf
  file : Option MarlinConf

structure Environ where
  iface : Option CBuf
  obj : Option CBuf
  pinDir : Option CBuf

structure ConfState where
  edits : Nat
  file : ConfFile

structure Files where
  objects : CBuf → Option BpfObject
  confs : CBuf → ConfState

/-- Whether the calls of `attach_probe` succeed. -/
structure ProbeHost where
  /-- `bpf_obj_get` and `bpf_obj_get_info_by_fd` for the program that is pinned. -/
  prog : Bool
  /-- `bpf_link_get_next_id` from the link of this identifier (0 at the start) until the next
  XDP link or the end. -/
  next : Nat → Bool
  /-- `bpf_link_get_fd_by_id` and `bpf_obj_get_info_by_fd` for the link of this identifier. -/
  info : Nat → Bool

/-- What the host answers to the calls of the step that a process makes next. -/
structure Answers where
  /-- No call fails that can fail for reasons outside the model. -/
  ok : Bool
  readOk : Bool
  root : Bool
  bpffs : Bool
  lro : Option Bool
  groHw : Option Bool
  confHost : ConfHost
  env : Env
  probe : ProbeHost
  /-- `epoll_wait` reports the netlink socket first. -/
  netlink : Bool

/-- `getenv`, an empty value counting as none. -/
def getenvNonempty (value : Option CBuf) : Option CBuf := value.filter (·.str ≠ [])

def loadConfigEnv (k : Kernel) (environ : Environ) : Except Nat AttachConfig :=
  match getenvNonempty environ.iface with
  | none => .error exitUsage
  | some iface =>
      let pinDir := (getenvNonempty environ.pinDir).getD marlinDefaultPinDir
      if pinDir.str.length ≥ pathMax ∨ pinPathFits pinDir .prog = false then .error exitUsage
      else if k.nametoindex iface = 0 then .error exitUsage
      else .ok
        { iface := iface
          ifindex := k.nametoindex iface
          objPath := (getenvNonempty environ.obj).getD marlinDefaultObj
          pinDir := pinDir
          file := none }

def loadConfigFile (k : Kernel) (host : ConfHost) (file : ConfFile) (mode : ConfLoadMode) :
    Except Nat AttachConfig :=
  match (confLoad host file mode true confDiagReset).1 with
  | none => .error exitConfig
  | some conf =>
      if conf.inst.pinDir.str.length ≥ pathMax ∨ pinPathFits conf.inst.pinDir .prog = false then
        .error exitConfig
      else if k.nametoindex conf.inst.iface = 0 then .error exitConfig
      else .ok
        { iface := conf.inst.iface
          ifindex := k.nametoindex conf.inst.iface
          objPath := conf.inst.object
          pinDir := conf.inst.pinDir
          file := some conf }

def loadConfig (k : Kernel) (files : Files) (environ : Environ) (confPath : Option CBuf)
    (mode : ConfLoadMode) (a : Answers) : Except Nat AttachConfig :=
  match confPath with
  | none => loadConfigEnv k environ
  | some path => loadConfigFile k a.confHost (files.confs path).file mode

def checkObjectVersion (object : BpfObject) : Except Nat Unit :=
  match object.build with
  | none => .error exitIncompatible
  | some build =>
      if marlindBpfObjectSupported (marlindBuildVersion build) = .ok then .ok ()
      else .error exitIncompatible

def preflight (files : Files) (cfg : AttachConfig) (a : Answers) : Except Nat Unit :=
  if a.root = false then .error exitUsage
  else
    match files.objects cfg.objPath with
    | none => .error exitUsage
    | some object =>
        if a.ok = false then .error exitUsage
        else
          match checkObjectVersion object with
          | .error code => .error code
          | .ok () =>
              if a.bpffs = false then .error exitUsage
              else if a.lro = some true then .error exitUsage
              else if a.groHw = some true then .error exitUsage
              else .ok ()

/-! ## `attach_probe` -/

/-- The loop over the links behind the one of identifier `id`: a link that cannot be read is
passed over, and the first XDP link on the interface that can be decides. -/
def probeLinks (h : ProbeHost) (pinned : Option Nat) (ifindex : Nat) :
    Nat → List XdpLink → Except Nat Nat
  | id, [] => if h.next id then .ok exitNotAttached else .error exitUsage
  | id, link :: rest =>
      if h.next id = false then .error exitUsage
      else if h.info link.id = false ∨ link.ifindex ≠ ifindex then
        probeLinks h pinned ifindex link.id rest
      else if pinned = none ∨ link.prog ≠ pinned then .ok exitForeign
      else .ok exitAttached

/-- The exit code of the probe; a pinned program that cannot be read counts as none. -/
def attachProbe (h : ProbeHost) (k : Kernel) (pinDir : CBuf) (ifindex : Nat) : Except Nat Nat :=
  probeLinks h (if h.prog then k.pins pinDir .prog else none) ifindex 0 k.links

/-! ## `cmd_attach` -/

/-- The call that `cmd_attach` makes next. -/
inductive AttachPc where
  | started
  | configured
  | checked
  | signalled
  | watching
  | opening
  | loading (rest : List ObjMap)
  | versionUnlink
  | versionPin
  | reconciling
  | progUnlink
  | progPin
  | attaching
  | serving
  | reloading
  /-- `none` after a signal that is not caught. -/
  | exited (code : Option Nat)
  deriving DecidableEq, Repr

/--
A `marlind --attach`.  The last three fields are its history: how often the file had been
edited when the last SIGHUP was sent and when the file was last read, whether the kernel had
to drop a message for its socket, and whether its last reconcile went through.
-/
structure AttachProc where
  pc : AttachPc
  environ : Environ
  confPath : Option CBuf
  cfg : AttachConfig
  own : Nat
  handles : ObjMap → Nat
  link : Nat
  hup : Bool
  term : Bool
  sockErr : Bool
  queue : List (List NlMsg)
  asked : Nat
  read : Nat
  missed : Bool
  clean : Bool

namespace AttachPc

def signals : AttachPc → Bool
  | .started | .configured | .checked | .exited _ => false
  | _ => true

def watches : AttachPc → Bool
  | .started | .configured | .checked | .signalled | .exited _ => false
  | _ => true

def holds : AttachPc → Bool
  | .serving | .reloading => true
  | _ => false

def active : AttachPc → Bool
  | .started | .exited _ => false
  | _ => true

def ended : AttachPc → Bool
  | .exited _ => true
  | _ => false

end AttachPc

/-- What of the process outlives `exit`: its history. -/
def AttachProc.exit (p : AttachProc) (code : Option Nat) : AttachProc :=
  { p with pc := .exited code, hup := false, term := false, queue := [], sockErr := false }

section

variable {S : Type} [LinearOrder S] (score : UInt64 → Nat → S)

/-- `load_and_pin_maps` for one map: libbpf reuses what is pinned and pins what it creates. -/
def loadMap (k : Kernel) (p : AttachProc) (m : ObjMap) (rest : List ObjMap) (ok : Bool) :
    Kernel × AttachProc :=
  match k.pins p.cfg.pinDir (.map m) with
  | some load =>
      if ok = true ∧ (k.loaded load).object.layout m = (k.loaded p.own).object.layout m then
        (k, { p with pc := .loading rest, handles := Function.update p.handles m load })
      else (k, p.exit (some exitUsage))
  | none =>
      if ok = true then
        (k.pin p.cfg.pinDir (.map m) (some p.own),
          { p with pc := .loading rest, handles := Function.update p.handles m p.own })
      else (k, p.exit (some exitUsage))

def reconcileAtStartup (k : Kernel) (p : AttachProc) (e : Env) : Kernel × AttachProc :=
  match p.cfg.file with
  | none => (k, { p with pc := .progUnlink })
  | some conf =>
      let outcome := reconcileApply score .layout conf e 0 (k.view p.handles)
      match outcome.result with
      | none => (k.store p.handles outcome.store, p.exit (some exitConfig))
      | some file =>
          (k.store p.handles outcome.store,
            { p with pc := .progUnlink, cfg := { p.cfg with file := some file }, clean := true })

def reloadNow (k : Kernel) (files : Files) (p : AttachProc) (a : Answers) : Kernel × AttachProc :=
  match p.confPath, p.cfg.file with
  | some path, some prev =>
      let conf := files.confs path
      let p := { p with pc := .serving, read := conf.edits }
      match confLoad a.confHost conf.file .full true confDiagReset with
      | (none, _) => (k, p)
      | (some next, diag) =>
          if (confCheckAgainstPrevious next prev diag).1 = false then (k, p)
          else
            let outcome := reconcileApply score .layout next a.env 0 (k.view p.handles)
            match outcome.result with
            | none => (k.store p.handles outcome.store, { p with clean := false })
            | some file =>
                (k.store p.handles outcome.store,
                  { p with cfg := { p.cfg with file := some file }, clean := true })
  | _, _ => (k, { p with pc := .serving })

/-- `attach_link`; the kernel has one XDP link to an interface. -/
def attachLink (k : Kernel) (pid : Nat) (p : AttachProc) (ok : Bool) : Kernel × AttachProc :=
  if ok = true ∧ p.cfg.ifindex ∈ k.ifs.map Prod.fst ∧
      p.cfg.ifindex ∉ k.links.map XdpLink.ifindex then
    ({ k with
        links := k.links ++ [⟨k.nextLink, p.cfg.ifindex, some p.own, some pid⟩]
        nextLink := k.nextLink + 1 },
      { p with pc := .serving, link := k.nextLink })
  else (k, p.exit (some exitUsage))

/-- One turn of the `epoll_wait` loop for one descriptor that is ready. -/
def serveOnce (k : Kernel) (p : AttachProc) (a : Answers) : Kernel × AttachProc :=
  if a.ok = false then (k, p.exit (some exitUsage))
  else if a.netlink = true then
    if p.sockErr = true then (k, { p with sockErr := false })
    else
      match linkMonitorSawDellink p.cfg.ifindex p.queue with
      | (true, _) => (k, p.exit (some exitNotAttached))
      | (false, queue) => (k, { p with queue := queue })
  else if p.hup = true ∨ p.term = true then
    if a.readOk = false then (k, p.exit (some exitAttached))
    else if p.hup = true then (k, { p with hup := false, pc := .reloading })
    else (k, p.exit (some exitAttached))
  else (k, p)

def attachCall (k : Kernel) (files : Files) (pid : Nat) (p : AttachProc) (a : Answers) :
    Kernel × AttachProc :=
  match p.pc with
  | .started =>
      match loadConfig k files p.environ p.confPath .full a with
      | .error code => (k, p.exit (some code))
      | .ok cfg =>
          (k, { p with
            pc := .configured
            cfg := cfg
            read := (p.confPath.map fun path => (files.confs path).edits).getD p.read })
  | .configured =>
      match preflight files p.cfg a with
      | .error code => (k, p.exit (some code))
      | .ok () => (k, { p with pc := .checked })
  | .checked =>
      if a.ok then (k, { p with pc := .signalled }) else (k, p.exit (some exitUsage))
  | .signalled =>
      if a.ok then (k, { p with pc := .watching }) else (k, p.exit (some exitUsage))
  | .watching =>
      if a.ok then (k, { p with pc := .opening }) else (k, p.exit (some exitUsage))
  | .opening =>
      match files.objects p.cfg.objPath with
      | none => (k, p.exit (some exitUsage))
      | some object =>
          if a.ok = true ∧ objMaps.all (fun m => pinPathFits p.cfg.pinDir (.map m)) = true then
            ({ k with
                loads := k.loads + 1
                loaded := Function.update k.loaded k.loads ⟨object, p.cfg.pinDir⟩
                heap := Function.update k.heap k.loads Maps.fresh },
              { p with pc := .loading objMaps, own := k.loads })
          else (k, p.exit (some exitUsage))
  | .loading (m :: rest) => loadMap k p m rest a.ok
  | .loading [] =>
      if a.ok then (k, { p with pc := .versionUnlink }) else (k, p.exit (some exitUsage))
  | .versionUnlink =>
      if (k.loaded p.own).object.build = none then (k, { p with pc := .reconciling })
      else if a.ok = true ∧ pinPathFits p.cfg.pinDir .version = true then
        (k.pin p.cfg.pinDir .version none, { p with pc := .versionPin })
      else (k, p.exit (some exitUsage))
  | .versionPin =>
      if a.ok = true ∧ k.pins p.cfg.pinDir .version = none then
        (k.pin p.cfg.pinDir .version (some p.own), { p with pc := .reconciling })
      else (k, p.exit (some exitUsage))
  | .reconciling => reconcileAtStartup score k p a.env
  | .progUnlink =>
      if a.ok = true ∧ (k.loaded p.own).object.hasProg = true then
        (k.pin p.cfg.pinDir .prog none, { p with pc := .progPin })
      else (k, p.exit (some exitUsage))
  | .progPin =>
      if a.ok = true ∧ k.pins p.cfg.pinDir .prog = none then
        (k.pin p.cfg.pinDir .prog (some p.own), { p with pc := .attaching })
      else (k, p.exit (some exitUsage))
  | .attaching => attachLink k pid p a.ok
  | .serving => serveOnce k p a
  | .reloading => reloadNow score k files p a
  | .exited _ => (k, p)

end

/-! ## `cmd_unpin` -/

inductive UnpinPc where
  | started
  | probing
  | progUnlink
  | opening
  | clearing (rest : List PinName)
  | exited (code : Option Nat)
  deriving DecidableEq, Repr

structure UnpinProc where
  pc : UnpinPc
  environ : Environ
  confPath : Option CBuf
  cfg : AttachConfig

namespace UnpinPc

def active : UnpinPc → Bool
  | .started | .exited _ => false
  | _ => true

def removes : UnpinPc → Bool
  | .progUnlink | .opening | .clearing _ => true
  | _ => false

def ended : UnpinPc → Bool
  | .exited _ => true
  | _ => false

end UnpinPc

def UnpinProc.exit (u : UnpinProc) (code : Option Nat) : UnpinProc := { u with pc := .exited code }

def Kernel.entries (k : Kernel) (dir : CBuf) : List PinName :=
  pinNames.filter fun name => (k.pins dir name).isSome

def unpinCall (k : Kernel) (files : Files) (u : UnpinProc) (a : Answers) : Kernel × UnpinProc :=
  match u.pc with
  | .started =>
      match loadConfig k files u.environ u.confPath .instanceOnly a with
      | .error code => (k, u.exit (some code))
      | .ok cfg => (k, { u with pc := .probing, cfg := cfg })
  | .probing =>
      match attachProbe a.probe k u.cfg.pinDir u.cfg.ifindex with
      | .error code => (k, u.exit (some code))
      | .ok code =>
          if code = exitAttached then (k, u.exit (some exitUsage))
          else (k, { u with pc := .progUnlink })
  | .progUnlink =>
      if a.ok then (k.pin u.cfg.pinDir .prog none, { u with pc := .opening })
      else (k, u.exit (some exitUsage))
  | .opening =>
      if a.ok then (k, { u with pc := .clearing (k.entries u.cfg.pinDir) })
      else (k, u.exit (some exitUsage))
  | .clearing (name :: rest) =>
      -- a failing `unlink` is ignored
      (if a.ok then k.pin u.cfg.pinDir name none else k, { u with pc := .clearing rest })
  | .clearing [] =>
      if a.ok = true ∧ k.entries u.cfg.pinDir = [] then (k, u.exit (some 0))
      else (k, u.exit (some exitUsage))
  | .exited _ => (k, u)

/-! ## Processes and kernel together -/

inductive Signal where
  | hup
  /-- SIGTERM or SIGINT. -/
  | term
  | kill
  deriving DecidableEq, Repr

structure World where
  kernel : Kernel
  files : Files
  attaches : Nat → Option AttachProc
  unpins : Nat → Option UnpinProc

/-- What can happen next: to the host, to a process, or by a process making its next call. -/
inductive Act where
  | edit (path : CBuf) (file : ConfFile)
  | install (path : CBuf) (object : Option BpfObject)
  | addIf (name : CBuf)
  /-- The interface goes; `overrun` are the processes whose socket has no room for the notice. -/
  | removeIf (ifindex len : Nat) (overrun : List Nat)
  | notice (msgs : List NlMsg) (overrun : List Nat)
  | foreignAttach (ifindex : Nat)
  | foreignDetach (id : Nat)
  | signal (pid : Nat) (sig : Signal)
  | attach (pid : Nat) (environ : Environ) (confPath : Option CBuf)
  | unpin (pid : Nat) (environ : Environ) (confPath : Option CBuf)
  | run (pid : Nat) (a : Answers)

def Act.caller : Act → Option Nat
  | .run pid _ => some pid
  | _ => none

/-- A message to the group reaches those who listen, unless it finds no room. -/
def AttachProc.deliver (p : AttachProc) (overrun : Bool) (msgs : List NlMsg) : AttachProc :=
  if p.pc.watches = false then p
  else if overrun = true then { p with sockErr := true, missed := true }
  else { p with queue := p.queue ++ [msgs] }

def AttachConfig.empty : AttachConfig := ⟨[], 0, [], [], none⟩

def AttachProc.start (environ : Environ) (confPath : Option CBuf) : AttachProc :=
  { pc := .started, environ := environ, confPath := confPath, cfg := .empty, own := 0,
    handles := fun _ => 0, link := 0, hup := false, term := false, sockErr := false, queue := [],
    asked := 0, read := 0, missed := false, clean := false }

def AttachProc.edits (p : AttachProc) (files : Files) : Nat :=
  (p.confPath.map fun path => (files.confs path).edits).getD 0

/-- A signal before `open_signal_fd` has its default effect. -/
def AttachProc.signal (p : AttachProc) (files : Files) : Signal → AttachProc
  | .kill => p.exit none
  | .hup =>
      if p.pc.signals then { p with hup := true, asked := p.edits files } else p.exit none
  | .term => if p.pc.signals then { p with term := true } else p.exit none

namespace World

/-- Process `pid` has moved on; if it has ended, its descriptors are closed. -/
def setAttach (w : World) (pid : Nat) (k : Kernel) (p : AttachProc) : World :=
  { w with
    kernel := if p.pc.ended then k.close pid else k
    attaches := Function.update w.attaches pid (some p) }

def broadcast (w : World) (overrun : List Nat) (msgs : List NlMsg) : World :=
  { w with
    attaches := fun pid => (w.attaches pid).map fun p => p.deliver (overrun.contains pid) msgs }

section

variable {S : Type} [LinearOrder S] (score : UInt64 → Nat → S)

/-- Nothing happens where the act is not possible.  A notice that an interface goes is one
message that fits the reader's buffer. -/
def step (w : World) : Act → World
  | .edit path file =>
      { w with
        files.confs := Function.update w.files.confs path
          ⟨(w.files.confs path).edits + 1, file⟩ }
  | .install path object =>
      { w with files.objects := Function.update w.files.objects path object }
  | .addIf name =>
      { w with
        kernel.ifs := w.kernel.ifs ++ [(w.kernel.nextIfindex, name)]
        kernel.nextIfindex := w.kernel.nextIfindex + 1 }
  | .removeIf ifindex len overrun =>
      if nlmsgHdrlen ≤ len ∧ len ≤ linkMonitorBuf then
        { w with
          kernel.ifs := w.kernel.ifs.filter (·.1 ≠ ifindex)
          kernel.links := w.kernel.links.filter (·.ifindex ≠ ifindex) }.broadcast overrun
          [⟨rtmDellink, len, ifindex⟩]
      else w
  | .notice msgs overrun => w.broadcast overrun msgs
  | .foreignAttach ifindex =>
      if ifindex ∈ w.kernel.ifs.map Prod.fst ∧ ifindex ∉ w.kernel.links.map XdpLink.ifindex then
        { w with
          kernel.links := w.kernel.links ++ [⟨w.kernel.nextLink, ifindex, none, none⟩]
          kernel.nextLink := w.kernel.nextLink + 1 }
      else w
  | .foreignDetach id =>
      { w with
        kernel.links := w.kernel.links.filter fun link => link.id ≠ id ∨ link.owner ≠ none }
  | .signal pid sig =>
      match w.attaches pid, w.unpins pid with
      | some p, _ =>
          if p.pc.ended then w else w.setAttach pid w.kernel (p.signal w.files sig)
      | none, some u =>
          if u.pc.ended then w
          else { w with unpins := Function.update w.unpins pid (some (u.exit none)) }
      | none, none => w
  | .attach pid environ confPath =>
      if w.attaches pid = none ∧ w.unpins pid = none then
        { w with attaches := Function.update w.attaches pid (some (.start environ confPath)) }
      else w
  | .unpin pid environ confPath =>
      if w.attaches pid = none ∧ w.unpins pid = none then
        { w with
          unpins := Function.update w.unpins pid (some ⟨.started, environ, confPath, .empty⟩) }
      else w
  | .run pid a =>
      match w.attaches pid, w.unpins pid with
      | some p, _ =>
          let (k, p) := attachCall score w.kernel w.files pid p a
          w.setAttach pid k p
      | none, some u =>
          let (k, u) := unpinCall w.kernel w.files u a
          { w with kernel := k, unpins := Function.update w.unpins pid (some u) }
      | none, none => w

def run (w : World) (acts : List Act) : World := acts.foldl (step score) w

theorem run_append (w : World) (acts later : List Act) :
    w.run score (acts ++ later) = (w.run score acts).run score later :=
  List.foldl_append

theorem run_cons (w : World) (act : Act) (acts : List Act) :
    w.run score (act :: acts) = (w.step score act).run score acts :=
  rfl

end

/-- No process runs yet; there are no pins and no links of the loader's. -/
structure Boot (w : World) : Prop where
  attaches : ∀ pid, w.attaches pid = none
  unpins : ∀ pid, w.unpins pid = none
  pins : ∀ dir name, w.kernel.pins dir name = none
  foreign : ∀ link ∈ w.kernel.links, link.prog = none ∧ link.owner = none
  distinct : (w.kernel.links.map XdpLink.ifindex).Nodup

end World

end Marlin
