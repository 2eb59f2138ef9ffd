import Marlin.Library.Stepwise
import Marlin.Library.Table
import Marlin.Marlind.Conf

/-!
# The pinned maps and the calls that reach them

`Maps` is the state that `maps.h` declares and `reconcile.c` writes.  The libbpf
calls are `Stepwise` computations over it: an `Env` decides, call by call, which
of them fail and with which `errno`; a call that is not made to fail still fails
for the reasons the kernel has of its own (a full map, an index out of range, a
key that is not there).
-/

namespace Marlin

open Marlin.Library

/-! ## State -/

structure Maps where
  config : MarlinConfig
  backends : Nat → Backend
  fwdTable : Nat → Nat
  vipMap : Table VipKey VipMeta
  txPorts : Table Nat Nat
  aclAllowV4 : Table AclKey4 Nat
  aclBlockV4 : Table AclKey4 Nat
  aclAllowV6 : Table AclKey6 Nat
  aclBlockV6 : Table AclKey6 Nat

def Maps.fresh : Maps := ⟨0, fun _ => 0, fun _ => 0, ∅, ∅, ∅, ∅, ∅, ∅⟩

def fwdIndex (num row : Nat) : Nat := num * tableSize + row

def Maps.fwdRow (mp : Maps) (num row : Nat) : Nat := mp.fwdTable (fwdIndex num row)

theorem fwdIndex_inj {num row num' row' : Nat} (hrow : row < tableSize)
    (hrow' : row' < tableSize) :
    fwdIndex num row = fwdIndex num' row' ↔ num = num' ∧ row = row' := by
  simp only [fwdIndex, tableSize] at *
  omega

theorem fwdIndex_lt {num row : Nat} (hnum : num < maxVips) (hrow : row < tableSize) :
    fwdIndex num row < maxVips * tableSize := by
  simp only [fwdIndex, maxVips, tableSize] at *
  omega

/-! ## The environment -/

structure Errno where
  code : Nat
  deriving DecidableEq, Repr

namespace Errno

def enoent : Errno := ⟨2⟩
def e2big : Errno := ⟨7⟩
def enospc : Errno := ⟨28⟩

end Errno

/-- A failing write; a failing batch has already written its first `done` rows. -/
structure WriteFault where
  errno : Errno
  done : Nat
  deriving DecidableEq, Repr

inductive MapHandle where
  | missing
  | closed
  | opened
  deriving DecidableEq, Repr

inductive MapName where
  | config
  | backends
  | vipMap
  | txPorts
  | aclAllowV4
  | aclBlockV4
  | aclAllowV6
  | aclBlockV6
  deriving DecidableEq, Repr

/-- What the host answers to the call with the given number. -/
structure Env where
  mapFd : String → MapHandle
  /-- A failing `get_next_key` or lookup on a map. -/
  readFault : MapName → Nat → Option Errno
  writeFault : Nat → Option WriteFault
  deleteFault : Nat → Option Errno
  oom : Nat → Bool
  nametoindex : Nat → CBuf → Nat
  socket : Nat → Option Errno
  mtu : Nat → CBuf → Except Errno Int
  /-- Where in a map's iteration order a new key lands. -/
  slot : Nat → Nat
  /-- The two bytes that happen to follow a `__u16` local on the stack. -/
  stack : Nat → Nat
  strerror : Errno → String

/--
No failing delete says that the key was missing, and no failing read that the iteration of
`vip_map` has ended.  The kernel gives that answer only when it is so.
-/
structure Env.Honest (e : Env) : Prop where
  reads : ∀ n errno, e.readFault .vipMap n = some errno → errno ≠ .enoent
  deletes : ∀ n errno, e.deleteFault n = some errno → errno ≠ .enoent

/-- Every map operation and allocation succeeds that can. -/
structure Env.Calm (e : Env) : Prop where
  opened : ∀ name, e.mapFd name = .opened
  reads : ∀ map n, e.readFault map n = none
  writes : ∀ n, e.writeFault n = none
  deletes : ∀ n, e.deleteFault n = none
  memory : ∀ n, e.oom n = false

/-- No failure that could make a reconcile give up. -/
structure Env.Smooth (e : Env) : Prop where
  opened : ∀ name, e.mapFd name = .opened
  reads : ∀ n, e.readFault .vipMap n = none
  writes : ∀ n, e.writeFault n = none
  deletes : ∀ n, e.deleteFault n = none
  memory : ∀ n, e.oom n = false

theorem Env.Calm.smooth {e : Env} (h : e.Calm) : e.Smooth :=
  ⟨h.opened, h.reads _, h.writes, h.deletes, h.memory⟩

theorem Env.Smooth.honest {e : Env} (h : e.Smooth) : e.Honest :=
  ⟨fun n errno hfault => by simp [h.reads] at hfault,
    fun n errno hfault => by simp [h.deletes] at hfault⟩

abbrev Reconcile (α : Type) := Stepwise Env Maps String α

/-- `conf_diag_add` and `return false`. -/
def fail {α : Type} (text : String) : Reconcile α := do
  Stepwise.say text
  Stepwise.stop

def failErrno {α : Type} (text : String) (errno : Errno) : Reconcile α := do
  let reason ← Stepwise.ask fun e => e.strerror errno
  fail (text ++ reason)

def ifNametoindex (name : CBuf) : Reconcile Nat :=
  Stepwise.look fun e n _ => e.nametoindex n name

def callocFails : Reconcile Bool := Stepwise.look fun e n _ => e.oom n

/-! ## Hash maps and tries -/

/-- A keyed map of the program: how to reach it and when it is full. -/
structure TableRef (K V : Type) where
  name : MapName
  get : Maps → Table K V
  set : Table K V → Maps → Maps
  maxEntries : Nat
  full : Errno

def vipMapRef : TableRef VipKey VipMeta :=
  ⟨.vipMap, Maps.vipMap, fun t mp => { mp with vipMap := t }, maxVips, .e2big⟩

def txPortsRef : TableRef Nat Nat :=
  ⟨.txPorts, Maps.txPorts, fun t mp => { mp with txPorts := t }, maxTxPorts, .e2big⟩

def aclAllowV4Ref : TableRef AclKey4 Nat :=
  ⟨.aclAllowV4, Maps.aclAllowV4, fun t mp => { mp with aclAllowV4 := t }, maxAclEntries, .enospc⟩

def aclBlockV4Ref : TableRef AclKey4 Nat :=
  ⟨.aclBlockV4, Maps.aclBlockV4, fun t mp => { mp with aclBlockV4 := t }, maxAclEntries, .enospc⟩

def aclAllowV6Ref : TableRef AclKey6 Nat :=
  ⟨.aclAllowV6, Maps.aclAllowV6, fun t mp => { mp with aclAllowV6 := t }, maxAclEntries, .enospc⟩

def aclBlockV6Ref : TableRef AclKey6 Nat :=
  ⟨.aclBlockV6, Maps.aclBlockV6, fun t mp => { mp with aclBlockV6 := t }, maxAclEntries, .enospc⟩

namespace TableRef

variable {K V : Type} [DecidableEq K] (ref : TableRef K V)

def getNextKey (prev : Option K) : Reconcile (Except Errno K) :=
  Stepwise.look fun e n mp =>
    match e.readFault ref.name n with
    | some errno => .error errno
    | none =>
        match (ref.get mp).nextKey prev with
        | none => .error .enoent
        | some key => .ok key

def lookupElem (key : K) : Reconcile (Except Errno V) :=
  Stepwise.look fun e n mp =>
    match e.readFault ref.name n with
    | some errno => .error errno
    | none =>
        match (ref.get mp).lookup key with
        | none => .error .enoent
        | some value => .ok value

/-- `bpf_map_update_elem` with `BPF_ANY`; `none` is the return value 0. -/
def updateElem (key : K) (value : V) : Reconcile (Option Errno) :=
  Stepwise.put fun e n mp =>
    match e.writeFault n with
    | some fault => ([], some fault.errno)
    | none =>
        if key ∉ ref.get mp ∧ (ref.get mp).keys.length ≥ ref.maxEntries then
          ([], some ref.full)
        else ([ref.set ((ref.get mp).update (e.slot n) key value) mp], none)

def deleteElem (key : K) : Reconcile (Option Errno) :=
  Stepwise.put fun e n mp =>
    match e.deleteFault n with
    | some errno => ([], some errno)
    | none =>
        if key ∈ ref.get mp then ([ref.set ((ref.get mp).erase key) mp], none)
        else ([], some .enoent)

/-- The keys from `prev` on, as many as fit, up to the first refusal. -/
def collectKeys : Nat → Option K → Reconcile (List K)
  | 0, _ => pure []
  | room + 1, prev => do
      match ← ref.getNextKey prev with
      | .error _ => pure []
      | .ok key => do
          let rest ← collectKeys room (some key)
          pure (key :: rest)

end TableRef

/-! ## Arrays -/

def maxFwdEntries : Nat := maxVips * tableSize

def lookupBackend (key : Nat) : Reconcile (Except Errno Backend) :=
  Stepwise.look fun e n mp =>
    match e.readFault .backends n with
    | some errno => .error errno
    | none => if key < maxBackends then .ok (mp.backends key) else .error .enoent

def updateBackend (key : Nat) (value : Backend) : Reconcile (Option Errno) :=
  Stepwise.put fun e n mp =>
    match e.writeFault n with
    | some fault => ([], some fault.errno)
    | none =>
        if key < maxBackends then
          ([{ mp with backends := Function.update mp.backends key value }], none)
        else ([], some .e2big)

def updateConfig (value : MarlinConfig) : Reconcile (Option Errno) :=
  Stepwise.put fun e n mp =>
    match e.writeFault n with
    | some fault => ([], some fault.errno)
    | none => ([{ mp with config := value }], none)

def lookupConfig : Reconcile (Except Errno MarlinConfig) :=
  Stepwise.look fun e n mp =>
    match e.readFault .config n with
    | some errno => .error errno
    | none => .ok mp.config

def Maps.setFwd (mp : Maps) (key value : Nat) : Maps :=
  { mp with fwdTable := Function.update mp.fwdTable key value }

def updateFwd (key value : Nat) : Reconcile (Option Errno) :=
  Stepwise.put fun e n mp =>
    match e.writeFault n with
    | some fault => ([], some fault.errno)
    | none =>
        if key < maxFwdEntries then ([mp.setFwd key value], none)
        else ([], some .e2big)

/-- The states that writing the pairs one after the other passes through. -/
def Maps.setFwds : Maps → List (Nat × Nat) → List Maps :=
  trail fun mp kv => mp.setFwd kv.1 kv.2

/--
`bpf_map_update_batch` on `fwd_table`: the kernel stops at the first element it
cannot write and leaves those before it in place.
-/
def updateFwdBatch (kvs : List (Nat × Nat)) : Reconcile (Option Errno × Nat) :=
  Stepwise.put fun e n mp =>
    let valid := kvs.takeWhile fun kv => kv.1 < maxFwdEntries
    match e.writeFault n with
    | some fault =>
        let written := valid.take fault.done
        (mp.setFwds written, (some fault.errno, written.length))
    | none =>
        (mp.setFwds valid,
          (if valid.length = kvs.length then none else some .e2big, valid.length))

end Marlin
