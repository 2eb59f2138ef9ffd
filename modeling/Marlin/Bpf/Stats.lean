import Marlin.Bpf.Context
import Marlin.Marlind.Maps

/-!
# Counters and helpers

The per-CPU statistics of `stats.h`, and `Host`: what the kernel's helpers answer
to the program while it handles one packet.  Array lookups with an index in range
always succeed, so a counter with such an index is always there.
-/

namespace Marlin

/-! ## Statistics -/

structure Stats where
  packets : UInt64
  bytes : UInt64
  deriving DecidableEq, Repr

/-- One CPU's `vip_stats`, `backend_stats` and `drop_stats`. -/
structure Counters where
  vipStats : Nat → Stats
  backendStats : Nat → Stats
  dropStats : Nat → UInt64

def MarlinRet.value (rc : MarlinRet) : Nat := rc.ctorIdx

def marlinRetMax : Nat := 37

def marlinStatsReason (rc : MarlinRet) (counters : Counters) : Counters :=
  if rc.value < MarlinRet.passVipMiss.value ∨ rc.value ≥ marlinRetMax then counters
  else
    { counters with
      dropStats :=
        Function.update counters.dropStats rc.value (counters.dropStats rc.value + 1) }

def marlinStatsAdd (slots : Nat → Stats) (key len : Nat) : Nat → Stats :=
  Function.update slots key
    ⟨(slots key).packets + 1, (slots key).bytes + UInt64.ofNat len⟩

def marlinStatsVip (vipNum len : Nat) (counters : Counters) : Counters :=
  if vipNum ≥ maxVips then counters
  else { counters with vipStats := marlinStatsAdd counters.vipStats vipNum len }

def marlinStatsBackend (backendId len : Nat) (counters : Counters) : Counters :=
  if backendId ≥ maxBackends then counters
  else { counters with backendStats := marlinStatsAdd counters.backendStats backendId len }

/-! ## Helpers -/

structure BpfFibLookup where
  family : UInt8
  totLen : Nat
  ifindex : Nat
  tos : UInt8
  ipv4Dst : Be32
  smac : Mac
  dmac : Mac
  deriving DecidableEq, Repr

structure Host where
  ingressIfindex : Nat
  /-- The `n`-th `bpf_ktime_get_ns` of this packet. -/
  ktimeGetNs : Nat → Nat
  /-- What other CPUs have made of a bucket by this packet's `n`-th access to it. -/
  rlRace : Nat → UInt64 → UInt64
  rlInsertFails : Bool
  adjustHeadFails : Nat → Bool
  /-- The bytes that a grown frame finds in the headroom. -/
  headroom : Nat → UInt8
  loadBytesFails : Nat → Nat → Bool
  fibLookup : BpfFibLookup → Int × BpfFibLookup

def Host.adjustHead (host : Host) (count : Nat) (frame : Frame) : Option Frame :=
  if host.adjustHeadFails count then none
  else some ((List.range count).map host.headroom ++ frame)

def Host.loadBytes (host : Host) (frame : Frame) (pos len : Nat) : Option (List UInt8) :=
  if host.loadBytesFails pos len ∨ pos + len > frame.length then none
  else some ((List.range len).map fun i => frame.byte (pos + i))

namespace Sample

def host : Host where
  ingressIfindex := 1
  ktimeGetNs _ := 0
  rlRace _ state := state
  rlInsertFails := false
  adjustHeadFails _ := false
  headroom _ := 0
  loadBytesFails _ _ := false
  fibLookup fib := (0, fib)

def counters : Counters := ⟨fun _ => ⟨0, 0⟩, fun _ => ⟨0, 0⟩, fun _ => 0⟩

end Sample

end Marlin
