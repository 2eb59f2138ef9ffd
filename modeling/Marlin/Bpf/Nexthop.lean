import Marlin.Bpf.Stats
import Marlin.Library.Buffer

/-!
# Next hop

`nexthop.c`: the Ethernet addresses of the emitted frame, from the backend's stored
address, from a swap of the arriving ones, or from the FIB.
-/

namespace Marlin

open Marlin.Library

inductive MarlinNhDiscipline where
  | encap
  | l2dsr
  deriving DecidableEq, Repr

structure NhResult where
  rc : MarlinRet
  frame : Frame
  counters : Counters

def bpfFibLkupRetSuccess : Int := 0
def bpfFibLkupRetBlackhole : Int := 1
def bpfFibLkupRetUnreachable : Int := 2
def bpfFibLkupRetProhibit : Int := 3
def bpfFibLkupRetFwdDisabled : Int := 5
def bpfFibLkupRetNoNeigh : Int := 7
def bpfFibLkupRetFragNeeded : Int := 8

def marlinBackendMacSet (be : Backend) : Bool :=
  be.mac.m0 ||| be.mac.m1 ||| be.mac.m2 ||| be.mac.m3 ||| be.mac.m4 ||| be.mac.m5 != 0

def setEthSource (frame : Frame) (mac : Mac) : Frame := splice frame 6 mac.bytes
def setEthDest (frame : Frame) (mac : Mac) : Frame := splice frame 0 mac.bytes

def marlinNexthopStoreMac (frame : Frame) (be : Backend) : Frame :=
  setEthDest (setEthSource frame (frame.mac 0)) be.mac

def marlinFibOnlink (fib : BpfFibLookup) (backendAddr : Be32) : Bool :=
  fib.family == afInet && fib.ipv4Dst == backendAddr

def marlinNexthopCheckEgress (be : Backend) (ifindex : Nat) (counters : Counters) :
    Counters :=
  if be.egressIfindex ≠ 0 ∧ be.egressIfindex ≠ ifindex then
    marlinStatsReason .countEgressMismatch counters
  else counters

/-- The query that `marlin_nexthop_fib` hands to `bpf_fib_lookup`. -/
def marlinFibQuery (host : Host) (frame : Frame) (mctx : MarlinCtx) : BpfFibLookup :=
  { family := afInet
    totLen := (frame.length - ethHlen) % 65536
    ifindex := host.ingressIfindex
    tos := marlinOuterTos mctx
    ipv4Dst := mctx.backend.addr
    smac := 0
    dmac := 0 }

def marlinNexthopFib (host : Host) (maps : Maps) (frame : Frame) (mctx : MarlinCtx)
    (disc : MarlinNhDiscipline) (counters : Counters) : NhResult :=
  if mctx.backend.addr = 0 then ⟨.dropBackendUnresolved, frame, counters⟩
  else
    let (rc, fib) := host.fibLookup (marlinFibQuery host frame mctx)
    if rc = bpfFibLkupRetSuccess then
      if disc = .l2dsr ∧ !marlinFibOnlink fib mctx.backend.addr then
        ⟨.dropFibGatewayed, frame, counters⟩
      else
        let frame := setEthDest (setEthSource frame fib.smac) fib.dmac
        let counters := marlinNexthopCheckEgress mctx.backend fib.ifindex counters
        if fib.ifindex = host.ingressIfindex then ⟨.okTx, frame, counters⟩
        else if (maps.txPorts.lookup fib.ifindex).isNone then
          ⟨.dropNoTxPort, frame, counters⟩
        else ⟨.okRedirect, frame, counters⟩
    else if rc = bpfFibLkupRetNoNeigh then
      if disc = .l2dsr ∧ marlinFibOnlink fib mctx.backend.addr ∧
          fib.ifindex = host.ingressIfindex ∧ marlinBackendMacSet mctx.backend then
        let counters := marlinNexthopCheckEgress mctx.backend fib.ifindex counters
        ⟨.okTx, marlinNexthopStoreMac frame mctx.backend,
          marlinStatsReason .countNeighFallback counters⟩
      else ⟨.dropFibNoNeigh, frame, counters⟩
    else if rc = bpfFibLkupRetFwdDisabled then ⟨.dropFibFwdDisabled, frame, counters⟩
    else if rc = bpfFibLkupRetBlackhole then ⟨.dropFibBlackhole, frame, counters⟩
    else if rc = bpfFibLkupRetUnreachable then ⟨.dropFibUnreachable, frame, counters⟩
    else if rc = bpfFibLkupRetProhibit then ⟨.dropFibProhibit, frame, counters⟩
    else if rc = bpfFibLkupRetFragNeeded then ⟨.dropFragNeeded, frame, counters⟩
    else ⟨.dropFibUnspec, frame, counters⟩

def marlinNexthopL2dsr (host : Host) (maps : Maps) (frame : Frame) (mctx : MarlinCtx)
    (counters : Counters) : NhResult :=
  if ethHlen > frame.length then ⟨.dropParseError, frame, counters⟩
  else if mctx.backend.flags &&& marlinBeFFib = 0 then
    if marlinBackendMacSet mctx.backend then
      ⟨.okTx, marlinNexthopStoreMac frame mctx.backend,
        marlinNexthopCheckEgress mctx.backend host.ingressIfindex counters⟩
    else
      let counters :=
        if mctx.backend.addr ≠ 0 then marlinStatsReason .countMacFallback counters
        else counters
      marlinNexthopFib host maps frame mctx .l2dsr counters
  else marlinNexthopFib host maps frame mctx .l2dsr counters

def marlinNexthopEncapsulate (host : Host) (maps : Maps) (frame : Frame) (mctx : MarlinCtx)
    (counters : Counters) : NhResult :=
  if ethHlen > frame.length then ⟨.dropParseError, frame, counters⟩
  else if mctx.backend.flags &&& marlinBeFFib ≠ 0 then
    marlinNexthopFib host maps frame mctx .encap counters
  else
    let counters := marlinNexthopCheckEgress mctx.backend host.ingressIfindex counters
    if encapMode mctx.backend.flags = marlinModeVxlan then ⟨.okTx, frame, counters⟩
    else
      let tmp := frame.mac 0
      ⟨.okTx, setEthSource (setEthDest frame (frame.mac 6)) tmp, counters⟩

end Marlin
