import Marlin.Library.Stepwise
import Marlin.Library.Table
import Marlin.Library.Election
import Marlin.Library.Buffer
import Marlin.Library.OnesComplement
import Marlin.Abi
import Marlin.Siphash
import Marlin.Library.SipHash
import Marlin.SiphashReference
import Marlin.Marlind.FwdGen
import Marlin.Marlind.VipAlloc
import Marlin.Marlind.VipAllocPlan
import Marlin.Marlind.Conf
import Marlin.Marlind.ConfCheck
import Marlin.Marlind.Maps
import Marlin.Marlind.Reconcile
import Marlin.Marlind.ReloadStep
import Marlin.Marlind.ReconcileBlocks
import Marlin.Marlind.ReconcileAside
import Marlin.Marlind.ReconcilePlan
import Marlin.Marlind.ReconcileWhole
import Marlin.Marlind.ReloadSafety
import Marlin.Marlind.VipAllocComplete
import Marlin.Marlind.ReconcileRuns
import Marlin.Marlind.ReconcileSuccess
import Marlin.Marlind.ReconcileRetry
import Marlin.Marlind.VipAllocSettled
import Marlin.Marlind.ReconcileAgain
import Marlin.Marlind.ReconcileRefusal
import Marlin.Marlind.CmdAttach
import Marlin.Marlind.ReloadDefect
import Marlin.Bpf.Context
import Marlin.Bpf.Parser
import Marlin.Bpf.Stats
import Marlin.Bpf.Acl
import Marlin.Bpf.Ratelimit
import Marlin.Bpf.Encap
import Marlin.Bpf.Nexthop
import Marlin.Bpf.LbCore
import Marlin.Bpf.Verdicts
import Marlin.Bpf.Wire
import Marlin.Bpf.ExtWalk
import Marlin.Bpf.IcmpFlow
import Marlin.Library.Runs
import Marlin.Library.TokenBucket
import Marlin.Bpf.RatelimitCpus
import Marlin.Bpf.Fragments
import Marlin.Bpf.Decap
import Marlin.Bpf.Csum
import Marlin.Bpf.Tunnel
import Marlin.Bpf.EncapLength
import Marlin.Realisation
import Marlin.Filtering
import Marlin.Library.BitPrefix
import Marlin.FilterPrefix
import Marlin.Bpf.QuicCid
import Marlin.Bpf.UdpLength
import Marlin.Agreement
import Marlin.Affinity
import Marlin.Bpf.Accounting
import Marlin.Bpf.L2dsr
import Marlin.Marlind.ConfParse
import Marlin.Marlind.ConfSound
import Marlin.Marlind.ConfCidr
import Marlin.Marlind.Compat
import Marlin.Marlind.FwdGenChoice
import Marlin.Marlind.FwdGenInput
import Marlin.Marlind.VipAllocValid
import Marlin.Marlind.VipAllocCycles
import Marlin.Bpf.RatelimitIdeal
import Marlin.Bpf.RatelimitRetries
import Marlin.Bpf.RatelimitScale
import Marlin.Racing
import Marlin.Marlind.ReconcileOn
import Marlin.Underway
import Marlin.HitlessReload
import Marlin.KeptAddress
import Marlin.Marlind.Loader
import Marlin.Marlind.LoaderStep
import Marlin.Marlind.LoaderRuns
import Marlin.Marlind.LoaderSignals
import Marlin.Marlind.LoaderPins
import Marlin.Marlind.LoaderMaps
import Marlin.Emission
import Marlin.Marlind.ReconcileOwn
import Marlin.Containment
