import Marlin.Bpf.Wire
import Marlin.Bpf.Verdicts
import Mathlib.Algebra.BigOperators.Group.Finset.Basic
import Mathlib.Algebra.BigOperators.Group.List.Basic
import Mathlib.Data.UInt

/-!
# Packet accounting

Every frame that is not forwarded is counted exactly once, under the reason that its
verdict stands for, and a forwarded frame is not.  The counters in between are those of
`MARLIN_COUNT_*`, which no verdict uses.
-/

namespace Marlin

/-! ## Reasons -/

def passReasons : List MarlinRet := [.passVipMiss, .passIcmpEcho, .passNotForwarded]

def lossReasons : List MarlinRet :=
  [.dropNoBackend, .dropBackendDown, .dropBackendUnresolved, .dropParseError,
    .dropUnsupportedProto, .dropExtHdrLimit, .dropIcmpUnparseable, .dropFibNoNeigh,
    .dropFibFwdDisabled, .dropFibBlackhole, .dropFibUnreachable, .dropFibProhibit,
    .dropFibGatewayed, .dropFibUnspec, .dropFragNeeded, .dropAdjustHead, .dropEncapLength,
    .dropFrameTooBig, .dropMapBounds, .dropNoTxPort, .dropAclBlocked, .dropRatelimited,
    .dropFragUnsupported, .abortNullref]

def MarlinRet.isCount : MarlinRet → Bool
  | .countMacFallback | .countNeighFallback | .countEgressMismatch | .countRlCasExhausted
  | .countRlInsertFailed | .countQuicCidRouted | .countQuicCidCheckFailed => true
  | _ => false

/-- A verdict: neither `MARLIN_OK` nor a counter's name. -/
def MarlinRet.isVerdict (rc : MarlinRet) : Bool := rc ≠ .ok && !rc.isCount

theorem MarlinRet.verdict_cases {rc : MarlinRet} (h : rc.isVerdict = true) :
    (rc ∈ passReasons ∧ marlinAction rc = .pass) ∨
      (rc ∈ lossReasons ∧ (marlinAction rc = .drop ∨ marlinAction rc = .aborted)) ∨
      ((rc = .okTx ∧ marlinAction rc = .tx) ∨
        (rc = .okRedirect ∧ marlinAction rc = .redirect)) := by
  cases rc <;> revert h <;> decide

/-! ## Counters -/

/-- `c'` differs from `c` in no counter but those of `MARLIN_COUNT_*`. -/
def Counters.Steady (c c' : Counters) : Prop :=
  ∀ rc : MarlinRet, rc.isCount = false → c'.dropStats rc.value = c.dropStats rc.value

theorem Counters.Steady.refl (c : Counters) : c.Steady c := fun _ _ => rfl

theorem Counters.Steady.trans {c c' c'' : Counters} (h : c.Steady c') (h' : c'.Steady c'') :
    c.Steady c'' :=
  fun rc hrc => (h' rc hrc).trans (h rc hrc)

theorem MarlinRet.value_injective : Function.Injective MarlinRet.value :=
  Function.LeftInverse.injective MarlinRet.ofNat_ctorIdx

theorem marlinStatsReason_dropStats (rc other : MarlinRet) (c : Counters)
    (hcounted : MarlinRet.passVipMiss.value ≤ rc.value) :
    (marlinStatsReason rc c).dropStats other.value =
      c.dropStats other.value + if other = rc then 1 else 0 := by
  have hmax : rc.value < marlinRetMax := by cases rc <;> decide
  rw [marlinStatsReason, if_neg (by omega)]
  by_cases heq : other = rc
  · subst heq
    simp
  · have hne : other.value ≠ rc.value := fun h => heq (MarlinRet.value_injective h)
    simp [Function.update_of_ne hne, heq]

theorem marlinStatsReason_steady (rc : MarlinRet) (hrc : rc.isCount = true) (c : Counters) :
    c.Steady (marlinStatsReason rc c) := by
  intro other hother
  have hcounted : MarlinRet.passVipMiss.value ≤ rc.value := by
    cases rc <;> revert hrc <;> decide
  have hne : other ≠ rc := by
    rintro rfl
    simp [hrc] at hother
  rw [marlinStatsReason_dropStats rc other c hcounted, if_neg hne]
  exact UInt64.add_zero _

theorem marlinStatsVip_steady (num len : Nat) (c : Counters) :
    c.Steady (marlinStatsVip num len c) := by
  intro rc _
  simp only [marlinStatsVip]
  split <;> rfl

theorem marlinStatsBackend_steady (id len : Nat) (c : Counters) :
    c.Steady (marlinStatsBackend id len c) := by
  intro rc _
  simp only [marlinStatsBackend]
  split <;> rfl

/-! ## Next hop -/

theorem marlinNexthopCheckEgress_steady (be : Backend) (ifindex : Nat) (c : Counters) :
    c.Steady (marlinNexthopCheckEgress be ifindex c) := by
  simp only [marlinNexthopCheckEgress]
  split
  · exact marlinStatsReason_steady _ rfl c
  · exact .refl c

theorem marlinNexthopFib_accounted (host : Host) (maps : Maps) (frame : Frame) (pkt : MarlinCtx)
    (disc : MarlinNhDiscipline) (c : Counters) :
    (marlinNexthopFib host maps frame pkt disc c).rc.isVerdict = true ∧
      c.Steady (marlinNexthopFib host maps frame pkt disc c).counters := by
  have hegress := fun ifindex => marlinNexthopCheckEgress_steady pkt.backend ifindex c
  have hneigh := marlinStatsReason_steady .countNeighFallback rfl
  simp only [marlinNexthopFib]
  repeat' split
  all_goals first
    | exact ⟨rfl, .refl c⟩
    | exact ⟨rfl, hegress _⟩
    | exact ⟨rfl, (hegress _).trans (hneigh _)⟩

theorem marlinNexthopL2dsr_accounted (host : Host) (maps : Maps) (frame : Frame)
    (pkt : MarlinCtx) (c : Counters) :
    (marlinNexthopL2dsr host maps frame pkt c).rc.isVerdict = true ∧
      c.Steady (marlinNexthopL2dsr host maps frame pkt c).counters := by
  simp only [marlinNexthopL2dsr]
  split
  · exact ⟨rfl, .refl c⟩
  · split
    · split
      · exact ⟨rfl, marlinNexthopCheckEgress_steady _ _ _⟩
      · have hfallback : c.Steady (if pkt.backend.addr ≠ 0 then
            marlinStatsReason .countMacFallback c else c) := by
          split
          · exact marlinStatsReason_steady _ rfl c
          · exact .refl c
        have hfib := marlinNexthopFib_accounted host maps frame pkt .l2dsr
          (if pkt.backend.addr ≠ 0 then marlinStatsReason .countMacFallback c else c)
        exact ⟨hfib.1, hfallback.trans hfib.2⟩
    · exact marlinNexthopFib_accounted ..

theorem marlinNexthopEncapsulate_accounted (host : Host) (maps : Maps) (frame : Frame)
    (pkt : MarlinCtx) (c : Counters) :
    (marlinNexthopEncapsulate host maps frame pkt c).rc.isVerdict = true ∧
      c.Steady (marlinNexthopEncapsulate host maps frame pkt c).counters := by
  simp only [marlinNexthopEncapsulate]
  split
  · exact ⟨rfl, .refl c⟩
  · split
    · exact marlinNexthopFib_accounted ..
    · split
      · exact ⟨rfl, marlinNexthopCheckEgress_steady _ _ _⟩
      · exact ⟨rfl, marlinNexthopCheckEgress_steady _ _ _⟩

/-! ## Forwarding -/

theorem MarlinRet.ofForwarding_not_count {rc : MarlinRet} (h : rc.ofForwarding = true) :
    rc.isCount = false := by
  cases rc <;> first | rfl | cases h

theorem marlinLbEncapPacket_not_count (host : Host) (frame : Frame) (pkt : MarlinCtx) :
    (marlinLbEncapPacket host frame pkt).1.isCount = false := by
  rcases marlinLbEncapPacket_ofForwarding host frame pkt with hrc | ⟨hrc, -⟩
  · exact MarlinRet.ofForwarding_not_count hrc
  · rw [hrc]
    rfl

theorem marlinLbForward_accounted (host : Host) (maps : Maps) (vip : VipMeta) (x : Xdp) :
    (marlinLbForward host maps vip x).1.isVerdict = true ∧
      x.counters.Steady (marlinLbForward host maps vip x).2.counters := by
  simp only [marlinLbForward]
  split
  · next hrc =>
    refine ⟨?_, .refl _⟩
    have hnot : (marlinLbValidate x.pkt x.frame.length).isCount = false := by
      simp only [marlinLbValidate]
      repeat' split
      all_goals rfl
    simp [MarlinRet.isVerdict, hrc, hnot]
  · split
    · split
      · next hrc =>
        refine ⟨?_, .refl _⟩
        simp [MarlinRet.isVerdict, hrc, marlinLbEncapPacket_not_count]
      · exact marlinNexthopEncapsulate_accounted ..
    · exact marlinNexthopL2dsr_accounted ..

/-! ## Admission and selection -/

theorem rlExchange_accounted (host : Host) (key : RlKey) (rate burst : UInt64) (n : Nat) :
    ∀ (access : Nat) (old : UInt64) (c : Counters) (buckets : RatelimitMap),
      (rlExchange host key rate burst n access old c buckets).rc.isCount = false ∧
        c.Steady (rlExchange host key rate burst n access old c buckets).counters := by
  induction n with
  | zero =>
      intro access old c buckets
      exact ⟨rfl, marlinStatsReason_steady .countRlCasExhausted rfl c⟩
  | succ n ih =>
      intro access old c buckets
      simp only [rlExchange]
      split
      · exact ⟨rfl, .refl c⟩
      · split
        · exact ⟨rfl, .refl c⟩
        · exact ih _ _ _ _

theorem marlinRatelimit_accounted (host : Host) (pkt : MarlinCtx) (c : Counters)
    (buckets : RatelimitMap) :
    (marlinRatelimit host pkt c buckets).rc.isCount = false ∧
      c.Steady (marlinRatelimit host pkt c buckets).counters := by
  simp only [marlinRatelimit]
  repeat' split
  all_goals first
    | exact rlExchange_accounted ..
    | exact ⟨rfl, .refl c⟩
    | exact ⟨rfl, marlinStatsReason_steady .countRlInsertFailed rfl c⟩

theorem marlinLbAclEnforce_not_count (pkt : MarlinCtx) (vmeta : Option VipMeta) :
    (marlinLbAclEnforce pkt vmeta).isCount = false := by
  simp only [marlinLbAclEnforce]
  repeat' split
  all_goals rfl

theorem marlinLbAdmit_accounted (host : Host) (vmeta : Option VipMeta) (x : Xdp) :
    (marlinLbAdmit host vmeta x).1.isCount = false ∧
      x.counters.Steady (marlinLbAdmit host vmeta x).2.counters := by
  have hacl := marlinLbAclEnforce_not_count
  have hvip := fun num => marlinStatsVip_steady num x.pkt.pktLen x.counters
  simp only [marlinLbAdmit]
  split
  · refine ⟨?_, .refl _⟩
    split
    · exact hacl x.pkt none
    · rfl
  · next vip =>
    split
    · exact ⟨rfl, .refl _⟩
    · split
      · exact ⟨hacl x.pkt (some vip), hvip _⟩
      · simp only [marlinLbFilter]
        repeat' split
        · exact ⟨rfl, hvip _⟩
        · exact ⟨rfl, hvip _⟩
        · exact ⟨rfl, hvip _⟩
        · have hlimit := marlinRatelimit_accounted host x.pkt
            (marlinStatsVip vip.vipNum x.pkt.pktLen x.counters) x.buckets
          exact ⟨hlimit.1, (hvip _).trans hlimit.2⟩

theorem marlinLbAdmit_none (host : Host) (x : Xdp) : (marlinLbAdmit host none x).1 ≠ .ok := by
  simp only [marlinLbAdmit]
  split
  · assumption
  · decide

theorem marlinLbQuicDecode_steady (host : Host) (vip : VipMeta) (x : Xdp) :
    x.counters.Steady (marlinLbQuicDecode host vip x).2.counters := by
  have hfailed := marlinStatsReason_steady .countQuicCidCheckFailed rfl x.counters
  simp only [marlinLbQuicDecode]
  repeat' split
  all_goals first | exact .refl _ | exact hfailed

theorem marlinLbSelectBackend_steady (host : Host) (maps : Maps) (vip : VipMeta) (x : Xdp) :
    x.counters.Steady (marlinLbSelectBackend host maps vip x).2.counters := by
  have hquic : x.counters.Steady (marlinLbSelectBackendQuic host maps vip x).2.counters := by
    have hdecode := marlinLbQuicDecode_steady host vip x
    simp only [marlinLbSelectBackendQuic]
    repeat' split
    · exact hdecode
    · exact hdecode
    · exact hdecode
    · exact hdecode.trans (marlinStatsReason_steady .countQuicCidRouted rfl _)
  simp only [marlinLbSelectBackend]
  split
  · split
    · next heq =>
      rw [heq] at hquic
      exact hquic
    · next heq =>
      rw [heq] at hquic
      exact hquic
  · exact .refl _

theorem marlinLbLoadBackend_accounted (target : Option Backend) (x : Xdp) :
    (marlinLbLoadBackend target x).1.isCount = false ∧
      x.counters.Steady (marlinLbLoadBackend target x).2.counters := by
  simp only [marlinLbLoadBackend]
  split
  · exact ⟨rfl, .refl _⟩
  · split
    · exact ⟨rfl, marlinStatsBackend_steady _ _ _⟩
    · exact ⟨rfl, marlinStatsBackend_steady _ _ _⟩

theorem marlinLbProcessPacket_accounted (host : Host) (maps : Maps) (vip : VipMeta) (x : Xdp) :
    (marlinLbProcessPacket host maps vip x).1.isVerdict = true ∧
      x.counters.Steady (marlinLbProcessPacket host maps vip x).2.counters := by
  have hselect := marlinLbSelectBackend_steady host maps vip x
  have hload := marlinLbLoadBackend_accounted (marlinLbSelectBackend host maps vip x).1
    (marlinLbSelectBackend host maps vip x).2
  simp only [marlinLbProcessPacket]
  split
  · next hrc =>
    refine ⟨?_, .refl _⟩
    have hnot : (marlinLbCheckFrag x.pkt vip).isCount = false := by
      simp only [marlinLbCheckFrag]
      repeat' split
      all_goals rfl
    simp [MarlinRet.isVerdict, hrc, hnot]
  · split
    · next hrc => exact ⟨by simp [MarlinRet.isVerdict, hrc, hload.1], hselect.trans hload.2⟩
    · have hforward := marlinLbForward_accounted host maps vip
        (marlinLbLoadBackend (marlinLbSelectBackend host maps vip x).1
          (marlinLbSelectBackend host maps vip x).2).2
      exact ⟨hforward.1, (hselect.trans hload.2).trans hforward.2⟩

theorem marlinLbProcess_accounted (host : Host) (maps : Maps) (x : Xdp) :
    (marlinLbProcess host maps x).1.isVerdict = true ∧
      x.counters.Steady (marlinLbProcess host maps x).2.counters := by
  simp only [marlinLbProcess]
  generalize ({ x.pkt with aclVerdict := marlinAclCheck maps x.pkt } : MarlinCtx) = pkt
  generalize marlinLbSelectVip maps pkt = vmeta
  have hlet := marlinLbAdmit_accounted host vmeta { x with pkt := pkt }
  split
  · next hrc => exact ⟨by simp [MarlinRet.isVerdict, hrc, hlet.1], hlet.2⟩
  · next hrc =>
    cases vmeta with
    | none => exact absurd (marlinLbAdmit_none host { x with pkt := pkt }) hrc
    | some vip =>
        have hpacket := marlinLbProcessPacket_accounted host maps vip
          (marlinLbAdmit host (some vip) { x with pkt := pkt }).2
        exact ⟨hpacket.1, Counters.Steady.trans hlet.2 hpacket.2⟩

/-! ## Parsing -/

theorem marlinWalkExt6Loop_not_count (frame : Frame) (maxExt n : Nat) :
    ∀ (i off : Nat) (nexthdr : UInt8) (out : MarlinL3) (rc : MarlinRet),
      marlinWalkExt6Loop frame maxExt n i off nexthdr out = .error rc → rc.isCount = false := by
  induction n with
  | zero =>
      rintro i off nexthdr out rc ⟨⟩
      rfl
  | succ n ih =>
      intro i off nexthdr out rc h
      simp only [marlinWalkExt6Loop] at h
      repeat' split at h
      all_goals first
        | (cases h <;> rfl)
        | exact ih _ _ _ _ _ h

theorem marlinParseL3_not_count {frame : Frame} {l3Off : Nat} {family : UInt8} {maxExt : Nat}
    {rc : MarlinRet} (h : marlinParseL3 frame l3Off family maxExt = .error rc) :
    rc.isCount = false := by
  simp only [marlinParseL3] at h
  repeat' split at h
  all_goals first
    | (cases h <;> rfl)
    | exact marlinWalkExt6Loop_not_count _ _ _ _ _ _ _ _ h

theorem marlinParsePorts_not_count {frame : Frame} {l4Off : Nat} {proto : UInt8}
    {rc : MarlinRet} (h : marlinParsePorts frame l4Off proto = .error rc) :
    rc.isCount = false := by
  simp only [marlinParsePorts] at h
  repeat' split at h
  all_goals (cases h <;> rfl)

theorem marlinParseIcmp_not_count (frame : Frame) (l4Off : Nat) (family : UInt8)
    (pkt : MarlinCtx) : (marlinParseIcmp frame l4Off family pkt).1.isCount = false := by
  simp only [marlinParseIcmp]
  repeat' split
  all_goals rfl

theorem marlinParseL4_not_count (frame : Frame) (family : UInt8) (l3 : MarlinL3)
    (pkt : MarlinCtx) : (marlinParseL4 frame family l3 pkt).1.isCount = false := by
  simp only [marlinParseL4]
  repeat' split
  all_goals first
    | rfl
    | exact marlinParseIcmp_not_count ..
    | (next h => exact marlinParsePorts_not_count h)

theorem marlinParse_not_count (frame : Frame) (pkt : MarlinCtx) :
    (marlinParse frame pkt).1.isCount = false := by
  simp only [marlinParse]
  split
  · rfl
  · split
    · rfl
    · split
      · next h => exact marlinParseL3_not_count h
      · exact marlinParseL4_not_count ..

/-! ## Runs -/

/-- A frame with what the program meets while it handles it, and the CPU it runs on. -/
structure Arrival (cpus : Nat) where
  cpu : Fin cpus
  host : Host
  maps : Maps
  buckets : RatelimitMap
  frame : Frame
  /-- The lookups of `mctx_scratch` and `config` that come before everything else. -/
  scratchFails : Bool
  configFails : Bool

def Arrival.xdpMain {cpus : Nat} (a : Arrival cpus) (c : Counters) : XdpAction × Counters :=
  if a.scratchFails then (.aborted, marlinStatsReason .dropMapBounds c)
  else if a.configFails then (.aborted, marlinStatsReason .dropMapBounds c)
  else
    let (action, x) := Marlin.xdpMain a.host a.maps a.frame c a.buckets
    (action, x.counters)

def xdpRun {cpus : Nat} : List (Arrival cpus) → (Fin cpus → Counters) →
    List XdpAction × (Fin cpus → Counters)
  | [], c => ([], c)
  | a :: rest, c =>
      let (action, counters) := a.xdpMain (c a.cpu)
      let (actions, c) := xdpRun rest (Function.update c a.cpu counters)
      (action :: actions, c)

def Counters.total (c : Counters) (reasons : List MarlinRet) : UInt64 :=
  (reasons.map fun rc => c.dropStats rc.value).sum

def statsTotal {cpus : Nat} (c : Fin cpus → Counters) (reasons : List MarlinRet) : UInt64 :=
  ∑ cpu, (c cpu).total reasons

def MarlinRet.Explains (rc : MarlinRet) (action : XdpAction) : Prop :=
  (rc ∈ passReasons ∧ action = .pass) ∨
    (rc ∈ lossReasons ∧ (action = .drop ∨ action = .aborted)) ∨
    (rc ∉ passReasons ++ lossReasons ∧ (action = .tx ∨ action = .redirect))

/-- A frame with this action is counted once, under a reason that stands for the action. -/
def Counters.Counted (c c' : Counters) (action : XdpAction) : Prop :=
  ∃ rc : MarlinRet, rc.Explains action ∧ ∀ other ∈ passReasons ++ lossReasons,
    c'.dropStats other.value = c.dropStats other.value + if other = rc then 1 else 0

theorem MarlinRet.explains {rc : MarlinRet} (h : rc.isVerdict = true) :
    rc.Explains (marlinAction rc) := by
  rcases rc.verdict_cases h with hpass | hloss | htx | hredirect
  · exact .inl hpass
  · exact .inr (.inl hloss)
  · exact .inr (.inr ⟨by rw [htx.1]; decide, .inl htx.2⟩)
  · exact .inr (.inr ⟨by rw [hredirect.1]; decide, .inr hredirect.2⟩)

theorem not_count_of_mem_reasons : ∀ rc ∈ passReasons ++ lossReasons, rc.isCount = false := by
  decide

theorem Counters.Steady.counted {c c' : Counters} (hsteady : c.Steady c') {rc : MarlinRet}
    (hrc : rc.isVerdict = true) {action : XdpAction} (haction : rc.Explains action) :
    c.Counted (marlinStatsReason rc c') action := by
  refine ⟨rc, haction, fun other hother => ?_⟩
  have hnot := not_count_of_mem_reasons other hother
  by_cases hcounted : MarlinRet.passVipMiss.value ≤ rc.value
  · rw [marlinStatsReason_dropStats rc other c' hcounted, hsteady other hnot]
  · -- `MARLIN_OK_TX` and `MARLIN_OK_REDIRECT` have no counter
    have hne : other ≠ rc := by
      rintro rfl
      revert hcounted hother
      cases other <;> decide
    rw [marlinStatsReason, if_pos (.inl (by omega)), if_neg hne, hsteady other hnot]
    exact (UInt64.add_zero _).symm

theorem xdpMain_counted (host : Host) (maps : Maps) (frame : Frame) (c : Counters)
    (buckets : RatelimitMap) :
    c.Counted (xdpMain host maps frame c buckets).2.counters
      (xdpMain host maps frame c buckets).1 := by
  simp only [xdpMain]
  split
  · next hrc =>
    have hverdict : (marlinParse frame (MarlinCtx.start maps.config)).1.isVerdict = true := by
      simp [MarlinRet.isVerdict, hrc, marlinParse_not_count]
    exact (Counters.Steady.refl c).counted hverdict (MarlinRet.explains hverdict)
  · have hprocess := marlinLbProcess_accounted host maps
      ⟨frame, (marlinParse frame (MarlinCtx.start maps.config)).2, c, buckets⟩
    exact hprocess.2.counted hprocess.1 (MarlinRet.explains hprocess.1)

theorem Arrival.xdpMain_counted {cpus : Nat} (a : Arrival cpus) (c : Counters) :
    c.Counted (a.xdpMain c).2 (a.xdpMain c).1 := by
  have hbounds : c.Counted (marlinStatsReason .dropMapBounds c) .aborted :=
    (Counters.Steady.refl c).counted rfl (.inr (.inl ⟨by decide, .inr rfl⟩))
  simp only [Arrival.xdpMain]
  split
  · exact hbounds
  · split
    · exact hbounds
    · exact Marlin.xdpMain_counted ..

theorem Counters.total_of_counted {c c' : Counters} {rc : MarlinRet} :
    ∀ {reasons : List MarlinRet}, reasons.Nodup →
      (∀ other ∈ reasons,
        c'.dropStats other.value = c.dropStats other.value + if other = rc then 1 else 0) →
      c'.total reasons = c.total reasons + if rc ∈ reasons then 1 else 0 := by
  intro reasons
  induction reasons with
  | nil =>
      intro _ _
      rfl
  | cons first rest ih =>
      intro hnodup hcounted
      rw [List.nodup_cons] at hnodup
      have hrest := ih hnodup.2 fun other hother => hcounted other (List.mem_cons_of_mem _ hother)
      have hfirst := hcounted first List.mem_cons_self
      simp only [Counters.total, List.map_cons, List.sum_cons] at hrest ⊢
      rw [hrest, hfirst]
      by_cases heq : first = rc
      · subst heq
        simp only [if_true, hnodup.1, if_false, List.mem_cons_self]
        ac_rfl
      · simp only [if_neg heq, List.mem_cons, Ne.symm heq, false_or]
        ac_rfl

theorem Counters.Counted.pass {c c' : Counters} {action : XdpAction} (h : c.Counted c' action) :
    c'.total passReasons = c.total passReasons + if action = .pass then 1 else 0 := by
  obtain ⟨rc, hexplains, hcounted⟩ := h
  rw [Counters.total_of_counted (by decide) fun other hother =>
    hcounted other (List.mem_append_left _ hother)]
  congr 1
  rcases hexplains with ⟨hrc, rfl⟩ | ⟨hrc, haction⟩ | ⟨hrc, haction⟩
  · rw [if_pos hrc, if_pos rfl]
  · have hnot : ∀ rc ∈ lossReasons, rc ∉ passReasons := by decide
    rw [if_neg (hnot rc hrc)]
    rcases haction with rfl | rfl <;> rfl
  · rw [if_neg fun hmem => hrc (List.mem_append_left _ hmem)]
    rcases haction with rfl | rfl <;> rfl

theorem Counters.Counted.loss {c c' : Counters} {action : XdpAction} (h : c.Counted c' action) :
    c'.total lossReasons =
      c.total lossReasons + if action = .drop ∨ action = .aborted then 1 else 0 := by
  obtain ⟨rc, hexplains, hcounted⟩ := h
  rw [Counters.total_of_counted (by decide) fun other hother =>
    hcounted other (List.mem_append_right _ hother)]
  congr 1
  rcases hexplains with ⟨hrc, rfl⟩ | ⟨hrc, haction⟩ | ⟨hrc, haction⟩
  · have hnot : ∀ rc ∈ passReasons, rc ∉ lossReasons := by decide
    rw [if_neg (hnot rc hrc)]
    rfl
  · rw [if_pos hrc, if_pos haction]
  · rw [if_neg fun hmem => hrc (List.mem_append_right _ hmem)]
    rcases haction with rfl | rfl <;> rfl

theorem Counters.Counted.forwarded {c c' : Counters} {action : XdpAction}
    (h : c.Counted c' action) (haction : action = .tx ∨ action = .redirect) :
    ∀ rc ∈ passReasons ++ lossReasons, c'.dropStats rc.value = c.dropStats rc.value := by
  obtain ⟨rc, hexplains, hcounted⟩ := h
  intro other hother
  have hrc : rc ∉ passReasons ++ lossReasons := by
    rcases hexplains with ⟨-, rfl⟩ | ⟨-, rfl | rfl⟩ | ⟨hrc, -⟩
    · simp at haction
    · simp at haction
    · simp at haction
    · exact hrc
  have hne : other ≠ rc := by
    rintro rfl
    exact hrc hother
  rw [hcounted other hother, if_neg hne]
  exact UInt64.add_zero _

theorem statsTotal_update {cpus : Nat} (c : Fin cpus → Counters) (cpu : Fin cpus)
    (counters : Counters) (reasons : List MarlinRet) (n : UInt64)
    (h : counters.total reasons = (c cpu).total reasons + n) :
    statsTotal (Function.update c cpu counters) reasons = statsTotal c reasons + n := by
  have hother : ∀ i ∈ Finset.univ.erase cpu,
      (Function.update c cpu counters i).total reasons = (c i).total reasons := by
    intro i hi
    rw [Function.update_of_ne (Finset.ne_of_mem_erase hi)]
  rw [statsTotal, statsTotal, ← Finset.add_sum_erase _ _ (Finset.mem_univ cpu),
    ← Finset.add_sum_erase _ (fun i => (c i).total reasons) (Finset.mem_univ cpu),
    Finset.sum_congr rfl hother, Function.update_self, h]
  ac_rfl

theorem xdpRun_total {cpus : Nat} (arrivals : List (Arrival cpus)) :
    ∀ c : Fin cpus → Counters,
      statsTotal (xdpRun arrivals c).2 passReasons =
          statsTotal c passReasons + UInt64.ofNat ((xdpRun arrivals c).1.count .pass) ∧
        statsTotal (xdpRun arrivals c).2 lossReasons =
          statsTotal c lossReasons + UInt64.ofNat
            ((xdpRun arrivals c).1.count .drop + (xdpRun arrivals c).1.count .aborted) := by
  induction arrivals with
  | nil =>
      intro c
      exact ⟨(UInt64.add_zero _).symm, (UInt64.add_zero _).symm⟩
  | cons a rest ih =>
      intro c
      have hcounted := a.xdpMain_counted (c a.cpu)
      obtain ⟨hpass, hloss⟩ := ih (Function.update c a.cpu (a.xdpMain (c a.cpu)).2)
      rw [statsTotal_update c a.cpu _ _ _ hcounted.pass] at hpass
      rw [statsTotal_update c a.cpu _ _ _ hcounted.loss] at hloss
      simp only [xdpRun, List.count_cons, hpass, hloss]
      constructor
      · rw [UInt64.ofNat_add, UInt64.add_assoc, UInt64.add_comm (UInt64.ofNat _)]
        cases (a.xdpMain (c a.cpu)).1 <;> rfl
      · rw [UInt64.add_assoc]
        congr 1
        cases (a.xdpMain (c a.cpu)).1 <;>
          simp [UInt64.ofNat_add, add_comm, add_assoc, add_left_comm]

/-- The balance of packets: what is passed is counted as passed, what is lost is counted as
lost, and what is forwarded is in neither count. -/
theorem packetAccounting :
    (∀ (host : Host) (maps : Maps) (x : Xdp),
      (marlinLbProcess host maps x).1 ≠ .ok ∧
        (marlinLbProcess host maps x).1.isCount = false) ∧
    (∀ (cpus : Nat) (arrivals : List (Arrival cpus)) (c : Fin cpus → Counters),
      let r := xdpRun arrivals c
      UInt64.ofNat (r.1.count .pass) =
          statsTotal r.2 passReasons - statsTotal c passReasons ∧
        UInt64.ofNat (r.1.count .drop + r.1.count .aborted) =
          statsTotal r.2 lossReasons - statsTotal c lossReasons) ∧
    (∀ (cpus : Nat) (a : Arrival cpus) (c : Counters),
      ((a.xdpMain c).1 = .tx ∨ (a.xdpMain c).1 = .redirect) →
        ∀ rc ∈ passReasons ++ lossReasons,
          (a.xdpMain c).2.dropStats rc.value = c.dropStats rc.value) := by
  refine ⟨fun host maps x => ?_, fun cpus arrivals c => ?_, fun cpus a c haction => ?_⟩
  · have hverdict := (marlinLbProcess_accounted host maps x).1
    simpa [MarlinRet.isVerdict] using hverdict
  · obtain ⟨hpass, hloss⟩ := xdpRun_total arrivals c
    simp only [hpass, hloss]
    constructor <;> rw [UInt64.add_comm, UInt64.add_sub_cancel]
  · exact (a.xdpMain_counted c).forwarded haction

end Marlin
