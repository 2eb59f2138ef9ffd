import Marlin.Marlind.ReconcileSuccess
import Marlin.Realisation

/-!
# Source filtering, from the file to the packet

What the rules of a configuration say about a source, what `marlin_acl_check` says about
it while the maps hold them, and what it says while a reload replaces them.
-/

namespace Marlin

open Marlin.Library Marlin.Library.Table

/-! ## Rules -/

def ConfAclEntry.covers (entry : ConfAclEntry) (src : Addr) : AclFamily → Bool
  | .v4 => prefixMatches 32 entry.prefixlen entry.addr.w0.toNat src.w0.toNat
  | .v6 => prefixMatches 128 entry.prefixlen entry.addr.toNat src.toNat

def ConfAcl.covers (acl : ConfAcl) (src : Addr) (list : AclList) (family : AclFamily) : Bool :=
  (acl.list list family).any fun entry => entry.covers src family

def PacketTuple.aclFamily (tuple : PacketTuple) : Option AclFamily :=
  if tuple.family = afInet then some .v4
  else if tuple.family = afInet6 then some .v6
  else none

/-- An allow rule wins over any block rule. -/
def verdictOf (allow block : Bool) : MarlinAclVerdict :=
  if allow then .allow else if block then .block else .none

/-- What `marlin_acl_check` says about a packet while the maps are as they are. -/
def Maps.aclVerdict (mp : Maps) (mctx : MarlinCtx) : MarlinAclVerdict :=
  marlinAclCheck mp (mctx.withCfg mp.config)

def Maps.aclLookup (mp : Maps) (src : Addr) : AclList → AclFamily → Bool
  | .allow, .v4 => aclLookup4 mp.aclAllowV4 src.w0
  | .block, .v4 => aclLookup4 mp.aclBlockV4 src.w0
  | .allow, .v6 => aclLookup6 mp.aclAllowV6 src
  | .block, .v6 => aclLookup6 mp.aclBlockV6 src

def Maps.aclHit (mp : Maps) (src : Addr) (list : AclList) (family : AclFamily) : Bool :=
  mp.config.aclLists &&& aclListsBit list family != 0 && mp.aclLookup src list family

theorem aclCheckV4_eq (mp : Maps) (mctx : MarlinCtx) : aclCheckV4 mp mctx = verdictOf
    (mctx.cfg.aclLists &&& aclListsBit .allow .v4 != 0 &&
      aclLookup4 mp.aclAllowV4 mctx.tuple.src.w0)
    (mctx.cfg.aclLists &&& aclListsBit .block .v4 != 0 &&
      aclLookup4 mp.aclBlockV4 mctx.tuple.src.w0) := by
  simp [aclCheckV4, verdictOf]

theorem aclCheckV6_eq (mp : Maps) (mctx : MarlinCtx) : aclCheckV6 mp mctx = verdictOf
    (mctx.cfg.aclLists &&& aclListsBit .allow .v6 != 0 && aclLookup6 mp.aclAllowV6 mctx.tuple.src)
    (mctx.cfg.aclLists &&& aclListsBit .block .v6 != 0 &&
      aclLookup6 mp.aclBlockV6 mctx.tuple.src) := by
  simp [aclCheckV6, verdictOf]

theorem Maps.aclVerdict_eq (mp : Maps) (mctx : MarlinCtx) :
    mp.aclVerdict mctx =
      if mp.config.flags &&& cfgAclEnable = 0 then .none
      else
        match mctx.tuple.aclFamily with
        | none => .none
        | some family => verdictOf (mp.aclHit mctx.tuple.src .allow family)
            (mp.aclHit mctx.tuple.src .block family) := by
  change (if mp.config.flags &&& cfgAclEnable = 0 then .none
    else if mctx.tuple.family = afInet then aclCheckV4 mp (mctx.withCfg mp.config)
    else if mctx.tuple.family = afInet6 then aclCheckV6 mp (mctx.withCfg mp.config)
    else .none) = _
  by_cases hoff : mp.config.flags &&& cfgAclEnable = 0
  · rw [if_pos hoff, if_pos hoff]
  · rw [if_neg hoff, if_neg hoff]
    by_cases hv4 : mctx.tuple.family = afInet
    · rw [if_pos hv4, aclCheckV4_eq, PacketTuple.aclFamily, if_pos hv4]
      rfl
    · rw [if_neg hv4, PacketTuple.aclFamily, if_neg hv4]
      by_cases hv6 : mctx.tuple.family = afInet6
      · rw [if_pos hv6, aclCheckV6_eq, if_pos hv6]
        rfl
      · rw [if_neg hv6, if_neg hv6]

/-! ## Maps that hold the rules -/

/-- `config` and the tries are those of the configuration. -/
structure RulesApplied (conf : MarlinConf) (mp : Maps) : Prop where
  config : ∃ maxFrame, mp.config = configValue conf (aclListsBits conf.acl) maxFrame
  allowV4 : ∀ k, k ∈ mp.aclAllowV4 ↔ k ∈ conf.acl.allowV4.map wantAclV4
  blockV4 : ∀ k, k ∈ mp.aclBlockV4 ↔ k ∈ conf.acl.blockV4.map wantAclV4
  allowV6 : ∀ k, k ∈ mp.aclAllowV6 ↔ k ∈ conf.acl.allowV6.map wantAclV6
  blockV6 : ∀ k, k ∈ mp.aclBlockV6 ↔ k ∈ conf.acl.blockV6.map wantAclV6

theorem AsideDone.rulesApplied {e : Env} {conf : MarlinConf} {start mp : Maps}
    (h : AsideDone e conf start mp) (hcomplete : Complete e start) : RulesApplied conf mp where
  config := by
    obtain ⟨maxFrame, -, hvalue⟩ := h.config
    exact ⟨maxFrame, hvalue⟩
  allowV4 := h.allowV4.mem_iff hcomplete
  blockV4 := h.blockV4.mem_iff hcomplete
  allowV6 := h.allowV6.mem_iff hcomplete
  blockV6 := h.blockV6.mem_iff hcomplete

section

variable {conf : MarlinConf} {mp start : Maps}

theorem configValue_enabled (conf : MarlinConf) (aclLists : UInt16) (maxFrame : Nat) :
    (configValue conf aclLists maxFrame).flags &&& cfgAclEnable = 0 ↔ conf.acl.enabled = false := by
  have hflags : ∀ acl ratelimit : Bool,
      ((if acl then cfgAclEnable else 0) ||| (if ratelimit then cfgRlEnable else 0)) &&&
        cfgAclEnable = 0 ↔ acl = false := by
    decide
  exact hflags conf.acl.enabled conf.ratelimit.enabled

private theorem any_wanted {K : Type} (keys : List K) (want : ConfAclEntry → K)
    (entries : List ConfAclEntry) (h : ∀ k, k ∈ keys ↔ k ∈ entries.map want) (p : K → Bool) :
    keys.any p = entries.any fun entry => p (want entry) := by
  rw [Bool.eq_iff_iff, List.any_eq_true, List.any_eq_true]
  constructor
  · rintro ⟨k, hk, hp⟩
    obtain ⟨entry, hentry, rfl⟩ := List.mem_map.mp ((h k).mp hk)
    exact ⟨entry, hentry, hp⟩
  · rintro ⟨entry, hentry, hp⟩
    exact ⟨want entry, (h _).mpr (List.mem_map_of_mem hentry), hp⟩

theorem RulesApplied.lookup (h : RulesApplied conf mp) (src : Addr) (list : AclList)
    (family : AclFamily) : mp.aclLookup src list family = conf.acl.covers src list family := by
  cases list <;> cases family
  · exact any_wanted _ _ _ h.allowV4 _
  · exact any_wanted _ _ _ h.allowV6 _
  · exact any_wanted _ _ _ h.blockV4 _
  · exact any_wanted _ _ _ h.blockV6 _

theorem ConfAcl.covers_bit {acl : ConfAcl} {src : Addr} {list : AclList} {family : AclFamily}
    (h : acl.covers src list family = true) :
    aclListsBits acl &&& aclListsBit list family ≠ 0 := by
  rw [aclListsBits_ne_zero]
  rintro hnil
  rw [ConfAcl.covers, hnil] at h
  cases h

theorem RulesApplied.hit (h : RulesApplied conf mp) (src : Addr) (list : AclList)
    (family : AclFamily) : mp.aclHit src list family = conf.acl.covers src list family := by
  obtain ⟨maxFrame, hvalue⟩ := h.config
  have hbits : mp.config.aclLists = aclListsBits conf.acl := by
    rw [hvalue]
    rfl
  rw [Maps.aclHit, h.lookup, hbits]
  cases hcovers : conf.acl.covers src list family with
  | false => simp
  | true => simpa using ConfAcl.covers_bit hcovers

theorem RulesApplied.aclVerdict (h : RulesApplied conf mp) (mctx : MarlinCtx) :
    mp.aclVerdict mctx =
      if conf.acl.enabled = false then .none
      else
        match mctx.tuple.aclFamily with
        | none => .none
        | some family => verdictOf (conf.acl.covers mctx.tuple.src .allow family)
            (conf.acl.covers mctx.tuple.src .block family) := by
  obtain ⟨maxFrame, hvalue⟩ := h.config
  simp only [mp.aclVerdict_eq, h.hit, hvalue, configValue_enabled]

end

section

variable {S : Type} [LinearOrder S] (score : UInt64 → Nat → S) {conf : MarlinConf}
  (hconf : conf.Accepted) {e : Env} (hcalm : e.Calm) (n : Nat) {start : Maps}
  (hstart : start.Bounded) {out : MarlinConf}
  (hout : (reconcileApply score .layout conf e n start).result = some out)

include hconf hcalm hstart hout

theorem reconcileApply_rulesApplied :
    RulesApplied conf (reconcileApply score .layout conf e n start).store :=
  ((hconf.meets score BackendKeys.layout_sound e n start).finished out hout).2.rulesApplied
    ⟨hcalm.enumerates, hstart.aside⟩

end

/-! ## While a reload is under way -/

section

variable {first second : MarlinConf} {start mp : Maps}

theorem TriesBetween.lookup (h : TriesBetween second start mp) (src : Addr) (list : AclList)
    (family : AclFamily) :
    (mp.aclLookup src list family = true →
      start.aclLookup src list family = true ∨ second.acl.covers src list family = true) ∧
    (start.aclLookup src list family = true → second.acl.covers src list family = true →
      mp.aclLookup src list family = true) := by
  have hcovers : ∀ {K : Type} (want : ConfAclEntry → K) (entries : List ConfAclEntry)
      (p : K → Bool), (wanted (aclPairs want entries)).any p =
        entries.any fun entry => p (want entry) := by
    intro K want entries p
    rw [wanted_aclPairs]
    exact any_wanted _ _ _ (fun _ => Iff.rfl) _
  cases list <;> cases family
  · have hany := h.allowV4.any fun k => prefixMatches 32 k.prefixlen k.addr.toNat src.w0.toNat
    rwa [hcovers] at hany
  · have hany := h.allowV6.any fun k => prefixMatches 128 k.prefixlen k.addr.toNat src.toNat
    rwa [hcovers] at hany
  · have hany := h.blockV4.any fun k => prefixMatches 32 k.prefixlen k.addr.toNat src.w0.toNat
    rwa [hcovers] at hany
  · have hany := h.blockV6.any fun k => prefixMatches 128 k.prefixlen k.addr.toNat src.toNat
    rwa [hcovers] at hany

theorem AclInv.hit (h : AclInv second start mp) (hstart : RulesApplied first start) (src : Addr)
    (list : AclList) (family : AclFamily) :
    (mp.aclHit src list family = true → first.acl.covers src list family = true ∨
      second.acl.covers src list family = true) ∧
    (first.acl.covers src list family = true → second.acl.covers src list family = true →
      mp.aclHit src list family = true) := by
  rcases h with ⟨hconfig, hallowV4, hblockV4, hallowV6, hblockV6⟩ | ⟨hwide, hbetween⟩
  · have hsame : mp.aclHit src list family = start.aclHit src list family := by
      rw [Maps.aclHit, Maps.aclHit, hconfig]
      cases list <;> cases family <;>
        simp only [Maps.aclLookup, hallowV4, hblockV4, hallowV6, hblockV6]
    rw [hsame, hstart.hit]
    exact ⟨Or.inl, fun h _ => h⟩
  · obtain ⟨aclLists, maxFrame, hbits, hvalue⟩ := hwide
    obtain ⟨hsub, hfull⟩ := hbetween.lookup src list family
    rw [hstart.lookup] at hsub hfull
    rw [Maps.aclHit, hvalue]
    constructor
    · intro hhit
      exact hsub (Bool.and_elim_right hhit)
    · intro hfirst hsecond
      have hbit : (configValue second aclLists maxFrame).aclLists &&&
          aclListsBit list family ≠ 0 := hbits list family (ConfAcl.covers_bit hsecond)
      rw [hfull hfirst hsecond, Bool.and_true]
      simpa using hbit

theorem verdictOf_steady : ∀ allow block allow₁ block₁ allow₂ block₂ : Bool,
    (allow = true → allow₁ = true ∨ allow₂ = true) →
    (allow₁ = true → allow₂ = true → allow = true) →
    (block = true → block₁ = true ∨ block₂ = true) →
    (block₁ = true → block₂ = true → block = true) →
    verdictOf allow₂ block₂ = verdictOf allow₁ block₁ →
    verdictOf allow block = verdictOf allow₁ block₁ := by
  intro allow block allow₁ block₁ allow₂ block₂
  cases allow₁ <;> cases allow₂ <;> revert allow block block₁ block₂ <;> decide

theorem AclInv.aclVerdict (h : AclInv second start mp) (hstart : RulesApplied first start)
    {held : Maps} (hheld : RulesApplied second held) (hfirst : first.acl.enabled = true)
    (hsecond : second.acl.enabled = true) {mctx : MarlinCtx}
    (hsame : held.aclVerdict mctx = start.aclVerdict mctx) :
    mp.aclVerdict mctx = start.aclVerdict mctx := by
  have hon : mp.config.flags &&& cfgAclEnable ≠ 0 := by
    rcases h with ⟨hconfig, -⟩ | ⟨⟨aclLists, maxFrame, -, hvalue⟩, -⟩
    · obtain ⟨maxFrame, hvalue⟩ := hstart.config
      rw [hconfig, hvalue, ne_eq, configValue_enabled, hfirst]
      decide
    · rw [hvalue, ne_eq, configValue_enabled, hsecond]
      decide
  rw [hheld.aclVerdict, hstart.aclVerdict, hfirst, hsecond] at hsame
  rw [mp.aclVerdict_eq, if_neg hon, hstart.aclVerdict, hfirst]
  cases hfamily : mctx.tuple.aclFamily with
  | none => rfl
  | some family =>
      simp only [hfamily] at hsame ⊢
      obtain ⟨hallow, hallow'⟩ := h.hit hstart mctx.tuple.src .allow family
      obtain ⟨hblock, hblock'⟩ := h.hit hstart mctx.tuple.src .block family
      exact verdictOf_steady _ _ _ _ _ _ hallow hallow' hblock hblock' hsame

end

/--
A source on whose verdict two configurations agree keeps it at every write of a reload
from the one to the other, wherever the reload stops.
-/
theorem reconcileApply_aclVerdict_steady {S : Type} [LinearOrder S] (score : UInt64 → Nat → S)
    {first second : MarlinConf} (hsecond : second.Accepted) (hfirstOn : first.acl.enabled = true)
    (hsecondOn : second.acl.enabled = true) {start held : Maps}
    (hstart : RulesApplied first start) (hheld : RulesApplied second held) {mctx : MarlinCtx}
    (hsame : held.aclVerdict mctx = start.aclVerdict mctx) (e : Env) (n : Nat) :
    let run := reconcileApply score .layout second e n start
    (∀ step ∈ run.steps, step.2.aclVerdict mctx = start.aclVerdict mctx) ∧
      run.store.aclVerdict mctx = start.aclVerdict mctx := by
  have hmeets := hsecond.meets score BackendKeys.layout_sound e n start
  obtain ⟨hend, hsteps⟩ := hmeets.linked.invariant hmeets.steps
    (fun s t hst hs => hst.aside.aclInv hs) (AclInv.refl second start)
  have hkeep : ∀ mp, AclInv second start mp → mp.aclVerdict mctx = start.aclVerdict mctx :=
    fun mp hinv => hinv.aclVerdict hstart hheld hfirstOn hsecondOn hsame
  exact ⟨fun step hstep => hkeep _ (hsteps step hstep).2, hkeep _ hend⟩

namespace Sample

theorem blockedMaps_rules : RulesApplied blockConf blockedMaps := by
  rw [blockedMaps, blocked, afterAttempts_one]
  exact reconcileApply_rulesApplied score blockConf_accepted calmEnv_calm 0 Maps.fresh_bounded
    (blockConf_accepted.returns score BackendKeys.layout_sound calmEnv 0 blockConf_feasible)

def openedMaps : Maps :=
  afterAttempts score .layout blockedMaps [⟨calmEnv, openConf, openConf_accepted⟩]

theorem openedMaps_rules : RulesApplied openConf openedMaps := by
  have hout := openConf_accepted.returns score BackendKeys.layout_sound calmEnv 0
    (openConf_feasible (fun _ => rfl) blockedMaps_bounded)
  have hrules := reconcileApply_rulesApplied score openConf_accepted calmEnv_calm 0
    blockedMaps_bounded hout
  rw [openedMaps, afterAttempts_one]
  exact hrules

def neighbour : MarlinCtx :=
  { (0 : MarlinCtx) with
    tuple := { (0 : PacketTuple) with src := ⟨⟨10, 8, 0, 1⟩, 0, 0, 0⟩, family := afInet } }

theorem neighbour_verdict : blockedMaps.aclVerdict neighbour = .none ∧
    openedMaps.aclVerdict neighbour = .none := by
  rw [blockedMaps_rules.aclVerdict, openedMaps_rules.aclVerdict, blockConf_holds.1,
    openConf_holds.1]
  decide

end Sample

theorem reconcileApply_aclVerdict_steady_neighbour :
    (reconcileApply Sample.score .layout Sample.openConf (Sample.faultyEnv 20) 0
      Sample.blockedMaps).store.aclVerdict Sample.neighbour =
        Sample.blockedMaps.aclVerdict Sample.neighbour := by
  obtain ⟨hblocked, hopened⟩ := Sample.neighbour_verdict
  exact (reconcileApply_aclVerdict_steady Sample.score Sample.openConf_accepted
    (congrArg ConfAcl.enabled Sample.blockConf_holds.1)
    (congrArg ConfAcl.enabled Sample.openConf_holds.1) Sample.blockedMaps_rules
    Sample.openedMaps_rules (hopened.trans hblocked.symm) (Sample.faultyEnv 20) 0).2

/-! ## The core -/

def MarlinRet.ofFilter : MarlinRet → Bool
  | .dropAclBlocked | .dropRatelimited => true
  | _ => false

theorem MarlinRet.ofForwarding_ofFilter {rc : MarlinRet} (h : rc.ofForwarding = true) :
    rc.ofFilter = false := by
  cases rc <;> first | rfl | cases h

theorem MarlinRet.ofRatelimit_ne_blocked {rc : MarlinRet} (h : rc.ofRatelimit = true) :
    rc ≠ .dropAclBlocked := by
  rintro rfl
  cases h

theorem marlinLbProcessPacket_ofFilter (host : Host) (mp : Maps) (vip : VipMeta) (x : Xdp) :
    (marlinLbProcessPacket host mp vip x).1.ofFilter = false := by
  have hfrag : (marlinLbCheckFrag x.pkt vip).ofFilter = false := by
    simp only [marlinLbCheckFrag]
    repeat' split
    all_goals rfl
  have hload : ∀ target x, (marlinLbLoadBackend target x).1.ofFilter = false := by
    intro target x
    simp only [marlinLbLoadBackend]
    repeat' split
    all_goals rfl
  simp only [marlinLbProcessPacket]
  split
  · exact hfrag
  · split
    · exact hload _ _
    · rcases marlinLbForward_ofForwarding host mp vip (marlinLbLoadBackend
        (marlinLbSelectBackend host mp vip x).1 (marlinLbSelectBackend host mp vip x).2).2
        with hrc | ⟨hrc, -⟩
      · exact MarlinRet.ofForwarding_ofFilter hrc
      · rw [hrc]
        rfl

def Xdp.checked (x : Xdp) (mp : Maps) : Xdp :=
  { x with pkt := { x.pkt with aclVerdict := marlinAclCheck mp x.pkt } }

theorem marlinLbProcess_ofFilter (host : Host) (mp : Maps) (x : Xdp) {rc : MarlinRet}
    (hrc : rc.ofFilter = true) :
    (marlinLbProcess host mp x).1 = rc ↔
      (marlinLbAdmit host (marlinLbSelectVip mp x.pkt) (x.checked mp)).1 = rc := by
  unfold marlinLbProcess
  dsimp only
  split
  · exact Iff.rfl
  · next hok =>
    split
    · exact Iff.rfl
    · next vip hvip =>
      have hallowed : (marlinLbAdmit host (marlinLbSelectVip mp x.pkt) (x.checked mp)).1 = .ok :=
        not_not.mp hok
      rw [hallowed]
      constructor
      · intro h
        have hrun : (marlinLbProcessPacket host mp vip
            (marlinLbAdmit host (marlinLbSelectVip mp x.pkt) (x.checked mp)).2).1 = rc := h
        have hnot := marlinLbProcessPacket_ofFilter host mp vip
          (marlinLbAdmit host (marlinLbSelectVip mp x.pkt) (x.checked mp)).2
        rw [hrun, hrc] at hnot
        cases hnot
      · rintro rfl
        cases hrc

theorem marlinLbAdmit_blocked (host : Host) {vmeta : Option VipMeta}
    (hnum : ∀ vip, vmeta = some vip → vip.vipNum < maxVips) (x : Xdp) :
    (marlinLbAdmit host vmeta x).1 = .dropAclBlocked ↔
      x.pkt.aclVerdict = .block ∧ ∀ vip, vmeta = some vip → vip.flags &&& vipAcl ≠ 0 := by
  cases vmeta with
  | none =>
      by_cases hblock : x.pkt.aclVerdict = .block
      · simp [marlinLbAdmit, marlinLbAclEnforce, hblock]
      · simp [marlinLbAdmit, marlinLbAclEnforce, hblock]
  | some vip =>
      have hsmall := hnum vip rfl
      have hlimit : ∀ y : Xdp, (marlinLbFilter host vip.flags y).1 ≠ .dropAclBlocked := by
        intro y
        simp only [marlinLbFilter]
        repeat' split
        all_goals first
          | exact MarlinRet.noConfusion
          | exact MarlinRet.ofRatelimit_ne_blocked (marlinRatelimit_ofRatelimit ..)
      simp only [marlinLbAdmit, ge_iff_le, Nat.not_le.mpr hsmall, if_false]
      by_cases hblock : x.pkt.aclVerdict = .block
      · by_cases hacl : vip.flags &&& vipAcl = 0
        · simpa [marlinLbAclEnforce, hblock, hacl] using hlimit _
        · simp [marlinLbAclEnforce, hblock, hacl]
      · simpa [marlinLbAclEnforce, hblock] using hlimit _

theorem marlinLbAdmit_allowed (host : Host) (vmeta : Option VipMeta) {x : Xdp}
    (hallow : x.pkt.aclVerdict = .allow) : (marlinLbAdmit host vmeta x).1.ofFilter = false := by
  cases vmeta with
  | none => simp [marlinLbAdmit, marlinLbAclEnforce, hallow, MarlinRet.ofFilter]
  | some vip =>
      simp only [marlinLbAdmit, marlinLbAclEnforce, marlinLbFilter, hallow]
      repeat' split
      all_goals first | rfl | contradiction

/-! ## End to end -/

def ConfAcl.coversPacket (acl : ConfAcl) (list : AclList) (tuple : PacketTuple) : Prop :=
  ∃ family, tuple.aclFamily = some family ∧ acl.covers tuple.src list family = true

/-- What the rules of a configuration ask of the core's answer to a packet. -/
structure Filtered (conf : MarlinConf) (pkt : MarlinCtx) (rc : MarlinRet) : Prop where
  blocked : rc = .dropAclBlocked ↔ conf.acl.enabled = true ∧
    conf.acl.coversPacket .block pkt.tuple ∧ ¬conf.acl.coversPacket .allow pkt.tuple ∧
    ∀ vip ∈ conf.vips, conf.Owns vip (marlinLbVipKey pkt) → vip.vipMeta.flags &&& vipAcl ≠ 0
  allowed : conf.acl.enabled = true → conf.acl.coversPacket .allow pkt.tuple →
    rc ≠ .dropAclBlocked ∧ rc ≠ .dropRatelimited

section

variable {conf : MarlinConf} {mp : Maps} {mctx : MarlinCtx}

theorem RulesApplied.verdict_block (h : RulesApplied conf mp) :
    mp.aclVerdict mctx = .block ↔ conf.acl.enabled = true ∧
      conf.acl.coversPacket .block mctx.tuple ∧ ¬conf.acl.coversPacket .allow mctx.tuple := by
  have hverdict : ∀ allow block : Bool,
      verdictOf allow block = .block ↔ block = true ∧ ¬allow = true := by
    decide
  rw [h.aclVerdict, ConfAcl.coversPacket, ConfAcl.coversPacket]
  cases conf.acl.enabled with
  | false => simp
  | true =>
      cases hfamily : mctx.tuple.aclFamily with
      | none => simp
      | some family => simpa using hverdict _ _

theorem RulesApplied.verdict_allow (h : RulesApplied conf mp) (hon : conf.acl.enabled = true)
    (hcovers : conf.acl.coversPacket .allow mctx.tuple) : mp.aclVerdict mctx = .allow := by
  obtain ⟨family, hfamily, hcovers⟩ := hcovers
  rw [h.aclVerdict, hon, hfamily]
  simp only [Bool.true_eq_false, if_false, hcovers, verdictOf, if_true]

theorem RulesApplied.filtered (h : RulesApplied conf mp) {x : Xdp} (hcfg : x.pkt.cfg = mp.config)
    (hnum : ∀ vipMeta, marlinLbSelectVip mp x.pkt = some vipMeta → vipMeta.vipNum < maxVips)
    (hselect : (∀ vipMeta, marlinLbSelectVip mp x.pkt = some vipMeta →
        vipMeta.flags &&& vipAcl ≠ 0) ↔
      ∀ vip ∈ conf.vips, conf.Owns vip (marlinLbVipKey x.pkt) → vip.vipMeta.flags &&& vipAcl ≠ 0)
    (host : Host) : Filtered conf x.pkt (marlinLbProcess host mp x).1 := by
  have hverdict : (x.checked mp).pkt.aclVerdict = mp.aclVerdict x.pkt := by
    change marlinAclCheck mp x.pkt = marlinAclCheck mp (x.pkt.withCfg mp.config)
    rw [← hcfg]
    rfl
  constructor
  · rw [marlinLbProcess_ofFilter host mp x rfl, marlinLbAdmit_blocked host hnum, hverdict,
      h.verdict_block, hselect, and_assoc, and_assoc]
  · intro hon hcovers
    rw [h.verdict_allow hon hcovers] at hverdict
    have hallowed := marlinLbAdmit_allowed host (marlinLbSelectVip mp x.pkt) hverdict
    constructor
    · intro hrc
      rw [(marlinLbProcess_ofFilter host mp x rfl).mp hrc] at hallowed
      cases hallowed
    · intro hrc
      rw [(marlinLbProcess_ofFilter host mp x rfl).mp hrc] at hallowed
      cases hallowed

end

/--
After a reconcile that met no failure, a frame is dropped as blocked exactly when the
configuration's rules say so, and a source on an allow list is neither blocked nor metered.
-/
theorem reconcileApply_filters {S : Type} [LinearOrder S] (score : UInt64 → Nat → S)
    (attempts : List Attempt) {conf : MarlinConf} (hconf : conf.Accepted) {e : Env}
    (hcalm : e.Calm) (n : Nat) {out : MarlinConf} {mp : Maps}
    (hout : (reconcileApply score .layout conf e n
      (afterAttempts score .layout Maps.fresh attempts)).result = some out)
    (hmp : mp = (reconcileApply score .layout conf e n
      (afterAttempts score .layout Maps.fresh attempts)).store)
    {frame : Frame} (hframe : frame.Accepted mp.config) (host : Host) (counters : Counters)
    (buckets : RatelimitMap) :
    xdpMain host mp frame counters buckets =
        (let r := marlinLbProcess host mp ⟨frame, frame.parsed mp.config, counters, buckets⟩
        (marlinAction r.1, r.2.count r.1)) ∧
      Filtered conf (frame.parsed mp.config)
        (marlinLbProcess host mp ⟨frame, frame.parsed mp.config, counters, buckets⟩).1 := by
  refine ⟨xdpMain_accepted host hframe counters buckets, ?_⟩
  have hstart := afterAttempts_bounded score BackendKeys.layout_sound attempts Maps.fresh_bounded
  have hrules := reconcileApply_rulesApplied score hconf hcalm n hstart hout
  obtain ⟨rfl, hreal⟩ := hconf.realised score BackendKeys.layout_sound hcalm.smooth.honest hout
  rw [← hmp] at hrules hreal
  have hcfg : (frame.parsed mp.config).cfg = mp.config :=
    congrArg MarlinCtx.cfg (frame.parsed_withCfg mp.config mp.config)
  refine hrules.filtered (x := ⟨frame, frame.parsed mp.config, counters, buckets⟩) hcfg ?_ ?_ host
  · intro vipMeta hselect
    obtain ⟨vip, hvip, -, rfl⟩ := hreal.selectVip_iff.mp hselect
    exact hreal.nums vip hvip
  · constructor
    · intro hall vip hvip howns
      obtain ⟨num, hassigned⟩ := MarlinConf.mem_assigned _ hvip
      rw [MarlinConf.Owns, ← MarlinConf.assigned_keys] at howns
      exact hall (vip.withNum num).vipMeta
        (hreal.selectVip_iff.mpr ⟨vip.withNum num, hassigned, howns, rfl⟩)
    · intro hall vipMeta hselect
      obtain ⟨placed, hplaced, howns, rfl⟩ := hreal.selectVip_iff.mp hselect
      obtain ⟨i, vip, hi, rfl⟩ := MarlinConf.mem_withNums.mp hplaced
      rw [MarlinConf.Owns, MarlinConf.assigned_keys] at howns
      exact hall vip (List.mem_of_getElem? hi) howns

theorem reconcileApply_filters_segment :
    ∃ mp, mp = (reconcileApply Sample.score .layout Sample.blockConf Sample.calmEnv 0
        Maps.fresh).store ∧
      Filtered Sample.blockConf (Sample.segment.parsed mp.config)
        (marlinLbProcess Sample.host mp
          ⟨Sample.segment, Sample.segment.parsed mp.config, Sample.counters, fun _ => none⟩).1 := by
  have hout := Sample.blockConf_accepted.returns Sample.score BackendKeys.layout_sound
    Sample.calmEnv 0 Sample.blockConf_feasible
  exact ⟨_, rfl, (reconcileApply_filters Sample.score [] Sample.blockConf_accepted
    Sample.calmEnv_calm 0 hout rfl (Sample.segment_accepted _) Sample.host Sample.counters
    fun _ => none).2⟩

end Marlin
