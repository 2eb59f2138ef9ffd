import Marlin.Marlind.ReconcileCalls

/-!
# Reconciles that refuse

`reconcile_apply` refuses a configuration whose frame limit it cannot derive, and one with a
port whose name does not resolve.  It finds out about the first with the keys of the old
configuration gone, and about the second with `config` and the tries rewritten as well.  It
derives the frame limit once more at its end, and may refuse with everything applied.
-/

namespace Marlin

open Marlin.Library Marlin.Library.Table

structure Maps.Pruned (conf : MarlinConf) (start mp : Maps) : Prop where
  vipMap : ∀ key, mp.vipMap.lookup key =
    if key ∈ conf.keys then start.vipMap.lookup key else none
  fwd : start.SameFwd mp
  aside : start.SameAside mp

def Maps.InPlace {S : Type} [LinearOrder S] (score : UInt64 → Nat → S) (ifs : Interfaces)
    (conf : MarlinConf) (mp : Maps) : Prop :=
  (∃ num, Carries score ifs conf num { mp with
    config := configValue conf (aclListsBits conf.acl) (ifs.maxFrame conf) }) ∧
  mp.BackendsOn ifs conf.backends ∧ Retired conf (List.range' 1 (maxBackends - 1)) mp

/-- Besides, `config` announces the old and the new lists, and the tries hold the new ones. -/
structure Maps.Relisted (ifs : Interfaces) (conf : MarlinConf) (start mp : Maps) : Prop where
  vipMap : ∀ key, mp.vipMap.lookup key =
    if key ∈ conf.keys then start.vipMap.lookup key else none
  fwd : start.SameFwd mp
  txPorts : mp.txPorts = start.txPorts
  config : mp.config = configValue conf (start.config.aclLists ||| aclListsBits conf.acl)
    (ifs.maxFrame conf)
  allowV4 : Holds (aclPairs wantAclV4 conf.acl.allowV4) mp.aclAllowV4
  blockV4 : Holds (aclPairs wantAclV4 conf.acl.blockV4) mp.aclBlockV4
  allowV6 : Holds (aclPairs wantAclV6 conf.acl.allowV6) mp.aclAllowV6
  blockV6 : Holds (aclPairs wantAclV6 conf.acl.blockV6) mp.aclBlockV6

section Phases

variable {e : Env} {ifs : Interfaces} {conf : MarlinConf} {start : Maps} {P S : Maps → Prop}
  {R : Maps → Maps → Prop}

theorem removeStaleVipKeys_pruned (hcalm : e.Calm) (hcanon : ∀ key ∈ conf.keys, key.Canonical)
    (hstart : start.KeysCanonical) :
    Triple e (fun s => s = start) (removeStaleVipKeys conf start.baseline) (fun _ _ => True) S
      (fun _ s => Maps.Pruned conf start s) := by
  let J : List VipAllocBaseline → Maps → Prop := fun done s =>
    (start.SameFwd s ∧ start.SameAside s) ∧ ∀ key, s.vipMap.lookup key =
      if key ∈ done.map VipAllocBaseline.key ∧ key ∉ conf.keys then none
      else start.vipMap.lookup key
  refine Triple.consequence (Triple.forEach (J := J) (S := fun _ => ¬True) start.baseline ?_)
    ?_ (fun _ _ h => h) (fun _ h => absurd trivial h) ?_
  · intro done row rest hrows
    have hmem : row ∈ start.baseline := by simp [hrows]
    have hrow : row.key.Canonical := by
      obtain ⟨vipMeta, hlookup, -⟩ := Maps.mem_baseline.mp hmem
      exact hstart row.key vipMeta hlookup
    have hstale : ¬keyInConf conf row.key = true → row.key ∉ conf.keys := fun hout h =>
      hout ((keyInConf_iff hcanon hrow).mpr h)
    refine removeStaleVipKey_triple (fun _ => hcalm.smooth) hcalm.smooth.honest ?_
      (fun _ _ _ => trivial) ?_ ?_
    · intro hin s hs
      refine ⟨hs.1, fun key => ?_⟩
      rw [hs.2 key]
      by_cases heq : key = row.key
      · have hkept : key ∈ conf.keys := heq ▸ (keyInConf_iff hcanon hrow).mp hin
        simp [hkept]
      · simp [heq]
    · intro hout s hs
      refine ⟨⟨⟨hs.1.1.fwdTable, hs.1.1.backends⟩, ?_⟩, fun key => ?_⟩
      · obtain ⟨h1, h2, h3, h4, h5, h6⟩ := hs.1.2
        exact ⟨h1, h2, h3, h4, h5, h6⟩
      · change (s.vipMap.erase row.key).lookup key = _
        by_cases heq : key = row.key
        · rw [heq, AList.lookup_erase]
          simp [hstale hout]
        · rw [AList.lookup_erase_ne heq, hs.2 key]
          simp [heq]
    · intro hout s hs habsent
      refine ⟨hs.1, fun key => ?_⟩
      by_cases heq : key = row.key
      · have hnone : s.vipMap.lookup row.key = none := AList.lookup_eq_none.mpr habsent
        rw [heq, hnone]
        simp [hstale hout]
      · rw [hs.2 key]
        simp [heq]
  · rintro s rfl
    exact ⟨⟨⟨rfl, rfl⟩, .refl s⟩, by simp⟩
  · intro _ s hs
    refine ⟨fun key => ?_, hs.1.1, hs.1.2⟩
    rw [hs.2 key]
    by_cases hkey : key ∈ conf.keys
    · simp [hkey]
    · cases hlookup : start.vipMap.lookup key with
      | none => simp
      | some vipMeta =>
          have hrow : key ∈ start.baseline.map VipAllocBaseline.key :=
            List.mem_map.mpr ⟨⟨key, vipMeta.vipNum⟩,
              Maps.mem_baseline.mpr ⟨vipMeta, hlookup, rfl⟩, rfl⟩
          simp [hkey, hrow]

theorem writeConfig_refuses (hifs : e.Answers ifs) (hunknown : ¬ifs.FrameKnown conf)
    {aclLists : UInt16} : Triple e P (writeConfig conf aclLists) R P (fun _ _ => False) := by
  have hnever : ∀ {β : Type} {m : Reconcile β}, Triple e (fun _ => False) m R P
      (fun _ _ => False) := fun n s hs => hs.elim
  rw [Interfaces.FrameKnown, not_or, not_or, not_not] at hunknown
  obtain ⟨hunset, hencap, hnone⟩ := hunknown
  refine Triple.bind (M := fun _ _ => False) ?_ fun _ => hnever
  refine Triple.ite (fun hset => absurd hset hunset) fun _ => ?_
  refine Triple.bind (deriveMaxFrame_triple _) fun derived => Triple.assume fun hderived => ?_
  obtain rfl : derived = none := (hifs.derives _ _ hderived).trans hnone
  refine Triple.ite (fun _ => ?_) fun hplain => absurd (by simpa using hplain) hencap
  exact Triple.bind (M := fun _ => P) (Triple.say fun _ hs => hs)
    fun _ => Triple.stop fun _ hs => hs

theorem writeConfig_known (hifs : e.Answers ifs) (hcalm : e.Calm) (hknown : ifs.FrameKnown conf)
    {aclLists : UInt16} :
    Triple e (fun s => s = start) (writeConfig conf aclLists) (fun _ _ => True) S
      (fun _ s => s = { start with config := configValue conf aclLists (ifs.maxFrame conf) }) := by
  refine Triple.consequence (writeConfig_triple (G := True)
    (P := fun s => ∃ value, s = { start with config := value }) (fun _ => hcalm.smooth) ?_
    (fun _ _ _ => trivial) fun _ => hifs.frameSettles hknown) ?_ (fun _ _ h => h)
    (fun _ h => absurd trivial h) ?_
  · rintro value s ⟨old, rfl⟩
    exact ⟨value, rfl⟩
  · rintro s rfl
    exact ⟨s.config, rfl⟩
  · rintro _ s ⟨⟨value, rfl⟩, maxFrame, hframe, hvalue⟩
    rw [← hifs.maxFrame hframe, ← hvalue]

theorem writeConfig_returns (hifs : e.Answers ifs) (hcalm : e.Calm) (hknown : ifs.FrameKnown conf)
    (aclLists : UInt16) (n : Nat) (s : Maps) :
    (writeConfig conf aclLists e n s).result = some () ∧ (writeConfig conf aclLists e n s).store =
      { s with config := configValue conf aclLists (ifs.maxFrame conf) } := by
  have hmeets : Triple e (fun t => t = s) (writeConfig conf aclLists) (fun _ _ => True)
      (fun _ => False) _ := writeConfig_known hifs hcalm hknown
  cases hresult : (writeConfig conf aclLists e n s).result with
  | none => exact ((hmeets n s rfl).stopped hresult).elim
  | some _ => exact ⟨rfl, (hmeets n s rfl).finished _ hresult⟩

theorem writeConfig_halts (hifs : e.Answers ifs) (hunknown : ¬ifs.FrameKnown conf)
    (aclLists : UInt16) (n : Nat) (s : Maps) :
    (writeConfig conf aclLists e n s).result = none ∧
      (writeConfig conf aclLists e n s).store = s := by
  have hmeets : Triple e (fun t => t = s) (writeConfig conf aclLists) (fun _ _ => True)
      (fun t => t = s) _ := writeConfig_refuses hifs hunknown
  cases hresult : (writeConfig conf aclLists e n s).result with
  | none => exact ⟨rfl, (hmeets n s rfl).stopped hresult⟩
  | some _ => exact ((hmeets n s rfl).finished _ hresult).elim

end Phases

structure MarlinConf.ListsFit (conf : MarlinConf) (start : Maps) : Prop where
  allowV4 : Fits start.aclAllowV4 (aclPairs wantAclV4 conf.acl.allowV4) maxAclEntries
  blockV4 : Fits start.aclBlockV4 (aclPairs wantAclV4 conf.acl.blockV4) maxAclEntries
  allowV6 : Fits start.aclAllowV6 (aclPairs wantAclV6 conf.acl.allowV6) maxAclEntries
  blockV6 : Fits start.aclBlockV6 (aclPairs wantAclV6 conf.acl.blockV6) maxAclEntries

section Refusals

variable {S : Type} [LinearOrder S] (score : UInt64 → Nat → S) (keys : BackendKeys) {e : Env}
  {ifs : Interfaces} {conf : MarlinConf} {start : Maps} {P : Maps → Prop}
  {Q : MarlinConf → Maps → Prop}

theorem reconcileOpening_pruned (hcalm : e.Calm) (hconf : conf.Accepted) (hstart : start.Bounded) :
    Triple e (fun s => s = start) (reconcileOpening conf) (fun _ _ => True) P
      fun opening s => opening = (vipAlloc (conf.vips.map ConfVip.keys) start.baseline,
        start.config.aclLists) ∧ Maps.Pruned conf start s := by
  have hsmooth : True → e.Smooth := fun _ => hcalm.smooth
  have hnever : ∀ s : Maps, ¬True → P s := fun _ h => absurd trivial h
  refine Triple.bind (M := fun _ s => s = start) (Triple.consequence (openMaps_triple hsmooth)
    (fun _ hs => hs) (fun _ _ h => h) hnever fun _ _ hs => hs) fun _ => ?_
  refine Triple.bind (M := fun baseline s => baseline = start.baseline ∧ s = start)
    (Triple.consequence (baseline_triple hsmooth fun _ => hstart.vips.readable)
      (fun _ hs => hs) (fun _ _ h => h) hnever
      fun _ _ hs => ⟨hs.1 hcalm.smooth.honest, hs.2⟩) fun baseline => Triple.assume ?_
  rintro rfl
  refine Triple.bind (M := fun result s =>
    result = vipAlloc (conf.vips.map ConfVip.keys) start.baseline ∧ s = start)
    (Triple.consequence (allocateVipNums_triple (fun _ => hconf.vips_length)
      fun _ => hconf.allocates hstart.vips) (fun _ hs => hs) (fun _ _ h => h) hnever
      fun _ _ hs => ⟨hs.1.1, hs.2⟩) fun result => Triple.assume ?_
  rintro rfl
  have hcanon : ∀ key ∈ (conf.assigned start).keys, key.Canonical := by
    rw [MarlinConf.assigned_keys]
    exact hconf.keysCanonical
  refine Triple.bind (removeStaleVipKeys_pruned hcalm hcanon hstart.vips.canonical) fun _ => ?_
  refine Triple.byStore fun mid hmid => ?_
  have hpruned : Maps.Pruned conf start mid := by
    obtain ⟨hkeys, hfwd, haside⟩ := hmid
    exact ⟨by simpa using hkeys, hfwd, haside⟩
  refine Triple.bind (readOldAclLists_triple (P := fun s => s = mid)) fun old => ?_
  refine Triple.pure ?_
  rintro s ⟨rfl, hold⟩
  exact ⟨by rw [hold (hcalm.reads _), hpruned.aside.config], hpruned⟩

private theorem reconcileMaps_triple (hcalm : e.Calm) (hconf : conf.Accepted)
    (hstart : start.Bounded)
    (hrest : ∀ mid : Maps, Maps.Pruned conf start mid → Triple e (fun s => s = mid)
      (do
        writeConfig (conf.assigned start) (start.config.aclLists ||| aclListsBits conf.acl)
        applyMaps score keys (conf.assigned start)
          (vipAlloc (conf.vips.map ConfVip.keys) start.baseline).plan
        pure (conf.assigned start)) (fun _ _ => True) P Q) :
    Triple e (fun s => s = start) (reconcileMaps score keys conf) (fun _ _ => True) P Q := by
  refine Triple.bind (reconcileOpening_pruned hcalm hconf hstart) fun opening => Triple.assume ?_
  rintro rfl
  exact Triple.byStore hrest

theorem reconcileMaps_frameUnknown (hconf : conf.Accepted) (hifs : e.Answers ifs) (hcalm : e.Calm)
    (hstart : start.Bounded) (hunknown : ¬ifs.FrameKnown conf) (n : Nat) :
    (reconcileMaps score keys conf e n start).result = none ∧
      Maps.Pruned conf start (reconcileMaps score keys conf e n start).store := by
  have hrun := reconcileMaps_triple score keys (P := Maps.Pruned conf start)
    (Q := fun _ _ => False) hcalm hconf hstart (fun mid hmid => Triple.bind (M := fun _ _ => False)
      (Triple.pre (writeConfig_refuses (P := Maps.Pruned conf start) hifs hunknown)
        fun s hs => hs ▸ hmid) fun _ n s hs => hs.elim) n start rfl
  cases hresult : (reconcileMaps score keys conf e n start).result with
  | none => exact ⟨rfl, hrun.stopped hresult⟩
  | some out => exact (hrun.finished out hresult).elim

theorem reconcileMaps_portUnknown (hconf : conf.Accepted) (hifs : e.Answers ifs) (hcalm : e.Calm)
    (hstart : start.Bounded) (hknown : ifs.FrameKnown conf) (hfits : conf.ListsFit start)
    {name : CBuf} (hname : name ∈ conf.inst.txPorts) (hzero : ifs.nametoindex name = 0) (n : Nat) :
    (reconcileMaps score keys conf e n start).result = none ∧
      Maps.Relisted ifs conf start (reconcileMaps score keys conf e n start).store := by
  have hnever : ∀ {β : Type} {m : Reconcile β}, Triple e (fun _ => False) m (fun _ _ => True)
      (Maps.Relisted ifs conf start) (fun _ _ => False) := fun n s hs => hs.elim
  have hcomplete : Complete e start := ⟨hcalm.enumerates, hstart.aside⟩
  have hrun := reconcileMaps_triple score keys (P := Maps.Relisted ifs conf start)
    (Q := fun _ _ => False) hcalm hconf hstart (fun mid hmid => ?_) n start rfl
  · cases hresult : (reconcileMaps score keys conf e n start).result with
    | none => exact ⟨rfl, hrun.stopped hresult⟩
    | some out => exact (hrun.finished out hresult).elim
  refine Triple.bind (writeConfig_known hifs hcalm hknown) fun _ => ?_
  let value := configValue conf (start.config.aclLists ||| aclListsBits conf.acl)
    (ifs.maxFrame conf)
  have hannounced : Announced conf value := ⟨_, _, coversLists_union conf _, rfl⟩
  refine Triple.pre (P := fun s => s.SameTables mid ∧ Aside (· = value) (· = start.aclAllowV4)
    (· = start.aclBlockV4) (· = start.aclAllowV6) (· = start.aclBlockV6) (· = start.txPorts) s)
    ?_ fun s hs => ?_
  · refine Triple.bind (M := fun _ _ => False) (Triple.bind (M := fun _ _ => False) ?_
      fun _ => hnever) fun _ => hnever
    refine tries_triple (G := True) (P := fun s => s.SameTables mid) (fun _ => hcalm.smooth) ?_
      (fun _ _ _ _ => trivial) (fun _ h => absurd trivial h)
      (fun c hc => hc ▸ hannounced) (fun _ _ => hfits.allowV4) (fun _ _ => hfits.blockV4)
      (fun _ _ => hfits.allowV6) (fun _ _ => hfits.blockV6) ?_
    · intro s t hst hs
      exact ⟨hs.vipMap.trans hst.vipMap.symm, hs.fwdTable.trans hst.fwdTable.symm,
        hs.backends.trans hst.backends.symm⟩
    refine Triple.bind (M := fun _ _ => False) (Triple.post (resolveTxPorts_triple
      conf.inst.txPorts 0 ?_) ?_) fun _ => hnever
    · rintro s ⟨hsame, haside⟩ - - - -
      refine ⟨fun key => ?_, ⟨?_, ?_⟩, haside.txPorts, haside.config,
        haside.allowV4.holds hcomplete, haside.blockV4.holds hcomplete,
        haside.allowV6.holds hcomplete, haside.blockV6.holds hcomplete⟩
      · rw [← hsame.vipMap]
        exact hmid.vipMap key
      · rw [← hsame.fwdTable]
        exact hmid.fwd.fwdTable
      · rw [← hsame.backends]
        exact hmid.fwd.backends
    · rintro want s ⟨hwant, -⟩
      exact hifs.resolves_ne_zero hwant name hname hzero
  · subst hs
    obtain ⟨h1, h2, h3, h4, h5, h6⟩ := hmid.aside
    exact ⟨⟨rfl, rfl, rfl⟩, rfl, h3, h4, h5, h6, h2⟩

theorem applyMaps_config (plan : VipAllocPlan) :
    Only (fun s t => t.config = s.config) (applyMaps score keys conf plan) := by
  have htrie : ∀ {K : Type} [DecidableEq K] (ref : TableRef K Nat) (want : ConfAclEntry → K)
      (family : String) (entries : List ConfAclEntry),
      (∀ table s, (ref.set table s).config = s.config) →
      Only (fun s t => t.config = s.config) (reconcileAcl ref want family entries) :=
    fun _ _ _ _ h => reconcileAcl_only h
  have haside : Only (fun s t => t.config = s.config) (applyAside conf) := by
    refine .bind (htrie _ _ _ _ fun _ _ => rfl) fun _ => ?_
    refine .bind (htrie _ _ _ _ fun _ _ => rfl) fun _ => ?_
    refine .bind (htrie _ _ _ _ fun _ _ => rfl) fun _ => ?_
    refine .bind (htrie _ _ _ _ fun _ _ => rfl) fun _ => ?_
    refine .bind (resolveTxPorts_only _) fun want => .bind (.forEach (fun ifindex => ?_) _)
      fun _ => .pure _
    refine .bind (TableRef.updateElem_only fun _ _ _ => rfl) fun answer => ?_
    cases answer with
    | none => exact .pure _
    | some errno => exact failErrno_only _ _
  refine .bind haside fun want => .bind (writeBackends_only fun _ _ _ => rfl) fun _ => ?_
  refine .bind (.forEach (fun i => ?_) _) fun _ => ?_
  · cases conf.vips[i]? with
    | none => exact .pure _
    | some vip => exact writeVip_only (fun _ _ _ => rfl) fun _ _ _ _ _ => rfl
  refine .bind (releaseStaleVipBlocks_only _ fun _ _ _ _ _ => rfl) fun _ => ?_
  exact .bind (retireStaleBackends_only fun _ => retireBackend_only fun _ _ _ _ => rfl) fun _ =>
    removeStaleTxPorts_only want fun _ _ => rfl

theorem reconcileMaps_config (hconf : conf.Accepted) (hifs : e.Answers ifs) (hcalm : e.Calm)
    (hstart : start.Bounded) (hknown : ifs.FrameKnown conf) (n : Nat) {placed : MarlinConf}
    (hplaced : (reconcileMaps score keys conf e n start).result = some placed) :
    (reconcileMaps score keys conf e n start).store.config =
      configValue conf (start.config.aclLists ||| aclListsBits conf.acl) (ifs.maxFrame conf) := by
  let I : Maps → Prop := fun s => s.config =
    configValue conf (start.config.aclLists ||| aclListsBits conf.acl) (ifs.maxFrame conf)
  have hkeeps : ∀ plan, Triple e I (applyMaps score keys (conf.assigned start) plan)
      (fun _ _ => True) (fun _ => True) fun _ => I := fun plan n s hs =>
    Only.keeps (I := I) (fun e => (applyMaps_config score keys plan e).consequence (fun _ h => h)
      (fun s t hst hs => hst.trans hs) (fun _ h => h) fun _ _ h => h) n s hs
  have hrun := reconcileMaps_triple score keys (P := fun _ => True) (Q := fun _ => I) hcalm hconf
    hstart (fun mid hmid => ?_) n start rfl
  · exact hrun.finished placed hplaced
  refine Triple.bind (writeConfig_known hifs hcalm hknown) fun _ => ?_
  refine Triple.bind (Triple.pre (hkeeps _) fun s hs => ?_) fun _ => Triple.pure fun _ hs => hs
  rw [hs]

end Refusals

/--
What a refusal leaves as it is: the maps from which the writes before it have nothing to
change.  No address is dropped; once the frame limit is known, neither `config` nor a list is
any different; and once the ports are known, nothing else is.
-/
structure Maps.Undisturbed {S : Type} [LinearOrder S] (score : UInt64 → Nat → S)
    (ifs : Interfaces) (conf : MarlinConf) (mp : Maps) : Prop where
  kept : ∀ key ∈ mp.vipMap, key ∈ conf.keys
  config : ifs.FrameKnown conf → mp.config =
    configValue conf (mp.config.aclLists ||| aclListsBits conf.acl) (ifs.maxFrame conf)
  allowV4 : ifs.FrameKnown conf → Holds (aclPairs wantAclV4 conf.acl.allowV4) mp.aclAllowV4
  blockV4 : ifs.FrameKnown conf → Holds (aclPairs wantAclV4 conf.acl.blockV4) mp.aclBlockV4
  allowV6 : ifs.FrameKnown conf → Holds (aclPairs wantAclV6 conf.acl.allowV6) mp.aclAllowV6
  blockV6 : ifs.FrameKnown conf → Holds (aclPairs wantAclV6 conf.acl.blockV6) mp.aclBlockV6
  applied : ifs.Suits conf → mp.InPlace score ifs conf

section

variable {ifs : Interfaces} {conf : MarlinConf} {start mp : Maps}

theorem pruned_vipMap_iff (h : ∀ key, mp.vipMap.lookup key =
      if key ∈ conf.keys then start.vipMap.lookup key else none) :
    (∀ key, mp.vipMap.lookup key = start.vipMap.lookup key) ↔
      ∀ key ∈ start.vipMap, key ∈ conf.keys := by
  constructor
  · intro hsame key hkey
    by_contra hdropped
    have hgone := h key
    rw [hsame, if_neg hdropped] at hgone
    exact AList.lookup_eq_none.mp hgone hkey
  · intro hkept key
    rw [h]
    by_cases hkey : key ∈ conf.keys
    · rw [if_pos hkey]
    · rw [if_neg hkey, AList.lookup_eq_none.mpr fun hmem => hkey (hkept key hmem)]

variable {S : Type} [LinearOrder S] (score : UInt64 → Nat → S)

theorem Maps.Pruned.sameContent_iff (h : Maps.Pruned conf start mp)
    (hunknown : ¬ifs.FrameKnown conf) :
    start.SameContent mp ↔ start.Undisturbed score ifs conf := by
  obtain ⟨h1, h2, h3, h4, h5, h6⟩ := h.aside
  constructor
  · intro hsame
    exact ⟨(pruned_vipMap_iff h.vipMap).mp hsame.vipMap, fun hk => absurd hk hunknown,
      fun hk => absurd hk hunknown, fun hk => absurd hk hunknown, fun hk => absurd hk hunknown,
      fun hk => absurd hk hunknown, fun hsuits => absurd hsuits.maxFrame hunknown⟩
  · intro hstill
    exact ⟨h1, h.fwd.backends, h.fwd.fwdTable, (pruned_vipMap_iff h.vipMap).mpr hstill.kept,
      fun _ => by rw [h2], fun _ => by rw [h3], fun _ => by rw [h4], fun _ => by rw [h5],
      fun _ => by rw [h6]⟩

theorem Maps.Relisted.sameContent_iff (h : Maps.Relisted ifs conf start mp)
    (hknown : ifs.FrameKnown conf) (hports : ¬ifs.Suits conf) :
    start.SameContent mp ↔ start.Undisturbed score ifs conf := by
  constructor
  · intro hsame
    exact ⟨(pruned_vipMap_iff h.vipMap).mp hsame.vipMap, fun _ => hsame.config ▸ h.config,
      fun _ key => hsame.allowV4 key ▸ h.allowV4 key,
      fun _ key => hsame.blockV4 key ▸ h.blockV4 key,
      fun _ key => hsame.allowV6 key ▸ h.allowV6 key,
      fun _ key => hsame.blockV6 key ▸ h.blockV6 key, fun hsuits => absurd hsuits hports⟩
  · intro hstill
    refine ⟨h.config.trans (hstill.config hknown).symm, h.fwd.backends, h.fwd.fwdTable,
      (pruned_vipMap_iff h.vipMap).mpr hstill.kept, fun _ => by rw [h.txPorts], ?_, ?_, ?_, ?_⟩
    · exact fun key => (h.allowV4 key).trans (hstill.allowV4 hknown key).symm
    · exact fun key => (h.blockV4 key).trans (hstill.blockV4 hknown key).symm
    · exact fun key => (h.allowV6 key).trans (hstill.allowV6 hknown key).symm
    · exact fun key => (h.blockV6 key).trans (hstill.blockV6 hknown key).symm

end

/-! ## The last write of `config` -/

section Last

variable {S : Type} [LinearOrder S] {score : UInt64 → Nat → S} {e : Env} {ifs : Interfaces}
  {conf : MarlinConf} {start : Maps}

structure Maps.Finished (score : UInt64 → Nat → S) (ifs : Interfaces) (conf : MarlinConf)
    (start mp : Maps) : Prop where
  inPlace : mp.InPlace score ifs conf
  config : mp.config =
    configValue conf (start.config.aclLists ||| aclListsBits conf.acl) (ifs.maxFrame conf)
  again : start.InPlace score ifs conf → start.SameContent { mp with config := start.config }

theorem Carries.withContent {num : Nat → Nat} {mp : Maps} {value : MarlinConfig}
    (h : Carries score ifs conf num { mp with config := value }) (hsame : start.SameContent mp) :
    Carries score ifs conf num { start with config := value } where
  num_lt := h.num_lt
  num_inj := h.num_inj
  vipMap key := (hsame.vipMap key).symm.trans (h.vipMap key)
  rows i vip hi row hrow := by
    rw [← h.rows i vip hi row hrow]
    exact congrFun hsame.fwdTable.symm _
  config := h.config
  txPorts key := (hsame.txPorts key).symm.trans (h.txPorts key)
  allowV4 key := (hsame.allowV4 key).symm.trans (h.allowV4 key)
  blockV4 key := (hsame.blockV4 key).symm.trans (h.blockV4 key)
  allowV6 key := (hsame.allowV6 key).symm.trans (h.allowV6 key)
  blockV6 key := (hsame.blockV6 key).symm.trans (h.blockV6 key)

theorem Maps.Finished.sameContent_iff {mp : Maps} (h : Maps.Finished score ifs conf start mp)
    (hconf : conf.Accepted) (hsuits : ifs.Suits conf) :
    start.SameContent mp ↔ start.Undisturbed score ifs conf := by
  constructor
  · intro hsame
    obtain ⟨⟨num, hcarries⟩, hbackends, hretired⟩ := h.inPlace
    have hstart := hcarries.withContent hsame
    refine ⟨fun key hkey => ?_, fun _ => hsame.config ▸ h.config, fun _ => hstart.allowV4,
      fun _ => hstart.blockV4, fun _ => hstart.allowV6, fun _ => hstart.blockV6,
      fun _ => ⟨⟨num, hstart⟩, ?_, ?_⟩⟩
    · obtain ⟨vipMeta, hlookup⟩ := Option.isSome_iff_exists.mp (AList.lookup_isSome.mpr hkey)
      obtain ⟨i, vip, hi, hmem, -⟩ := (hstart.lookup_iff hconf).mp hlookup
      exact List.mem_flatMap.mpr ⟨vip, List.mem_of_getElem? hi, hmem⟩
    · intro b hb
      rw [← hsame.backends]
      exact hbackends b hb
    · intro id hid hno
      rw [← hsame.backends]
      exact hretired id hid hno
  · intro hstill
    have hconfig : mp.config = start.config :=
      h.config.trans (hstill.config hsuits.maxFrame).symm
    have hsame := h.again (hstill.applied hsuits)
    rwa [← hconfig] at hsame

theorem reconcileApply_halted {keys : BackendKeys} {n : Nat}
    (hnone : (reconcileMaps score keys conf e n start).result = none) :
    (reconcileApply score keys conf e n start).result = none ∧
      (reconcileApply score keys conf e n start).store =
        (reconcileMaps score keys conf e n start).store := by
  rw [reconcileApply_eq, Stepwise.bind_eq_of_none hnone]
  exact ⟨rfl, rfl⟩

theorem reconcileApply_last {keys : BackendKeys} {n : Nat} {placed : MarlinConf}
    (hplaced : (reconcileMaps score keys conf e n start).result = some placed) :
    let mid := reconcileMaps score keys conf e n start
    let write := writeConfig placed (aclListsBits conf.acl) e mid.calls mid.store
    (reconcileApply score keys conf e n start).result = write.result.map (fun _ => placed) ∧
      (reconcileApply score keys conf e n start).store = write.store := by
  intro mid write
  rw [reconcileApply_eq, Stepwise.bind_eq_of_some hplaced]
  cases hwrite : write.result with
  | none =>
      rw [Stepwise.bind_eq_of_none hwrite]
      exact ⟨rfl, rfl⟩
  | some _ =>
      rw [Stepwise.bind_eq_of_some hwrite]
      exact ⟨rfl, rfl⟩

variable (score) in
theorem reconcileMaps_finished (hconf : conf.Accepted) (hifs : e.Answers ifs)
    (hfull : e.OnlyFull conf) (hsuits : ifs.Suits conf) (hstart : start.Bounded)
    (hroom : ifs.Room conf start) (n : Nat) :
    (reconcileMaps score .layout conf e n start).result = some (conf.assigned start) ∧
      Maps.Finished score ifs conf start (reconcileMaps score .layout conf e n start).store := by
  have hkeys := BackendKeys.layout_sound
  have hout := hconf.returns score hkeys e n (hconf.feasible hifs hfull hsuits hstart hroom)
  cases hplaced : (reconcileMaps score .layout conf e n start).result with
  | none =>
      rw [reconcileApply_eq, Stepwise.bind_eq_of_none hplaced] at hout
      cases hout
  | some placed =>
      obtain ⟨hresult, hstore⟩ := reconcileApply_last hplaced
      have hfinal : placed = conf.assigned start := by
        rw [hout] at hresult
        obtain ⟨_, -, hsome⟩ := Option.map_eq_some_iff.mp hresult.symm
        exact hsome
      subst hfinal
      refine ⟨rfl, ?_⟩
      generalize hmid : (reconcileMaps score .layout conf e n start).store = mid at hstore ⊢
      have hknown : ifs.FrameKnown (conf.assigned start) := hsuits.maxFrame
      have hvalue : (reconcileApply score .layout conf e n start).store = { mid with
          config := configValue conf (aclListsBits conf.acl) (ifs.maxFrame conf) } :=
        hstore.trans (writeConfig_returns hifs hfull.calm hknown _ _ _).2
      have hcarries := hconf.carries hifs hfull.calm n hstart hout
      have hdone := ((hconf.meets score hkeys e n start).finished _ hout).1 hfull.calm.smooth.honest
      have hbackends := (reconcileApply_backendsOn score hifs hconf hfull hstart n _
        rfl).finished _ hout
      have hretired := hdone.2.retired hfull.faithful
      have hconfig := reconcileMaps_config score .layout hconf hifs hfull.calm hstart
        hsuits.maxFrame n hplaced
      rw [hvalue] at hcarries hbackends hretired
      rw [hmid] at hconfig
      refine ⟨⟨⟨_, hcarries⟩, hbackends, hretired⟩, hconfig, ?_⟩
      rintro ⟨⟨num, hheld⟩, hheldBackends, hheldRetired⟩
      have hfwd := (reconcileApply_sameFwd hheld hconf hheldBackends hheldRetired hifs hfull n _
        rfl).finished _ hout
      rw [hvalue] at hfwd
      obtain ⟨hnum, -⟩ := vipAlloc_settled (hheld.settled hconf)
      rw [List.length_map] at hnum
      have hsame := hheld.sameContent (hcarries.congr hnum) ⟨hfwd.fwdTable, hfwd.backends⟩
      exact ⟨rfl, hsame.backends, hsame.fwdTable, hsame.vipMap, hsame.txPorts, hsame.allowV4,
        hsame.blockV4, hsame.allowV6, hsame.blockV6⟩

end Last

/-- No map operation that a run from `start` gets to fails. -/
structure Env.Serves (e : Env) (ifs : Interfaces) (conf : MarlinConf) (start : Maps) : Prop where
  calm : e.Calm
  lists : ifs.FrameKnown conf → conf.ListsFit start
  rest : ifs.Suits conf → e.OnlyFull conf ∧ ifs.Room conf start

section

variable {S : Type} [LinearOrder S] (score : UInt64 → Nat → S) {conf : MarlinConf}
  (hconf : conf.Accepted) {e : Env} {index : CBuf → Nat}
  (hindex : ∀ n name, e.nametoindex n name = index name) {start : Maps}
  (hstart : start.Bounded) (n : Nat)

include hconf hindex hstart

theorem reconcileMaps_reached
    (hserves : e.Serves (e.interfacesAt index (reconcileOpening conf e n start).calls) conf start)
    (hsuits : (e.interfacesAt index (reconcileOpening conf e n start).calls).Suits conf) :
    (reconcileMaps score .layout conf e n start).result = some (conf.assigned start) ∧
      Maps.Finished score (e.interfacesAt index (reconcileOpening conf e n start).calls) conf start
        (reconcileMaps score .layout conf e n start).store := by
  obtain ⟨hfull, hroom⟩ := hserves.rest hsuits
  rw [reconcileMaps_heldAt]
  exact reconcileMaps_finished score hconf (Env.heldAt_answers hindex _) (hfull.heldAt _) hsuits
    hstart hroom n

theorem reconcileMaps_refused
    (hserves : e.Serves (e.interfacesAt index (reconcileOpening conf e n start).calls) conf start)
    (hunsuited : ¬(e.interfacesAt index (reconcileOpening conf e n start).calls).Suits conf) :
    (reconcileMaps score .layout conf e n start).result = none ∧
      (start.SameContent (reconcileMaps score .layout conf e n start).store ↔
        start.Undisturbed score (e.interfacesAt index (reconcileOpening conf e n start).calls)
          conf) := by
  have hanswers := Env.heldAt_answers hindex (reconcileOpening conf e n start).calls
  have hcalm := hserves.calm.heldAt (reconcileOpening conf e n start).calls
  rw [reconcileMaps_heldAt]
  by_cases hknown : (e.interfacesAt index (reconcileOpening conf e n start).calls).FrameKnown conf
  · have hport : ∃ name ∈ conf.inst.txPorts, index name = 0 := by
      by_contra hall
      push Not at hall
      exact hunsuited ⟨hall, hknown⟩
    obtain ⟨name, hname, hzero⟩ := hport
    obtain ⟨hnone, hrelisted⟩ := reconcileMaps_portUnknown score .layout hconf hanswers hcalm
      hstart hknown (hserves.lists hknown) hname hzero n
    exact ⟨hnone, hrelisted.sameContent_iff score hknown hunsuited⟩
  · obtain ⟨hnone, hpruned⟩ := reconcileMaps_frameUnknown score .layout hconf hanswers hcalm
      hstart hknown n
    exact ⟨hnone, hpruned.sameContent_iff score hknown⟩

/--
A configuration that is refused leaves the maps as they are exactly when the writes before
the refusal have nothing to change.  `first` is what the host says of its interfaces when the
frame limit is derived for the first time, `last` what it says the second time.
-/
theorem reconcileApply_refused_iff :
    let first := e.interfacesAt index (reconcileOpening conf e n start).calls
    let last := e.interfacesAt index (reconcileMaps score .layout conf e n start).calls
    let run := reconcileApply score .layout conf e n start
    e.Serves first conf start →
      ((run.result = none → start.SameContent run.store) ↔
        (first.Suits conf ∧ last.FrameKnown conf) ∨ start.Undisturbed score first conf) := by
  intro first last run hserves
  by_cases hsuits : first.Suits conf
  · obtain ⟨hplaced, hfinished⟩ := reconcileMaps_reached score hconf hindex hstart n hserves hsuits
    obtain ⟨hresult, hstore⟩ := reconcileApply_last hplaced
    rw [writeConfig_heldAt] at hresult hstore
    have hanswers := Env.heldAt_answers hindex (reconcileMaps score .layout conf e n start).calls
    by_cases hlast : last.FrameKnown conf
    · have hknown : last.FrameKnown (conf.assigned start) := hlast
      have hreturned := (writeConfig_returns hanswers (hserves.calm.heldAt _) hknown
        (aclListsBits conf.acl) (reconcileMaps score .layout conf e n start).calls
        (reconcileMaps score .layout conf e n start).store).1
      rw [hreturned] at hresult
      refine ⟨fun _ => Or.inl ⟨hsuits, hlast⟩, fun _ hnone => ?_⟩
      cases hresult.symm.trans hnone
    · have hunknown : ¬last.FrameKnown (conf.assigned start) := hlast
      obtain ⟨hnone, hkept⟩ := writeConfig_halts hanswers hunknown (aclListsBits conf.acl) _
        (reconcileMaps score .layout conf e n start).store
      rw [hnone] at hresult
      rw [hkept] at hstore
      rw [or_iff_right fun h => hlast h.2, ← hfinished.sameContent_iff hconf hsuits, ← hstore]
      exact ⟨fun h => h hresult, fun h _ => h⟩
  · obtain ⟨hnone, hiff⟩ := reconcileMaps_refused score hconf hindex hstart n hserves hsuits
    obtain ⟨hresult, hstore⟩ := reconcileApply_halted hnone
    rw [or_iff_right fun h => hsuits h.1, ← hiff, ← hstore]
    exact ⟨fun h => h hresult, fun h _ => h⟩

end

namespace Sample

def noIfaces : Interfaces := { ifaces with nametoindex := fun _ => 0 }

def noIfacesEnv : Env := { calmEnv with nametoindex := fun _ => noIfaces.nametoindex }

theorem noIfacesEnv_on : noIfacesEnv.On noIfaces := ⟨fun _ _ => rfl, fun _ => rfl, fun _ _ => rfl⟩

theorem noIfacesEnv_calm : noIfacesEnv.Calm :=
  ⟨fun _ => rfl, fun _ _ => rfl, fun _ => rfl, fun _ => rfl, fun _ => rfl⟩

theorem otherConf_frameKnown : noIfaces.FrameKnown otherConf :=
  Or.inr (Or.inr (ifaces_maxFrame otherConf.inst.iface))

theorem otherConf_listsFit {start : Maps} (hstart : start.Bounded) :
    otherConf.ListsFit start := by
  have hacl := otherConf_holds.2.1
  constructor
  · rw [hacl]
    exact fits_nil hstart.aside.aclAllowV4
  · rw [hacl]
    exact fits_nil hstart.aside.aclBlockV4
  · rw [hacl]
    exact fits_nil hstart.aside.aclAllowV6
  · rw [hacl]
    exact fits_nil hstart.aside.aclBlockV6

theorem otherConf_not_suits : ¬noIfaces.Suits otherConf := by
  intro h
  have hports := otherConf_holds.1
  exact h.txPorts (cstr "q") (by rw [hports]; simp) rfl

end Sample

namespace Sample

def fadingEnv (n : Nat) : Env :=
  { calmEnv with mtu := fun k _ => if k < n then .ok 1500 else .error ⟨19⟩ }

/-- The interface goes away once the frame limit has been derived for the first time. -/
def fadedEnv : Env := fadingEnv ((reconcileOpening openConf calmEnv 0 blockedMaps).calls + 2)

theorem fadedEnv_calls : (reconcileOpening openConf fadedEnv 0 blockedMaps).calls =
    (reconcileOpening openConf calmEnv 0 blockedMaps).calls := by
  rw [reconcileOpening_frameFree.same calmEnv fadedEnv ⟨_, _, rfl⟩]

theorem openConf_derives : openConf.inst.maxFrameSet = false ∧
    anyBackendEncapsulates openConf = true := by
  decide +kernel

theorem fadedEnv_onlyFull : fadedEnv.OnlyFull openConf := by
  refine ⟨⟨fun _ => rfl, fun _ _ => rfl, fun _ => rfl, fun _ => rfl, fun _ => rfl⟩,
    openConf_holds.2.2.1, ?_⟩
  intro n id hid
  exact (BackendKeys.layout_ofId_zero hid).trans_lt hid

theorem fadedEnv_frame (n : Nat) (iface : CBuf) :
    frameOf none ((fadedEnv.interfacesAt nametoindex n).mtu iface) =
      if n ≤ (reconcileOpening openConf fadedEnv 0 blockedMaps).calls then some 1514 else none := by
  rw [fadedEnv_calls]
  change frameOf none (if n + 1 < _ + 2 then _ else _) = _
  by_cases hn : n ≤ (reconcileOpening openConf calmEnv 0 blockedMaps).calls
  · rw [if_pos hn, if_pos (by omega)]
    rfl
  · rw [if_neg hn, if_neg (by omega)]
    rfl

theorem fadedEnv_suits : (fadedEnv.interfacesAt nametoindex
    (reconcileOpening openConf fadedEnv 0 blockedMaps).calls).Suits openConf := by
  refine ⟨?_, Or.inr (Or.inr ?_)⟩
  · rw [openConf_holds.2.1]
    simp
  · rw [fadedEnv_frame, if_pos (Nat.le_refl _)]
    exact Option.some_ne_none _

theorem openConf_listsFit : openConf.ListsFit blockedMaps := by
  obtain ⟨-, h1, h2, h3, h4⟩ := openConf_room ifaces blockedMaps_bounded
  exact ⟨h1, h2, h3, h4⟩

theorem fadedEnv_serves : fadedEnv.Serves (fadedEnv.interfacesAt nametoindex
    (reconcileOpening openConf fadedEnv 0 blockedMaps).calls) openConf blockedMaps :=
  ⟨fadedEnv_onlyFull.calm, fun _ => openConf_listsFit,
    fun _ => ⟨fadedEnv_onlyFull, openConf_room _ blockedMaps_bounded⟩⟩

theorem fadedEnv_last : ¬(fadedEnv.interfacesAt nametoindex
    (reconcileMaps score .layout openConf fadedEnv 0 blockedMaps).calls).FrameKnown openConf := by
  have hreached := (reconcileMaps_reached score openConf_accepted (fun _ _ => rfl)
    blockedMaps_bounded 0 fadedEnv_serves fadedEnv_suits).1
  have hlater := reconcileMaps_calls hreached
  obtain ⟨hunset, hencap⟩ := openConf_derives
  rw [Interfaces.FrameKnown, hunset, hencap, fadedEnv_frame, if_neg (Nat.not_le.mpr hlater)]
  decide

end Sample

/-- The interface goes away in the course of a reload: all is applied, and it is refused. -/
theorem reconcileApply_refused_iff_faded :
    let run := reconcileApply Sample.score .layout Sample.openConf Sample.fadedEnv 0
      Sample.blockedMaps
    run.result = none ∧ ¬Sample.blockedMaps.SameContent run.store := by
  have hbounded := Sample.blockedMaps_bounded
  have hsuits := Sample.fadedEnv_suits
  have hiff := reconcileApply_refused_iff Sample.score Sample.openConf_accepted
    (e := Sample.fadedEnv) (fun _ _ => rfl) hbounded 0
    Sample.fadedEnv_serves
  intro run
  have hchanged : ¬(run.result = none → Sample.blockedMaps.SameContent run.store) := by
    intro h
    rcases hiff.mp h with ⟨-, hknown⟩ | hstill
    · exact Sample.fadedEnv_last hknown
    · have hmem := (hstill.blockV4 hsuits.maxFrame).mem_iff.mp Sample.mem_blockedMaps
      rw [Sample.openConf_holds.1] at hmem
      cases hmem
  exact Classical.not_imp.mp hchanged

/-- The rule that blocked a prefix is gone although the configuration was refused. -/
theorem not_reconcileApply_refused_port :
    ¬∀ (start : Maps) (conf : MarlinConf) (ifs : Interfaces) (e : Env), start.Bounded →
      conf.Accepted → e.On ifs → e.Calm → conf.ListsFit start →
      let run := reconcileApply Sample.score .layout conf e 0 start
      run.result = none → ¬ifs.Suits conf → start.SameContent run.store := by
  intro h
  have hbounded := Sample.blockedMaps_bounded
  have hfits := Sample.otherConf_listsFit hbounded
  have hport : cstr "q" ∈ Sample.otherConf.inst.txPorts := by
    rw [Sample.otherConf_holds.1]
    simp
  obtain ⟨hstops, hrelisted⟩ := reconcileMaps_portUnknown Sample.score .layout
    Sample.otherConf_accepted Sample.noIfacesEnv_on.answers Sample.noIfacesEnv_calm hbounded
    Sample.otherConf_frameKnown hfits hport rfl 0
  obtain ⟨hnone, hstore⟩ := reconcileApply_halted hstops
  rw [← hstore] at hrelisted
  have hsame := h Sample.blockedMaps Sample.otherConf Sample.noIfaces Sample.noIfacesEnv hbounded
    Sample.otherConf_accepted Sample.noIfacesEnv_on Sample.noIfacesEnv_calm hfits hnone
    Sample.otherConf_not_suits
  have hholds : Holds (aclPairs wantAclV4 Sample.otherConf.acl.blockV4)
      Sample.blockedMaps.aclBlockV4 := fun key =>
    (hsame.blockV4 key).symm.trans (hrelisted.blockV4 key)
  have hmem := hholds.mem_iff.mp Sample.mem_blockedMaps
  rw [Sample.otherConf_holds.2.1] at hmem
  simp [aclPairs, wanted] at hmem

end Marlin
