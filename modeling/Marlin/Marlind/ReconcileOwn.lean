import Marlin.Marlind.ReconcileRuns

/-!
# What a reconcile writes is its file's

Whatever the host answers, dishonest answers included, a reconcile puts nothing into
`config`, `backends` and `vip_map` that its configuration does not state.  So maps that only
reconciles write hold what the configurations of these reconciles state.
-/

namespace Marlin

open Marlin.Library Marlin.Library.Table

/-- A write whose value the configuration states; of the metadata, not the block. -/
structure OwnStep (conf : MarlinConf) (s t : Maps) : Prop where
  config : t.config = s.config ∨ ∃ aclLists maxFrame,
    (conf.inst.maxFrame ≤ 0xffff → maxFrame ≤ 0xffff) ∧
      t.config = configValue conf aclLists maxFrame
  backends : t.backends = s.backends ∨
    (∃ b ∈ conf.backends, ∃ ifindex, BackendKeys.layout.ofConf b < maxBackends ∧
      t.backends = Function.update s.backends (BackendKeys.layout.ofConf b)
        (backendValue b ifindex)) ∨
    ∃ id, t.backends = Function.update s.backends id 0
  vipMap : t.vipMap = s.vipMap ∨ (∃ key, t.vipMap = s.vipMap.erase key) ∨
    ∃ vip ∈ conf.vips, ∃ key ∈ vip.keys, ∃ slot num,
      t.vipMap = s.vipMap.update slot key { vip.vipMeta with vipNum := num }

section

variable {conf : MarlinConf} {s t : Maps}

theorem OwnStep.of_same (hconfig : t.config = s.config) (hbackends : t.backends = s.backends)
    (hvipMap : t.vipMap = s.vipMap) : OwnStep conf s t :=
  ⟨Or.inl hconfig, Or.inl hbackends, Or.inl hvipMap⟩

theorem OwnStep.of_withNums {num : Nat → Nat} (h : OwnStep (conf.withNums num) s t) :
    OwnStep conf s t := by
  refine ⟨h.config, h.backends, h.vipMap.imp_right (Or.imp_right ?_)⟩
  rintro ⟨vip, hvip, key, hkey, slot, n, ht⟩
  obtain ⟨i, entry, hi, rfl⟩ := MarlinConf.mem_withNums.mp hvip
  exact ⟨entry, List.mem_of_getElem? hi, key, hkey, slot, n, ht⟩

theorem Env.Frames.le {e : Env} {maxFrame : Nat} (h : e.Frames conf maxFrame)
    (hstated : conf.inst.maxFrame ≤ 0xffff) : maxFrame ≤ 0xffff := by
  rw [Env.Frames] at h
  split at h
  · rw [h]
    exact hstated
  · rcases h with ⟨n, m, hderived⟩ | ⟨-, -, hzero⟩
    · simp only [frameOf] at hderived
      split at hderived
      · split at hderived
        · cases hderived
        · obtain rfl := Option.some.inj hderived
          omega
      · cases hderived
    · rw [hzero]
      exact Nat.zero_le _

variable (conf)

theorem writeConfig_own (aclLists : UInt16) : Only (OwnStep conf) (writeConfig conf aclLists) := by
  intro e
  refine Triple.bind (M := fun maxFrame _ => e.Frames conf maxFrame ∧ True) ?_
    fun maxFrame => Triple.assume fun hframe => ?_
  · exact Triple.consequence (settleMaxFrame_triple (G := False) (P := fun _ => True) False.elim)
      (fun _ h => h) (fun _ _ h => h) (fun _ _ => trivial) fun _ _ h => h
  refine Triple.bind (M := fun _ _ => True) (Triple.put (fun n s _ => ?_) fun _ _ _ => trivial)
    fun answer => ?_
  · cases hfault : e.writeFault n with
    | some fault => simp [chain]
    | none =>
        have hstep : OwnStep conf s { s with config := configValue conf aclLists maxFrame } :=
          ⟨Or.inr ⟨aclLists, maxFrame, hframe.le, rfl⟩, Or.inl rfl, Or.inl rfl⟩
        simpa [chain] using hstep
  · cases answer with
    | none => exact Only.pure _ e
    | some errno => exact failErrno_only _ _ e

theorem writeBackends_own : Only (OwnStep conf) (writeBackends .layout conf) := by
  intro e
  refine Triple.forEach (J := fun _ _ => True) conf.backends fun done b rest hbackends => ?_
  have hb : b ∈ conf.backends := by simp [hbackends]
  have hbody : Only (OwnStep conf) (writeBackend .layout b) := by
    refine .bind (.ite (.look _) (.pure _)) fun ifindex => ?_
    refine .bind (updateBackend_only fun hlt s => ?_) fun answer => ?_
    · exact ⟨Or.inl rfl, Or.inr (Or.inl ⟨b, hb, ifindex, hlt, rfl⟩), Or.inl rfl⟩
    · cases answer with
      | none => exact .pure _
      | some errno => exact failErrno_only _ _
  exact hbody e

theorem applyAside_own : Only (OwnStep conf) (applyAside conf) := by
  refine .bind (reconcileAcl_only fun _ _ => .of_same rfl rfl rfl) fun _ => ?_
  refine .bind (reconcileAcl_only fun _ _ => .of_same rfl rfl rfl) fun _ => ?_
  refine .bind (reconcileAcl_only fun _ _ => .of_same rfl rfl rfl) fun _ => ?_
  refine .bind (reconcileAcl_only fun _ _ => .of_same rfl rfl rfl) fun _ => ?_
  refine .bind (resolveTxPorts_only _) fun want => .bind (.forEach (fun ifindex => ?_) _)
    fun _ => .pure _
  refine .bind (TableRef.updateElem_only fun s slot _ => .of_same rfl rfl rfl) fun answer => ?_
  cases answer with
  | none => exact .pure _
  | some errno => exact failErrno_only _ _

theorem applyMaps_own {S : Type} [LinearOrder S] (score : UInt64 → Nat → S) (plan : VipAllocPlan) :
    Only (OwnStep conf) (applyMaps score .layout conf plan) := by
  refine .bind (applyAside_own conf) fun want => ?_
  refine .bind (writeBackends_own conf) fun _ => ?_
  refine .bind (.forEach (fun i => ?_) plan.writeOrder) fun _ => ?_
  · cases hvip : conf.vips[i]? with
    | none => exact .pure _
    | some vip =>
        have hmem := List.mem_of_getElem? hvip
        refine writeVip_only (fun _ _ s => .of_same rfl rfl rfl) fun key hkey s slot _ => ?_
        exact ⟨Or.inl rfl, Or.inl rfl,
          Or.inr (Or.inr ⟨vip, hmem, key, hkey, slot, vip.vipMeta.vipNum, rfl⟩)⟩
  refine .bind (releaseStaleVipBlocks_only _ fun _ _ _ _ s => .of_same rfl rfl rfl) fun _ => ?_
  refine .bind (retireStaleBackends_only fun _ => retireBackend_only fun _ stack _ s => ?_)
    fun _ => removeStaleTxPorts_only want fun _ s => .of_same rfl rfl rfl
  exact ⟨Or.inl rfl, Or.inr (Or.inr ⟨_, rfl⟩), Or.inl rfl⟩

theorem reconcileApply_own {S : Type} [LinearOrder S] (score : UInt64 → Nat → S) :
    Only (OwnStep conf) (reconcileApply score .layout conf) := by
  have hopen : Only (OwnStep conf) openMaps := fun e =>
    Triple.consequence (openMaps_triple (G := False) (P := fun _ => True) False.elim)
      (fun _ h => h) (fun _ _ h => h) (fun _ _ => trivial) fun _ _ h => h
  have halloc : ∀ baseline, Only (OwnStep conf) (allocateVipNums conf baseline) :=
    fun _ => .ite (fail_only _) (.ite (fail_only _) (.pure _))
  refine .bind hopen fun _ => .bind readVipBaseline_only fun baseline =>
    .bind (halloc baseline) fun result => ?_
  have hrest : Only (OwnStep (conf.withNums result.num)) (do
      removeStaleVipKeys (conf.withNums result.num) baseline
      let oldAclLists ← readOldAclLists
      writeConfig (conf.withNums result.num) (oldAclLists ||| aclListsBits conf.acl)
      applyMaps score .layout (conf.withNums result.num) result.plan
      writeConfig (conf.withNums result.num) (aclListsBits conf.acl)
      pure (conf.withNums result.num)) := by
    refine .bind (removeStaleVipKeys_only baseline fun key s => ?_) fun _ => ?_
    · exact ⟨Or.inl rfl, Or.inl rfl, Or.inr (Or.inl ⟨key, rfl⟩)⟩
    refine .bind readOldAclLists_only fun old => .bind (writeConfig_own _ _) fun _ => ?_
    exact .bind (applyMaps_own _ score result.plan) fun _ =>
      .bind (writeConfig_own _ _) fun _ => .pure _
  exact fun e => Triple.consequence (hrest e) (fun _ h => h) (fun _ _ h => h.of_withNums)
    (fun _ h => h) fun _ _ h => h

end

/-! ## Maps that only reconciles write -/

namespace MarlinConf.Accepted

variable {conf : MarlinConf} (h : conf.Accepted)

include h

theorem vni_lt : ∀ b ∈ conf.backends, b.abi.vni < 2 ^ 24 := by
  obtain ⟨host, file, enforce, hload⟩ := h
  obtain ⟨parsed, diag, hparsed, -, -, rfl⟩ := confLoad_eq_some hload
  intro b hb
  obtain ⟨b', hb', rfl⟩ := List.mem_map.mp (show b ∈ parsed.backends.map settleFib from hb)
  exact (hparsed.backends b' hb').vni

theorem maxFrame_le : conf.inst.maxFrame ≤ 0xffff := by
  obtain ⟨host, file, enforce, hload⟩ := h
  obtain ⟨parsed, diag, hparsed, -, -, rfl⟩ := confLoad_eq_some hload
  obtain ⟨ifindex, hinst⟩ := checkInstance_inst host.nametoindex parsed.inst
  change (checkInstance host.nametoindex parsed.inst).1.maxFrame ≤ 0xffff
  rw [hinst]
  exact hparsed.inst.maxFrame

end MarlinConf.Accepted

/-- The maps hold what some of the configurations `known` state, and nothing else. -/
structure Maps.FromFiles (known : MarlinConf → Prop) (mp : Maps) : Prop where
  config : mp.config = 0 ∨ ∃ conf, known conf ∧ ∃ aclLists maxFrame, maxFrame ≤ 0xffff ∧
    mp.config = configValue conf aclLists maxFrame
  backends : ∀ id, mp.backends id = 0 ∨ ∃ conf, known conf ∧ ∃ b ∈ conf.backends, b.id = id ∧
    ∃ ifindex, mp.backends id = backendValue b ifindex
  vipMap : ∀ key vipMeta, mp.vipMap.lookup key = some vipMeta → ∃ conf, known conf ∧
    ∃ vip ∈ conf.vips, key ∈ vip.keys ∧ ∃ num, vipMeta = { vip.vipMeta with vipNum := num }

theorem Maps.fresh_fromFiles (known : MarlinConf → Prop) : Maps.fresh.FromFiles known :=
  ⟨Or.inl rfl, fun _ => Or.inl rfl, fun _ _ h => by simp [Maps.fresh] at h⟩

theorem OwnStep.fromFiles {known : MarlinConf → Prop} {conf : MarlinConf} {s t : Maps}
    (hstep : OwnStep conf s t) (hknown : known conf) (hconf : conf.Accepted)
    (h : s.FromFiles known) : t.FromFiles known := by
  refine ⟨?_, fun id => ?_, fun key vipMeta hlookup => ?_⟩
  · rcases hstep.config with hsame | ⟨aclLists, maxFrame, hle, hvalue⟩
    · rw [hsame]
      exact h.config
    · exact Or.inr ⟨conf, hknown, aclLists, maxFrame, hle hconf.maxFrame_le, hvalue⟩
  · rcases hstep.backends with hsame | ⟨b, hb, ifindex, hlt, hfill⟩ | ⟨gone, hzero⟩
    · rw [hsame]
      exact h.backends id
    · have hslot := (BackendKeys.layout_sound.ofConf b (hconf.checked.id_lt b hb)).resolve_right
        (Nat.not_le.mpr hlt)
      rw [hfill, hslot]
      by_cases hid : id = b.id
      · rw [hid, Function.update_self]
        exact Or.inr ⟨conf, hknown, b, hb, rfl, ifindex, rfl⟩
      · rw [Function.update_of_ne hid]
        exact h.backends id
    · rw [hzero]
      by_cases hid : id = gone
      · rw [hid, Function.update_self]
        exact Or.inl rfl
      · rw [Function.update_of_ne hid]
        exact h.backends id
  · rcases hstep.vipMap with hsame | ⟨gone, hdrop⟩ | ⟨vip, hvip, pub, hpub, slot, num, hadd⟩
    · rw [hsame] at hlookup
      exact h.vipMap key vipMeta hlookup
    · rw [hdrop] at hlookup
      exact h.vipMap key vipMeta ((lookup_erase_iff _ _ _ _).mp hlookup).2
    · rw [hadd, lookup_update] at hlookup
      split at hlookup
      · next hkey =>
        obtain rfl := Option.some.inj hlookup
        exact ⟨conf, hknown, vip, hvip, hkey ▸ hpub, num, rfl⟩
      · exact h.vipMap key vipMeta hlookup

theorem MarlinConf.Accepted.fromFiles {known : MarlinConf → Prop} {conf : MarlinConf}
    (hconf : conf.Accepted) (hknown : known conf) {S : Type} [LinearOrder S]
    (score : UInt64 → Nat → S) (e : Env) (n : Nat) {start : Maps} (hstart : start.FromFiles known) :
    (reconcileApply score .layout conf e n start).store.FromFiles known ∧
      ∀ p ∈ (reconcileApply score .layout conf e n start).steps, p.2.FromFiles known := by
  have hmeets := hconf.meets score BackendKeys.layout_sound e n start
  have hwrites := reconcileApply_own conf score e n start trivial
  obtain ⟨hlast, hsteps⟩ := hmeets.linked.invariant hwrites.steps
    (fun _ _ hstep => hstep.fromFiles hknown hconf) hstart
  exact ⟨hlast, fun p hp => (hsteps p hp).2⟩

end Marlin
