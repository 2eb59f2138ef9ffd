import Marlin.Marlind.ReconcileRetry

/-!
# What a reconcile writes where the interfaces stay as they are

The values that a reconcile takes from the host, `max_frame`, the indices of the ports and
of the egress interfaces, are functions of the configuration when the host's interfaces do
not change.  Nothing is assumed here about which calls fail.
-/

namespace Marlin

open Marlin.Library Marlin.Library.Table

/-- A write that takes what it needs of the host from `ifs`. -/
structure OnStep (ifs : Interfaces) (conf : MarlinConf) (s t : Maps) : Prop where
  config : t.config = s.config ∨
    ∃ aclLists, t.config = configValue conf aclLists (ifs.maxFrame conf)
  txPorts : t.txPorts = s.txPorts ∨
    (∃ slot, ∃ ifindex ∈ ifs.txPorts conf, t.txPorts = s.txPorts.update slot ifindex ifindex) ∨
    ∃ ifindex, ifindex ∉ ifs.txPorts conf ∧ t.txPorts = s.txPorts.erase ifindex
  backends : t.backends = s.backends ∨
    (∃ b ∈ conf.backends, BackendKeys.layout.ofConf b < maxBackends ∧
      t.backends = Function.update s.backends (BackendKeys.layout.ofConf b)
        (backendValue b (ifs.nametoindex b.egress))) ∨
    ∃ id, t.backends = Function.update s.backends id 0

section

variable {ifs : Interfaces} {conf : MarlinConf} {s t : Maps}

theorem OnStep.of_same (hconfig : t.config = s.config) (htxPorts : t.txPorts = s.txPorts)
    (hbackends : t.backends = s.backends) : OnStep ifs conf s t :=
  ⟨Or.inl hconfig, Or.inl htxPorts, Or.inl hbackends⟩

theorem OnStep.of_withNums {num : Nat → Nat} (h : OnStep ifs (conf.withNums num) s t) :
    OnStep ifs conf s t :=
  ⟨h.config, h.txPorts, h.backends⟩

end

section

variable {e : Env} {ifs : Interfaces} (hon : e.On ifs) {conf : MarlinConf}

include hon

theorem writeConfig_on (aclLists : UInt16) :
    Writes e (OnStep ifs conf) (writeConfig conf aclLists) := by
  refine Triple.bind (M := fun maxFrame _ => maxFrame = ifs.maxFrame conf) ?_ fun maxFrame => ?_
  · exact Triple.consequence (settleMaxFrame_triple (G := False) (P := fun _ => True) False.elim)
      (fun _ h => h) (fun _ _ h => h) (fun _ _ => trivial) fun _ _ h => hon.answers.maxFrame h.1
  · refine Triple.pre (P := fun _ => maxFrame = ifs.maxFrame conf ∧ True) (Triple.assume ?_)
      fun _ h => ⟨h, trivial⟩
    rintro rfl
    refine Triple.bind (M := fun _ _ => True) (Triple.put (fun n s _ => ?_) fun _ _ _ => trivial)
      fun answer => ?_
    · cases hfault : e.writeFault n with
      | some fault => simp [chain]
      | none =>
          have hstep : OnStep ifs conf s { s with
              config := configValue conf aclLists (ifs.maxFrame conf) } :=
            ⟨Or.inr ⟨aclLists, rfl⟩, Or.inl rfl, Or.inl rfl⟩
          simpa [chain] using hstep
    · cases answer with
      | none => exact Only.pure _ e
      | some errno => exact failErrno_only _ _ e

theorem writeBackends_on : Writes e (OnStep ifs conf) (writeBackends .layout conf) := by
  refine Triple.forEach (J := fun _ _ => True) conf.backends fun done b rest hbackends => ?_
  have hb : b ∈ conf.backends := by simp [hbackends]
  refine Triple.bind (M := fun ifindex _ =>
    backendValue b ifindex = backendValue b (ifs.nametoindex b.egress) ∧ True) ?_
    fun ifindex => Triple.assume fun hvalue => ?_
  · refine Triple.ite (fun _ => ?_) fun hegress => ?_
    · exact Triple.look fun n s _ => ⟨by rw [hon.nametoindex], trivial⟩
    · exact Triple.pure fun s _ => ⟨by simp [backendValue, hegress], trivial⟩
  rw [hvalue]
  refine Triple.bind (updateBackend_only (fun hlt s => ?_) e) fun answer => ?_
  · exact ⟨Or.inl rfl, Or.inl rfl, Or.inr (Or.inl ⟨b, hb, hlt, rfl⟩)⟩
  · cases answer with
    | none => exact Only.pure _ e
    | some errno => exact failErrno_only _ _ e

theorem applyAside_on : Triple e (fun _ => True) (applyAside conf) (OnStep ifs conf)
    (fun _ => True) fun want _ => want = ifs.txPorts conf := by
  have htrie : ∀ {K : Type} [DecidableEq K] (ref : TableRef K Nat) (want : ConfAclEntry → K)
      (family : String) (entries : List ConfAclEntry), (∀ table s,
        OnStep ifs conf s (ref.set table s)) →
      Writes e (OnStep ifs conf) (reconcileAcl ref want family entries) :=
    fun ref want family entries h => reconcileAcl_only h e
  refine Triple.bind (htrie _ _ _ _ fun _ _ => .of_same rfl rfl rfl) fun _ => ?_
  refine Triple.bind (htrie _ _ _ _ fun _ _ => .of_same rfl rfl rfl) fun _ => ?_
  refine Triple.bind (htrie _ _ _ _ fun _ _ => .of_same rfl rfl rfl) fun _ => ?_
  refine Triple.bind (htrie _ _ _ _ fun _ _ => .of_same rfl rfl rfl) fun _ => ?_
  refine Triple.bind (resolveTxPorts_triple (P := fun _ => True) conf.inst.txPorts 0
    fun _ _ _ _ _ _ => trivial) fun want => Triple.assume fun hwant => ?_
  have hports : want = ifs.txPorts conf := hon.answers.resolves_eq hwant
  refine Triple.bind (M := fun _ _ => True) ?_ fun _ => Triple.pure fun _ _ => hports
  refine Triple.forEach (J := fun _ _ => True) want fun done ifindex rest hsplit => ?_
  have hmem : ifindex ∈ ifs.txPorts conf := by
    rw [← hports, hsplit]
    simp
  refine Triple.bind (TableRef.updateElem_only (fun s slot _ => ?_) e) fun answer => ?_
  · exact ⟨Or.inl rfl, Or.inr (Or.inl ⟨slot, ifindex, hmem, rfl⟩), Or.inl rfl⟩
  · cases answer with
    | none => exact Only.pure _ e
    | some errno => exact failErrno_only _ _ e

omit hon in
theorem removeStaleTxPorts_on :
    Writes e (OnStep ifs conf) (removeStaleTxPorts (ifs.txPorts conf)) := by
  refine Triple.bind (txPortsRef.collectKeys_only _ _ e) fun existing => ?_
  refine Triple.forEach (J := fun _ _ => True) existing fun done ifindex rest _ => ?_
  refine Triple.ite (fun _ => Only.pure _ e) fun hstale => ?_
  have hstale : ifindex ∉ ifs.txPorts conf := by simpa using hstale
  refine Triple.bind (TableRef.deleteElem_only (fun s => ?_) e) fun answer => ?_
  · exact ⟨Or.inl rfl, Or.inr (Or.inr ⟨ifindex, hstale, rfl⟩), Or.inl rfl⟩
  · cases answer with
    | none => exact Only.pure _ e
    | some errno => exact Triple.ite (fun _ => Only.pure _ e) fun _ => failErrno_only _ _ e

theorem applyMaps_on {S : Type} [LinearOrder S] (score : UInt64 → Nat → S) (plan : VipAllocPlan) :
    Writes e (OnStep ifs conf) (applyMaps score .layout conf plan) := by
  refine Triple.bind (applyAside_on hon) fun want => ?_
  refine Triple.pre (P := fun _ => want = ifs.txPorts conf ∧ True) (Triple.assume ?_)
    fun _ h => ⟨h, trivial⟩
  rintro rfl
  refine Triple.bind (writeBackends_on hon) fun _ => ?_
  refine Triple.bind (Only.forEach (fun i => ?_) plan.writeOrder e) fun _ => ?_
  · cases conf.vips[i]? with
    | none => exact .pure _
    | some vip =>
        have hvip : Only (OnStep ifs conf) (writeVip score conf vip) :=
          writeVip_only (fun _ _ s => .of_same rfl rfl rfl) fun _ _ s _ _ => .of_same rfl rfl rfl
        exact hvip
  refine Triple.bind (releaseStaleVipBlocks_only _ (fun _ _ _ _ s => .of_same rfl rfl rfl) e)
    fun _ => ?_
  refine Triple.bind (retireStaleBackends_only
    (fun _ => retireBackend_only fun _ stack _ s => ?_) e) fun _ => removeStaleTxPorts_on
  exact ⟨Or.inl rfl, Or.inl rfl, Or.inr (Or.inr ⟨_, rfl⟩)⟩

theorem reconcileApply_on {S : Type} [LinearOrder S] (score : UInt64 → Nat → S) :
    Writes e (OnStep ifs conf) (reconcileApply score .layout conf) := by
  refine Triple.bind (M := fun _ _ => True) ?_ fun _ => ?_
  · exact Triple.consequence (openMaps_triple (G := False) (P := fun _ => True) False.elim)
      (fun _ h => h) (fun _ _ h => h) (fun _ _ => trivial) fun _ _ h => h
  refine Triple.bind (readVipBaseline_only e) fun baseline => ?_
  have halloc : Only (OnStep ifs conf) (allocateVipNums conf baseline) :=
    .ite (fail_only _) (.ite (fail_only _) (.pure _))
  refine Triple.bind (halloc e) fun result => ?_
  have hrest : Writes e (OnStep ifs (conf.withNums result.num)) (do
      removeStaleVipKeys (conf.withNums result.num) baseline
      let oldAclLists ← readOldAclLists
      writeConfig (conf.withNums result.num) (oldAclLists ||| aclListsBits conf.acl)
      applyMaps score .layout (conf.withNums result.num) result.plan
      writeConfig (conf.withNums result.num) (aclListsBits conf.acl)
      pure (conf.withNums result.num)) := by
    refine Triple.bind (removeStaleVipKeys_only baseline
      (fun _ s => .of_same rfl rfl rfl) e) fun _ => ?_
    refine Triple.bind (readOldAclLists_only e) fun old => ?_
    refine Triple.bind (writeConfig_on hon _) fun _ => ?_
    refine Triple.bind (applyMaps_on hon score result.plan) fun _ => ?_
    exact Triple.bind (writeConfig_on hon _) fun _ => Only.pure _ e
  exact Triple.consequence hrest (fun _ h => h) (fun _ _ h => h.of_withNums) (fun _ h => h)
    fun _ _ h => h

end

end Marlin
