import Marlin.Marlind.ReconcilePlan

/-!
# What the forwarding phases write, on any host

The rules here hold whatever the environment answers, dishonest answers included: the
forwarding phases write nothing but `vip_map`, `fwd_table` and `backends`, and they never
leave a `vip_map` that the next reconcile could not read back.
-/

namespace Marlin

open Marlin.Library

structure Maps.VipBounded (mp : Maps) : Prop where
  canonical : mp.KeysCanonical
  readable : mp.Readable

structure FwdWrite (s t : Maps) : Prop where
  aside : s.SameAside t
  vips : s.VipBounded → t.VipBounded

/-- Every write of `m` on this host satisfies `R`. -/
abbrev Writes {α : Type} (e : Env) (R : Maps → Maps → Prop) (m : Reconcile α) : Prop :=
  Triple e (fun _ => True) m R (fun _ => True) fun _ _ => True

/-! ## Single calls -/

section Calls

variable {R : Maps → Maps → Prop} {α : Type}

theorem fail_only (text : String) : Only R (fail text : Reconcile α) :=
  .bind (.say _) fun _ => .stop

theorem failErrno_only (text : String) (errno : Errno) :
    Only R (failErrno text errno : Reconcile α) :=
  .bind (.ask _) fun _ => fail_only _

section Table

variable {K V : Type} [DecidableEq K] {ref : TableRef K V} {key : K} {value : V}

theorem TableRef.updateElem_only
    (h : ∀ s slot, (key ∉ ref.get s → (ref.get s).keys.length < ref.maxEntries) →
      R s (ref.set ((ref.get s).update slot key value) s)) :
    Only R (ref.updateElem key value) := by
  refine .put fun e n s => ?_
  cases hfault : e.writeFault n with
  | some fault => simp [chain]
  | none =>
      dsimp only
      split
      · simp [chain]
      · rename_i hroom
        have hstep := h s (e.slot n) fun hnew =>
          Nat.lt_of_not_le fun hfull => hroom ⟨hnew, hfull⟩
        simpa [chain] using hstep

theorem TableRef.deleteElem_only (h : ∀ s, R s (ref.set ((ref.get s).erase key) s)) :
    Only R (ref.deleteElem key) := by
  refine .put fun e n s => ?_
  cases hfault : e.deleteFault n with
  | some errno => simp [chain]
  | none =>
      dsimp only
      split
      · simpa [chain] using h s
      · simp [chain]

end Table

theorem updateBackend_only {key : Nat} {value : Backend}
    (h : key < maxBackends → ∀ s, R s { s with
      backends := Function.update s.backends key value }) :
    Only R (updateBackend key value) := by
  refine .put fun e n s => ?_
  cases hfault : e.writeFault n with
  | some fault => simp [chain]
  | none =>
      dsimp only
      split
      · rename_i hkey
        simpa [chain] using h hkey s
      · simp [chain]

theorem updateFwd_only {key value : Nat} (h : ∀ s : Maps, R s (s.setFwd key value)) :
    Only R (updateFwd key value) := by
  refine .put fun e n s => ?_
  cases hfault : e.writeFault n with
  | some fault => simp [chain]
  | none =>
      dsimp only
      split
      · simpa [chain] using h s
      · simp [chain]

theorem updateFwdBatch_only {kvs : List (Nat × Nat)}
    (h : ∀ kv ∈ kvs, ∀ s : Maps, R s (s.setFwd kv.1 kv.2)) : Only R (updateFwdBatch kvs) := by
  have hwrites : ∀ written, (∀ kv ∈ written, kv ∈ kvs) → ∀ s : Maps,
      ∀ p ∈ chain s (s.setFwds written), R p.1 p.2 := by
    intro written hsub s
    refine (trail_spec (J := fun _ _ => True) written ?_ trivial).1
    intro done kv rest hkvs s _
    exact ⟨h kv (hsub kv (by simp [hkvs])) s, trivial⟩
  have hvalid : ∀ kv ∈ kvs.takeWhile fun kv => kv.1 < maxFwdEntries, kv ∈ kvs :=
    fun kv hkv => (List.takeWhile_prefix _).subset hkv
  refine .put fun e n s => ?_
  cases hfault : e.writeFault n with
  | some fault => exact hwrites _ (fun kv hkv => hvalid kv (List.mem_of_mem_take hkv)) s
  | none => exact hwrites _ hvalid s

theorem writeFwdBlock_only {num : Nat} {values : Nat → Nat}
    (h : ∀ kv ∈ fwdBlock num values, ∀ s : Maps, R s (s.setFwd kv.1 kv.2)) :
    Only R (writeFwdBlock num values) := by
  refine .bind (.look _) fun oom => .ite (fail_only _) ?_
  refine .bind (updateFwdBatch_only h) fun answer => .ite (.pure _) fun e => ?_
  refine Triple.forEach (J := fun _ _ => True) _ fun done kv rest hkvs => ?_
  have hrow : Only R (writeFwdRow kv) := by
    refine .bind (updateFwd_only (h kv (by simp [hkvs]))) fun answer => ?_
    cases answer with
    | none => exact .pure _
    | some errno => exact failErrno_only _ _
  exact hrow e

theorem zeroFwdBlock_only {num : Nat}
    (h : ∀ kv ∈ fwdBlock num fun _ => marlinNoBackend, ∀ s : Maps, R s (s.setFwd kv.1 kv.2)) :
    Only R (zeroFwdBlock num) :=
  .bind (.look _) fun _ => .ite (fail_only _) (writeFwdBlock_only h)

theorem readVipBaseline_only : Only R readVipBaseline := by
  suffices hloop : ∀ room prev out, Only R (readVipBaselineFrom room prev out) from hloop _ _ _
  intro room
  induction room with
  | zero =>
      intro prev out
      unfold readVipBaselineFrom
      refine .bind (.look _) fun answer => ?_
      cases answer with
      | error errno => exact .ite (.pure _) (failErrno_only _ _)
      | ok key => exact fail_only _
  | succ room ih =>
      intro prev out
      unfold readVipBaselineFrom
      refine .bind (.look _) fun answer => ?_
      cases answer with
      | error errno => exact .ite (.pure _) (failErrno_only _ _)
      | ok key =>
          refine .bind (.look _) fun value => ?_
          cases value with
          | error errno => exact failErrno_only _ _
          | ok vipMeta => exact .ite (fail_only _) (ih _ _)

end Calls

/-! ## The forwarding phases -/

theorem FwdWrite.setFwd (s : Maps) (key value : Nat) : FwdWrite s (s.setFwd key value) :=
  ⟨⟨rfl, rfl, rfl, rfl, rfl, rfl⟩, fun h => ⟨h.canonical, ⟨h.readable.count, h.readable.num_lt⟩⟩⟩

theorem FwdWrite.setBackend (s : Maps) (key : Nat) (value : Backend) :
    FwdWrite s { s with backends := Function.update s.backends key value } :=
  ⟨⟨rfl, rfl, rfl, rfl, rfl, rfl⟩, fun h => ⟨h.canonical, ⟨h.readable.count, h.readable.num_lt⟩⟩⟩

theorem FwdWrite.dropKey (s : Maps) (key : VipKey) :
    FwdWrite s { s with vipMap := s.vipMap.erase key } := by
  refine ⟨⟨rfl, rfl, rfl, rfl, rfl, rfl⟩, fun h => ⟨?_, ?_, ?_⟩⟩
  · intro key' vipMeta hlookup
    exact h.canonical key' vipMeta ((Table.lookup_erase_iff _ _ _ _).mp hlookup).2
  · exact Nat.le_trans Table.length_erase_le h.readable.count
  · intro b hb
    obtain ⟨vipMeta, hlookup, hnum⟩ := Maps.mem_baseline.mp hb
    exact h.readable.num_lt b (Maps.mem_baseline.mpr
      ⟨vipMeta, ((Table.lookup_erase_iff _ _ _ _).mp hlookup).2, hnum⟩)

theorem FwdWrite.publish (s : Maps) {key : VipKey} {vipMeta : VipMeta} (slot : Nat)
    (hkey : key.Canonical) (hnum : vipMeta.vipNum < maxVips)
    (hroom : key ∉ s.vipMap → s.vipMap.keys.length < maxVips) :
    FwdWrite s { s with vipMap := s.vipMap.update slot key vipMeta } := by
  refine ⟨⟨rfl, rfl, rfl, rfl, rfl, rfl⟩, fun h => ⟨?_, ?_, ?_⟩⟩
  · intro key' vipMeta' hlookup
    rw [Table.lookup_update] at hlookup
    by_cases heq : key' = key
    · rwa [heq]
    · rw [if_neg heq] at hlookup
      exact h.canonical key' vipMeta' hlookup
  · change (s.vipMap.update slot key vipMeta).keys.length ≤ maxVips
    rw [Table.length_update]
    split
    · exact h.readable.count
    · rename_i hnew
      exact hroom hnew
  · intro b hb
    obtain ⟨vipMeta', hlookup, hb'⟩ := Maps.mem_baseline.mp hb
    rw [Table.lookup_update] at hlookup
    by_cases heq : b.key = key
    · rw [if_pos heq] at hlookup
      cases hlookup
      exact hb' ▸ hnum
    · rw [if_neg heq] at hlookup
      exact h.readable.num_lt b (Maps.mem_baseline.mpr ⟨vipMeta', hlookup, hb'⟩)

section Phases

variable {R : Maps → Maps → Prop} {keys : BackendKeys} {conf : MarlinConf}

theorem removeStaleVipKeys_only (baseline : List VipAllocBaseline)
    (h : ∀ key s, R s { s with vipMap := s.vipMap.erase key }) :
    Only R (removeStaleVipKeys conf baseline) := by
  refine .forEach (fun row => .ite (.pure _) ?_) _
  refine .bind (TableRef.deleteElem_only fun s => h row.key s) fun answer => ?_
  cases answer with
  | none => exact .pure _
  | some errno => exact .ite (.pure _) (failErrno_only _ _)

theorem writeBackends_only (h : ∀ b ifindex s, R s { s with
      backends := Function.update s.backends (keys.ofConf b) (backendValue b ifindex) }) :
    Only R (writeBackends keys conf) := by
  refine .forEach (fun b => ?_) _
  refine .bind (.ite (.look _) (.pure _)) fun ifindex => ?_
  refine .bind (updateBackend_only fun _ s => h b ifindex s) fun answer => ?_
  cases answer with
  | none => exact .pure _
  | some errno => exact failErrno_only _ _

theorem writeVip_only {S : Type} [LinearOrder S] {score : UInt64 → Nat → S} {vip : ConfVip}
    (hrow : ∀ kv ∈ fwdBlock vip.vipMeta.vipNum (genBlock score conf vip), ∀ s : Maps,
      R s (s.setFwd kv.1 kv.2))
    (hkey : ∀ key ∈ vip.keys, ∀ s slot,
      (key ∉ s.vipMap → s.vipMap.keys.length < maxVips) →
      R s { s with vipMap := s.vipMap.update slot key vip.vipMeta }) :
    Only R (writeVip score conf vip) := by
  refine .bind (.look _) fun noMembers => .bind (.look _) fun noBlock => ?_
  refine .ite (fail_only _) (.bind (writeFwdBlock_only hrow) fun _ e => ?_)
  refine Triple.forEach (J := fun _ _ => True) _ fun done key rest hkeys => ?_
  have hmem : key ∈ vip.keys := by simp [hkeys]
  refine (Only.bind (TableRef.updateElem_only (hkey key hmem)) fun answer => ?_ : Only R _) e
  cases answer with
  | none => exact .pure _
  | some errno => exact failErrno_only _ _

theorem releaseStaleVipBlocks_only (release : List Nat)
    (h : ∀ num ∈ release, ∀ kv ∈ fwdBlock num fun _ => marlinNoBackend, ∀ s : Maps,
      R s (s.setFwd kv.1 kv.2)) : Only R (releaseStaleVipBlocks release) := by
  intro e
  refine Triple.forEach (J := fun _ _ => True) _ fun done num rest hnums => ?_
  have hnum : num ∈ release := by simp [hnums]
  exact zeroFwdBlock_only (h num hnum) e

theorem retireBackend_only {id : Nat} (h : backendIdWanted conf id = false → ∀ stack,
      keys.ofId stack id < maxBackends → ∀ s, R s { s with
        backends := Function.update s.backends (keys.ofId stack id) 0 }) :
    Only R (retireBackend keys conf id) := by
  refine .bind (.look _) fun key => .bind (.look _) fun answer => ?_
  cases answer with
  | error errno => exact .pure _
  | ok cur =>
      refine .ite (.pure _) fun e => Triple.ite (fun _ => Triple.pure fun _ _ => trivial) ?_
      intro hunwanted
      refine Triple.bind (M := fun key _ => ∃ stack, key = keys.ofId stack id)
        (Triple.look fun n s _ => ⟨e.stack n, rfl⟩) fun key => ?_
      refine Triple.pre (P := fun _ => (∃ stack, key = keys.ofId stack id) ∧ True)
        (Triple.assume ?_) fun s hs => ⟨hs, trivial⟩
      rintro ⟨stack, rfl⟩
      have hupdate := updateBackend_only (h (by simpa using hunwanted) stack)
      refine (Only.bind hupdate fun answer => ?_ : Only R _) e
      cases answer with
      | none => exact .pure _
      | some errno => exact failErrno_only _ _

theorem retireStaleBackends_only (h : ∀ id, Only R (retireBackend keys conf id)) :
    Only R (retireStaleBackends keys conf) :=
  .forEach h _

/-! ## The other phases -/

theorem TableRef.collectKeys_only {K V : Type} [DecidableEq K] (ref : TableRef K V) (room : Nat)
    (prev : Option K) : Only R (ref.collectKeys room prev) := by
  induction room generalizing prev with
  | zero => exact .pure _
  | succ room ih =>
      unfold TableRef.collectKeys
      refine .bind (.look _) fun answer => ?_
      cases answer with
      | error errno => exact .pure _
      | ok key => exact .bind (ih _) fun _ => .pure _

theorem settleMaxFrame_only : Only R (settleMaxFrame conf) := by
  have hderive : ∀ iface, Only R (deriveMaxFrame iface) := by
    intro iface
    refine .bind (.look _) fun socket => ?_
    cases socket with
    | some errno => exact .bind (.ask _) fun _ => .bind (.say _) fun _ => .pure _
    | none =>
        refine .bind (.look _) fun mtu => ?_
        cases mtu with
        | error errno => exact .bind (.ask _) fun _ => .bind (.say _) fun _ => .pure _
        | ok mtu => exact .ite (.bind (.say _) fun _ => .pure _) (.pure _)
  refine .ite (.pure _) (.bind (hderive _) fun derived => ?_)
  cases derived with
  | some maxFrame => exact .pure _
  | none => exact .ite (fail_only _) (.pure _)

theorem writeConfig_only {aclLists : UInt16} (h : ∀ value s, R s { s with config := value }) :
    Only R (writeConfig conf aclLists) := by
  refine .bind settleMaxFrame_only fun maxFrame => .bind (.put fun e n s => ?_) fun answer => ?_
  · cases hfault : e.writeFault n with
    | some fault => simp [chain]
    | none => simpa [chain] using h _ s
  · cases answer with
    | none => exact .pure _
    | some errno => exact failErrno_only _ _

theorem readOldAclLists_only : Only R readOldAclLists := by
  refine .bind (.look _) fun answer => ?_
  cases answer with
  | error errno => exact .pure _
  | ok old => exact .pure _

theorem reconcileAcl_only {K : Type} [DecidableEq K] {ref : TableRef K Nat}
    {want : ConfAclEntry → K} {family : String} {entries : List ConfAclEntry}
    (h : ∀ table s, R s (ref.set table s)) : Only R (reconcileAcl ref want family entries) := by
  refine .bind (.look _) fun oom => .ite (fail_only _) ?_
  refine .bind (ref.collectKeys_only _ _) fun existing => .bind (.forEach (fun entry => ?_) _)
    fun _ => .forEach (fun key => .ite (.pure _) ?_) _
  · refine .bind (TableRef.updateElem_only fun s slot _ => h _ s) fun answer => ?_
    cases answer with
    | none => exact .pure _
    | some errno => exact failErrno_only _ _
  · refine .bind (TableRef.deleteElem_only fun s => h _ s) fun answer => ?_
    cases answer with
    | none => exact .pure _
    | some errno => exact .ite (.pure _) (failErrno_only _ _)

theorem resolveTxPorts_only (names : List (CBuf × Nat)) : Only R (resolveTxPorts names) := by
  induction names with
  | nil => exact .pure _
  | cons name names ih =>
      refine .bind (.look _) fun ifindex => .ite (fail_only _) ?_
      exact .bind ih fun _ => .pure _

theorem applyAside_only (h : ∀ s t, s.SameTables t → R s t) : Only R (applyAside conf) := by
  refine .bind (reconcileAcl_only fun table s => h s _ ⟨rfl, rfl, rfl⟩) fun _ => ?_
  refine .bind (reconcileAcl_only fun table s => h s _ ⟨rfl, rfl, rfl⟩) fun _ => ?_
  refine .bind (reconcileAcl_only fun table s => h s _ ⟨rfl, rfl, rfl⟩) fun _ => ?_
  refine .bind (reconcileAcl_only fun table s => h s _ ⟨rfl, rfl, rfl⟩) fun _ => ?_
  refine .bind (resolveTxPorts_only _) fun want => .bind (.forEach (fun ifindex => ?_) _)
    fun _ => .pure _
  refine .bind (TableRef.updateElem_only fun s slot _ => h s _ ⟨rfl, rfl, rfl⟩) fun answer => ?_
  cases answer with
  | none => exact .pure _
  | some errno => exact failErrno_only _ _

theorem removeStaleTxPorts_only (want : List Nat)
    (h : ∀ table s, R s { s with txPorts := table }) : Only R (removeStaleTxPorts want) := by
  refine .bind (txPortsRef.collectKeys_only _ _) fun existing =>
    .forEach (fun ifindex => .ite (.pure _) ?_) _
  refine .bind (TableRef.deleteElem_only fun s => h _ s) fun answer => ?_
  cases answer with
  | none => exact .pure _
  | some errno => exact .ite (.pure _) (failErrno_only _ _)

end Phases

end Marlin
