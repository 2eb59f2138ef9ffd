import Marlin.Marlind.ReconcileWhole

/-!
# A slot that the retirement does not reach

`retire_stale_backends` passes the address of a 16-bit local where the kernel reads a
32-bit key.  With anything but zeros behind the local the lookup names no slot and fails,
and the loop takes the slot for one that was never allocated.
-/

namespace Marlin

open Marlin.Library

/-- No key that the retirement passes is a key of the map. -/
def RetireMisses (e : Env) (keys : BackendKeys) : Prop :=
  ∀ n id, id < maxBackends → maxBackends ≤ keys.ofId (e.stack n) id

theorem RetireMisses.of_stack {e : Env} (h : ∀ n, e.stack n % 2 ^ 16 ≠ 0) :
    RetireMisses e .layout := by
  intro n id hid
  have hne := h n
  simp only [BackendKeys.layout, maxBackends] at *
  omega

theorem RetireMisses.steady {e : Env} {keys : BackendKeys} (h : RetireMisses e keys) :
    KeysSteady e keys :=
  fun n _ id hid hlt => absurd hlt (Nat.not_lt.mpr (h n id hid))

section

variable {e : Env} {keys : BackendKeys} {conf : MarlinConf} {R : Maps → Maps → Prop}

theorem retireBackend_misses (h : RetireMisses e keys) {id : Nat} (hid : id < maxBackends) :
    Writes e R (retireBackend keys conf id) := by
  refine Triple.bind (M := fun key _ => maxBackends ≤ key ∧ True)
    (Triple.look fun n s _ => ⟨h n id hid, trivial⟩) fun key => Triple.assume fun hkey => ?_
  refine Triple.bind (M := fun answer _ => (∃ errno, answer = .error errno) ∧ True)
    (Triple.look fun n s _ => ?_) fun answer => Triple.assume ?_
  · cases hread : e.readFault .backends n with
    | some errno => exact ⟨⟨errno, rfl⟩, trivial⟩
    | none => exact ⟨⟨.enoent, if_neg (Nat.not_lt.mpr hkey)⟩, trivial⟩
  · rintro ⟨errno, rfl⟩
    exact Only.pure _ e

theorem reconcileApply_writes {S : Type} [LinearOrder S] (score : UInt64 → Nat → S)
    (hother : ∀ s t : Maps, t.backends = s.backends → R s t)
    (hwrite : ∀ b ∈ conf.backends, ∀ ifindex s, keys.ofConf b < maxBackends → R s { s with
      backends := Function.update s.backends (keys.ofConf b) (backendValue b ifindex) })
    (hretire : ∀ id < maxBackends, Writes e R (retireBackend keys conf id)) :
    Writes e R (reconcileApply score keys conf) := by
  have hopen : Writes e R openMaps :=
    Triple.consequence (openMaps_triple (G := False) (P := fun _ => True) False.elim)
      (fun _ h => h) (fun _ _ h => h) (fun _ _ => trivial) fun _ _ h => h
  have hconfig : ∀ num aclLists, Writes e R (writeConfig (conf.withNums num) aclLists) :=
    fun _ _ => writeConfig_only (fun _ _ => hother _ _ rfl) e
  have hbackends : Writes e R (writeBackends keys conf) := by
    refine Triple.forEach (J := fun _ _ => True) _ fun done b rest hsplit => ?_
    have hb : b ∈ conf.backends := by simp [hsplit]
    have hbody : Only R (writeBackend keys b) := by
      refine .bind (.ite (.look _) (.pure _)) fun ifindex => ?_
      refine .bind (updateBackend_only fun hlt s => hwrite b hb ifindex s hlt) fun answer => ?_
      cases answer with
      | none => exact .pure _
      | some errno => exact failErrno_only _ _
    exact hbody e
  have hstale : Writes e R (retireStaleBackends keys conf) := by
    refine Triple.forEach (J := fun _ _ => True) _ fun done id rest hids => hretire id ?_
    have hmem : id ∈ List.range' 1 (maxBackends - 1) := by simp [hids]
    rw [List.mem_range'_1] at hmem
    simp only [maxBackends] at *
    omega
  refine Triple.bind hopen fun _ => Triple.bind (readVipBaseline_only e) fun baseline => ?_
  have halloc : Only R (allocateVipNums conf baseline) :=
    .ite (fail_only _) (.ite (fail_only _) (.pure _))
  refine Triple.bind (halloc e) fun result => ?_
  refine Triple.bind (removeStaleVipKeys_only baseline (fun _ _ => hother _ _ rfl) e) fun _ => ?_
  refine Triple.bind (readOldAclLists_only e) fun old => ?_
  refine Triple.bind (hconfig _ _) fun _ => Triple.bind ?_ fun _ =>
    Triple.bind (hconfig _ _) fun _ => Only.pure _ e
  refine Triple.bind (applyAside_only (fun s t h => hother s t h.backends) e) fun want => ?_
  refine Triple.bind hbackends fun _ => Triple.bind (Only.forEach (fun i => ?_) _ e) fun _ => ?_
  · cases (conf.withNums result.num).vips[i]? with
    | none => exact .pure _
    | some vip =>
        exact writeVip_only (fun _ _ _ => hother _ _ rfl) fun _ _ _ _ _ => hother _ _ rfl
  refine Triple.bind (releaseStaleVipBlocks_only _ (fun _ _ _ _ _ => hother _ _ rfl) e) fun _ => ?_
  exact Triple.bind hstale fun _ => removeStaleTxPorts_only want (fun _ _ => hother _ _ rfl) e

/-- A slot outside the file stays as it is, whatever it held. -/
theorem reconcileApply_slotMissed {S : Type} [LinearOrder S] (score : UInt64 → Nat → S)
    (hkeys : keys.Sound) (hmisses : RetireMisses e keys)
    (hvalid : ∀ b ∈ conf.backends, b.id < maxBackends) {id : Nat}
    (hno : ∀ b ∈ conf.backends, b.id ≠ id) (n : Nat) (start : Maps) :
    (reconcileApply score keys conf e n start).store.backends id = start.backends id := by
  let Same : Maps → Maps → Prop := fun s t => t.backends id = s.backends id
  have hwrites : Writes e Same (reconcileApply score keys conf) := by
    refine reconcileApply_writes score (fun s t h => ?_) (fun b hb ifindex s hlt => ?_)
      fun id hid => retireBackend_misses hmisses hid
    · change t.backends id = s.backends id
      rw [h]
    · have hkey := (hkeys.ofConf b (hvalid b hb)).resolve_right (Nat.not_le.mpr hlt)
      rw [hkey]
      exact Function.update_of_ne (hno b hb).symm _ _
  have hmeets := hwrites n start trivial
  have hstep : ∀ s t, Same s t → s.backends id = start.backends id →
      t.backends id = start.backends id := fun s t hst hs => hst.trans hs
  exact (hmeets.linked.invariant hmeets.steps hstep rfl).1

end

end Marlin
