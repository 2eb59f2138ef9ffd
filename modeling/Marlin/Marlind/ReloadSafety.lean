import Marlin.Marlind.ReconcileWhole

/-!
# Safety of a reload

What the datapath can see while `reconcile_apply` runs, after each single write
and wherever the run may have been stopped.
-/

namespace Marlin

open Marlin.Library

/-! ## A small deployment -/

namespace Sample

def key : VipKey := ⟨⟨⟨192, 0, 2, 1⟩, 0, 0, 0⟩, ⟨0, 80⟩, ipprotoTcp, afInet⟩

def otherKey : VipKey := ⟨⟨⟨192, 0, 2, 2⟩, 0, 0, 0⟩, ⟨0, 80⟩, ipprotoTcp, afInet⟩

def iface : CBuf := [101, 116, 104, 48]

def backend (addr : Be32) (egress : CBuf) : ConfBackend where
  name := [98]
  id := 5
  egress := egress
  hasEgress := !egress.isEmpty
  macStated := false
  fibStated := false
  fibValue := false
  vniStated := false
  innerMacStated := false
  abi := { (0 : Backend) with addr := addr, flags := marlinBeFState }

def vip (keys : List VipKey) (members : List ConfMember) : ConfVip where
  keys := keys
  vipMeta := ⟨vipAllocNumUnset, 0, Vector.replicate 16 0⟩
  tableSeed := Vector.replicate 16 0
  members := members

def conf (backends : List ConfBackend) (vips : List ConfVip) : MarlinConf where
  inst := ⟨iface, 0, [], [], false, 0, [], true, 1514⟩
  acl := ⟨false, [], [], [], []⟩
  ratelimit := ⟨false, 0, 0⟩
  backends := backends
  vips := vips

def nametoindex (_ : CBuf) : Nat := 2

def calmEnv : Env where
  mapFd _ := .opened
  readFault _ _ := none
  writeFault _ := none
  deleteFault _ := none
  oom _ := false
  nametoindex _ := nametoindex
  socket _ := none
  mtu _ _ := .ok 1500
  slot _ := 0
  stack _ := 0
  strerror _ := "Input/output error"

def faultyEnv (n : Nat) : Env :=
  { calmEnv with
    writeFault := fun k => if n ≤ k then some ⟨⟨5⟩, 1⟩ else none
    deleteFault := fun k => if n ≤ k then some ⟨5⟩ else none }

theorem calmEnv_calm : calmEnv.Calm :=
  ⟨fun _ => rfl, fun _ _ => rfl, fun _ => rfl, fun _ => rfl, fun _ => rfl⟩

theorem calmEnv_honest : calmEnv.Honest :=
  ⟨fun _ _ h => by simp [calmEnv] at h, fun _ _ h => by simp [calmEnv] at h⟩

theorem faultyEnv_honest (n : Nat) : (faultyEnv n).Honest := by
  refine ⟨fun _ _ h => by simp [faultyEnv, calmEnv] at h, fun k fault h => ?_⟩
  simp only [faultyEnv] at h
  split at h
  · cases h
    decide
  · contradiction

def score (digest : UInt64) (_ : Nat) : Nat := digest.toNat

def maps : Maps :=
  { Maps.fresh with vipMap := AList.singleton key ⟨1, 0, Vector.replicate 16 0⟩ }

/-- What `conf_load` makes of a file that `conf_check` accepts on this host. -/
def load (parsed : MarlinConf) (canonical : ∀ key ∈ parsed.keys, key.Canonical)
    (flagged : ∀ b ∈ parsed.backends, ∃ mode ∈ confModes, ∃ up,
      b.abi.flags = parsedBackendFlags mode up)
    (accepted : (confCheck nametoindex parsed confDiagReset).ok = true) : LoadedConf :=
  ⟨parsed, nametoindex, confDiagReset, rfl, canonical, flagged, accepted⟩

def loaded : LoadedConf :=
  load (conf [backend ⟨10, 0, 0, 1⟩ []] [vip [key] [⟨[98], 0, 1⟩]])
    (by simp [MarlinConf.keys, conf, vip]; decide) (by decide) (by decide)

def egressLoaded : LoadedConf :=
  load (conf [backend ⟨10, 0, 0, 1⟩ iface] [vip [key] [⟨[98], 0, 1⟩]])
    (by simp [MarlinConf.keys, conf, vip]; decide) (by decide) (by decide)

def emptyLoaded : LoadedConf :=
  load (conf [] [vip [key] []])
    (by simp [MarlinConf.keys, conf, vip]; decide) (by decide) (by decide)

theorem fresh_readable : Maps.fresh.Readable :=
  ⟨by decide, fun b hb => by simp [Maps.baseline, Maps.fresh] at hb⟩

theorem fresh_keysCanonical : Maps.fresh.KeysCanonical :=
  fun _ _ h => by simp [Maps.fresh] at h

theorem loaded_unhindered_layout : Unhindered calmEnv .layout loaded.conf Maps.fresh :=
  ⟨calmEnv_calm, fresh_readable, fresh_keysCanonical, by decide, by decide, rfl, rfl, rfl, rfl,
    rfl, rfl, by decide, fun _ _ _ _ hlt => hlt⟩

end Sample

/-! ## Rows that kept addresses read -/

section

variable {S : Type} [LinearOrder S] (score : UInt64 → Nat → S)

theorem reconcileApply_meets {keys : BackendKeys} (hkeys : keys.Sound) {e : Env}
    (hhonest : e.Honest) {conf : MarlinConf} (hdistinct : conf.KeysDistinct)
    (hcanon : ∀ key ∈ conf.keys, key.Canonical) (start : Maps) (n : Nat) :
    (reconcileApply score keys conf e n start).Meets start
      (ReloadStep score (conf.assigned start)) (fun _ => ¬Unhindered e keys conf start)
      (fun out s => out = conf.assigned start ∧
        Reconciled score e keys (conf.assigned start) s) :=
  reconcileApply_triple hhonest hkeys hdistinct hcanon n start rfl

theorem reconcileApply_succeeds {keys : BackendKeys} (hkeys : keys.Sound) {e : Env}
    (hhonest : e.Honest) {conf : MarlinConf} (hdistinct : conf.KeysDistinct)
    (hcanon : ∀ key ∈ conf.keys, key.Canonical) {start : Maps} (n : Nat)
    (hfree : Unhindered e keys conf start) :
    (reconcileApply score keys conf e n start).result = some (conf.assigned start) := by
  have hmeets := reconcileApply_meets score hkeys hhonest hdistinct hcanon start n
  cases hresult : (reconcileApply score keys conf e n start).result with
  | none => exact absurd hfree (hmeets.stopped hresult)
  | some out => rw [(hmeets.finished out hresult).1]

theorem MarlinConf.assigned_keysDistinct {conf : MarlinConf} (h : conf.KeysDistinct)
    (start : Maps) : (conf.assigned start).KeysDistinct := by
  rwa [MarlinConf.KeysDistinct, MarlinConf.assigned_keys]

theorem MarlinConf.mem_assigned {conf : MarlinConf} (start : Maps) {vip : ConfVip}
    (hvip : vip ∈ conf.vips) : ∃ num, vip.withNum num ∈ (conf.assigned start).vips := by
  obtain ⟨i, hi⟩ := List.mem_iff_getElem?.mp hvip
  exact ⟨_, MarlinConf.mem_withNums.mpr ⟨i, vip, hi, rfl⟩⟩

theorem AliasSafe.of_assigned {conf : MarlinConf} {start mp : Maps}
    (h : AliasSafe score (conf.assigned start) start mp) : AliasSafe score conf start mp := by
  intro vip hvip key hkey
  obtain ⟨num, hvip'⟩ := MarlinConf.mem_assigned start hvip
  exact h (vip.withNum num) hvip' key hkey

/-- A write under a live kept address is a row generated for the address's owner. -/
def OwnRowsOnly (conf : MarlinConf) (s t : Maps) : Prop :=
  ∀ vip ∈ conf.vips, ∀ key ∈ vip.keys, ∀ vipMeta, s.vipMap.lookup key = some vipMeta →
    ∀ row < tableSize, t.fwdRow vipMeta.vipNum row ≠ s.fwdRow vipMeta.vipNum row →
      t.fwdRow vipMeta.vipNum row = genBlock score conf vip row

/--
At every moment of a reload a kept address reads, row by row, either the block it
read before the reload or the block generated for its own entry.
-/
theorem reconcileApply_aliasSafe {keys : BackendKeys} (hkeys : keys.Sound) {e : Env}
    (hhonest : e.Honest) {conf : MarlinConf} (hdistinct : conf.KeysDistinct)
    (hcanon : ∀ key ∈ conf.keys, key.Canonical) (start : Maps) (n : Nat) :
    ∀ step ∈ (reconcileApply score keys conf e n start).steps,
      AliasSafe score conf start step.1 ∧ AliasSafe score conf start step.2 ∧
        OwnRowsOnly score conf step.1 step.2 := by
  have hmeets := reconcileApply_meets score hkeys hhonest hdistinct hcanon start n
  have hdistinct' := MarlinConf.assigned_keysDistinct hdistinct start
  have hcanon' : ∀ key ∈ (conf.assigned start).keys, key.Canonical := by
    rwa [MarlinConf.assigned_keys]
  obtain ⟨-, hsafe⟩ := hmeets.linked.invariant hmeets.steps
    (fun s t hstep => ReloadStep.aliasSafe hdistinct' hcanon' hstep)
    (AliasSafe.refl score (conf.assigned start) start)
  intro step hstep
  refine ⟨(hsafe step hstep).1.of_assigned, (hsafe step hstep).2.of_assigned, ?_⟩
  intro vip hvip key hkey vipMeta hlive row hrow hchanged
  obtain ⟨num, hvip'⟩ := MarlinConf.mem_assigned start hvip
  have hown : key ∈ (vip.withNum num).keys := hkey
  have hgen := (hmeets.steps step hstep).changed_row hdistinct' hcanon' hvip' hown hlive hrow
    hchanged
  exact hgen

end

namespace Sample

def addrKey (n : UInt8) : VipKey := ⟨⟨⟨192, 0, 2, n⟩, 0, 0, 0⟩, ⟨0, 80⟩, ipprotoTcp, afInet⟩

/-- Two entries that have exchanged their second addresses. -/
def crossedConf : MarlinConf :=
  conf [backend ⟨10, 0, 0, 1⟩ []]
    [vip [addrKey 1, addrKey 2] [⟨[98], 0, 1⟩], vip [addrKey 3, addrKey 4] [⟨[98], 0, 1⟩]]

def crossedMaps : Maps :=
  { Maps.fresh with
    vipMap := [(1, 0), (4, 0), (3, 1), (2, 1)].foldl
      (fun table kv => table.update 0 (addrKey kv.1) ⟨kv.2, 0, Vector.replicate 16 0⟩)
      (∅ : Table VipKey VipMeta) }

end Sample

/-- The reload stops within the first block that it writes. -/
theorem reconcileApply_aliasSafe_stopped :
    (reconcileApply Sample.score .layout Sample.crossedConf (Sample.faultyEnv 21) 0
      Sample.crossedMaps).result.isNone = true ∧
    ∀ step ∈ (reconcileApply Sample.score .layout Sample.crossedConf (Sample.faultyEnv 21) 0
        Sample.crossedMaps).steps,
      AliasSafe Sample.score Sample.crossedConf Sample.crossedMaps step.1 ∧
        AliasSafe Sample.score Sample.crossedConf Sample.crossedMaps step.2 ∧
        OwnRowsOnly Sample.score Sample.crossedConf step.1 step.2 :=
  ⟨by decide +kernel,
    reconcileApply_aliasSafe Sample.score BackendKeys.layout_sound (Sample.faultyEnv_honest 21)
      (by rw [MarlinConf.KeysDistinct]; decide) (by decide) Sample.crossedMaps 0⟩

/-! ## Slots that live rows name, over many reloads -/

structure ReconcileRun where
  env : Env
  loaded : LoadedConf

section

variable {S : Type} [LinearOrder S] (score : UInt64 → Nat → S)

def reconcileRuns (keys : BackendKeys) : Maps → List ReconcileRun → List (Maps × Maps)
  | _, [] => []
  | mp, run :: runs =>
      let outcome := reconcileApply score keys run.loaded.conf run.env 0 mp
      outcome.steps ++ reconcileRuns keys outcome.store runs

theorem reconcileApply_rowsPopulated {keys : BackendKeys} (hkeys : keys.Sound) {e : Env}
    (hhonest : e.Honest) (loaded : LoadedConf) {start : Maps} (hstart : start.KeysCanonical)
    (hrows : start.RowsPopulated) (n : Nat) :
    let outcome := reconcileApply score keys loaded.conf e n start
    (outcome.store.KeysCanonical ∧ outcome.store.RowsPopulated) ∧
      ∀ step ∈ outcome.steps, step.2.RowsPopulated := by
  have hmeets := reconcileApply_meets score hkeys hhonest loaded.checked.keys_distinct
    loaded.keysCanonical start n
  have hcanon : ∀ key ∈ (loaded.conf.assigned start).keys, key.Canonical := by
    rw [MarlinConf.assigned_keys]
    exact loaded.keysCanonical
  obtain ⟨hend, hall⟩ := hmeets.linked.invariant
    (I := fun s => s.KeysCanonical ∧ s.RowsPopulated) hmeets.steps
    (fun s t hstep hs => ⟨hstep.keysCanonical hcanon hs.1,
      hstep.rowsPopulated (loaded.checked.withNums _) hs.1 hs.2⟩) ⟨hstart, hrows⟩
  exact ⟨hend, fun step hstep => (hall step hstep).2.2⟩

theorem Maps.fresh_rowsPopulated : Maps.fresh.RowsPopulated := by
  rintro value ⟨key, vipMeta, row, hlookup, -⟩
  simp [Maps.fresh] at hlookup

/-- No write of any sequence of reconciles leaves a live row without its backend. -/
theorem reconcileRuns_rowsPopulated (runs : List ReconcileRun)
    (hhonest : ∀ run ∈ runs, run.env.Honest) {start : Maps} (hstart : start.KeysCanonical)
    (hrows : start.RowsPopulated) :
    ∀ step ∈ reconcileRuns score .byId start runs, step.2.RowsPopulated := by
  induction runs generalizing start with
  | nil => simp [reconcileRuns]
  | cons run runs ih =>
      obtain ⟨hrun, hrest⟩ := List.forall_mem_cons.mp hhonest
      obtain ⟨⟨hcanon, hpopulated⟩, hsteps⟩ := reconcileApply_rowsPopulated score
        BackendKeys.byId_sound hrun run.loaded hstart hrows 0
      intro step hstep
      rcases List.mem_append.mp hstep with hstep | hstep
      · exact hsteps step hstep
      · exact ih hrest hcanon hpopulated step hstep

end

theorem reconcileRuns_rowsPopulated_fresh :
    Maps.fresh.RowsPopulated ∧ ∀ step ∈ reconcileRuns Sample.score .byId Maps.fresh
        [⟨Sample.faultyEnv 25, Sample.loaded⟩, ⟨Sample.calmEnv, Sample.emptyLoaded⟩],
      step.2.RowsPopulated :=
  ⟨Maps.fresh_rowsPopulated, reconcileRuns_rowsPopulated Sample.score _
    (by simp [Sample.faultyEnv_honest, Sample.calmEnv_honest])
    Sample.fresh_keysCanonical Maps.fresh_rowsPopulated⟩

/-! ## Where the backends are written -/

/--
The key of every backend denotes its own slot, and a reconcile that goes through
leaves the backend's value there.
-/
def WrittenInPlace (loaded : LoadedConf) : Prop :=
  (∀ b ∈ loaded.conf.backends, BackendKeys.layout.ofConf b = b.id) ∧
  ∀ (S : Type) [LinearOrder S] (score : UInt64 → Nat → S) (e : Env) (start : Maps) (n : Nat),
    e.Honest →
    (reconcileApply score .layout loaded.conf e n start).result.isSome = true →
    ∀ b ∈ loaded.conf.backends, ∃ ifindex,
      (reconcileApply score .layout loaded.conf e n start).store.backends b.id =
        backendValue b ifindex

def EgressClear (conf : MarlinConf) : Prop :=
  ∀ b ∈ conf.backends, b.egress.getD 0 0 = 0 ∧ b.egress.getD 1 0 = 0

theorem layout_ofConf_eq_iff {b : ConfBackend} (hid : b.id < maxBackends) :
    BackendKeys.layout.ofConf b = b.id ↔ b.egress.getD 0 0 = 0 ∧ b.egress.getD 1 0 = 0 := by
  have hzero : ∀ byte : UInt8, byte = 0 ↔ byte.toNat = 0 := fun byte => by
    rw [← UInt8.toNat_inj]
    rfl
  rw [hzero, hzero]
  simp only [BackendKeys.layout, maxBackends] at *
  omega

/-- Backends are written where the datapath reads them exactly when no egress is stated. -/
theorem writtenInPlace_iff (loaded : LoadedConf) :
    WrittenInPlace loaded ↔ EgressClear loaded.conf := by
  have hkey : ∀ b ∈ loaded.conf.backends, (BackendKeys.layout.ofConf b = b.id ↔ _) :=
    fun b hb => layout_ofConf_eq_iff (loaded.checked.id_lt b hb)
  constructor
  · intro h b hb
    exact (hkey b hb).mp (h.1 b hb)
  · intro h
    refine ⟨fun b hb => (hkey b hb).mpr (h b hb), ?_⟩
    intro S _ score e start n hhonest hsome b hb
    have hmeets := reconcileApply_meets score BackendKeys.layout_sound hhonest
      loaded.checked.keys_distinct loaded.keysCanonical start n
    obtain ⟨out, hout⟩ := Option.isSome_iff_exists.mp hsome
    have hvalid : (loaded.conf.assigned start).IdsValid :=
      ⟨loaded.checked.id_lt, loaded.checked.ids_nodup⟩
    exact (hmeets.finished out hout).2.applied.filled hvalid b hb

theorem not_writtenInPlace_egress : ¬WrittenInPlace Sample.egressLoaded := by
  intro h
  have hkey := h.1 (settleFib (Sample.backend ⟨10, 0, 0, 1⟩ Sample.iface)) (by decide)
  exact absurd hkey (by decide)

end Marlin
