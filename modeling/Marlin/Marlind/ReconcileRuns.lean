import Marlin.Marlind.ConfSound
import Marlin.Marlind.ReloadSafety
import Marlin.Marlind.VipAllocValid

/-!
# Reconciles of accepted configurations

Accepted configurations are always allocated blocks, whatever `vip_map` earlier attempts
have left behind, and every attempt leaves maps that the next one can start from.
-/

namespace Marlin

open Marlin.Library Marlin.Library.Table

/-! ## Allocation -/

theorem Maps.baseline_keys (mp : Maps) :
    mp.baseline.map VipAllocBaseline.key = mp.vipMap.keys := by
  simp [Maps.baseline, AList.keys, List.keys]

namespace MarlinConf.Accepted

variable {conf : MarlinConf} (h : conf.Accepted) {start : Maps}

include h

theorem vips_length : conf.vips.length ≤ maxVips := by
  refine Nat.le_trans ?_ h.valid.key_count
  rw [MarlinConf.keys, List.length_flatMap]
  have hone : ∀ n ∈ conf.vips.map fun vip => vip.keys.length, 1 ≤ n := by
    intro n hn
    obtain ⟨vip, hvip, rfl⟩ := List.mem_map.mp hn
    exact List.length_pos_iff.mpr (h.keys_nonempty vip hvip)
  have hsum := List.length_le_sum_of_one_le _ hone
  simpa using hsum

theorem allocValid (hstart : start.VipBounded) :
    VipAllocValid (conf.vips.map ConfVip.keys) start.baseline := by
  have hcanon : ∀ b ∈ start.baseline, b.key.Canonical := by
    intro b hb
    obtain ⟨vipMeta, hlookup, -⟩ := Maps.mem_baseline.mp hb
    exact hstart.canonical b.key vipMeta hlookup
  refine ⟨?_, ?_, ?_, ?_, ?_, hstart.readable.num_lt⟩
  · intro keys hkeys
    obtain ⟨vip, hvip, rfl⟩ := List.mem_map.mp hkeys
    exact h.keys_nonempty vip hvip
  · rw [← List.flatMap_def]
    exact h.valid.keys_distinct
  · rw [← List.flatMap_def]
    exact h.valid.key_count
  · have hlen := hstart.readable.count
    rwa [← Maps.baseline_keys, List.length_map] at hlen
  · have hnodup := start.vipMap.keys_nodup
    rw [← Maps.baseline_keys] at hnodup
    apply (List.pairwise_map.mp hnodup).imp_of_mem
    intro a b ha hb hne
    rw [Bool.eq_false_iff]
    exact fun heq => hne ((vipKeyEq_iff (hcanon a ha) (hcanon b hb)).mp heq)

theorem fair (hstart : start.VipBounded) :
    VipAllocFair (conf.vips.map ConfVip.keys) start.baseline :=
  (h.allocValid hstart).fair

theorem allocates (hstart : start.VipBounded) :
    (vipAlloc (conf.vips.map ConfVip.keys) start.baseline).ok = true :=
  vipAlloc_complete (h.fair hstart)

end MarlinConf.Accepted

/-! ## Histories -/

/-- Maps that a reconcile can start from. -/
structure Maps.Bounded (mp : Maps) : Prop where
  vips : mp.VipBounded
  aside : mp.AsideBounded

theorem Maps.fresh_bounded : Maps.fresh.Bounded where
  vips :=
    { canonical := fun _ _ h => by simp [Maps.fresh] at h
      readable := ⟨by decide, fun b hb => by simp [Maps.baseline, Maps.fresh] at hb⟩ }
  aside := ⟨by decide, by decide, by decide, by decide, by decide⟩

/-- One call of `reconcile_apply`, run to its end or to wherever it stops. -/
structure Attempt where
  env : Env
  conf : MarlinConf
  accepted : conf.Accepted

section

variable {S : Type} [LinearOrder S] (score : UInt64 → Nat → S)

def afterAttempts (keys : BackendKeys) : Maps → List Attempt → Maps
  | mp, [] => mp
  | mp, attempt :: rest =>
      afterAttempts keys (reconcileApply score keys attempt.conf attempt.env 0 mp).store rest

theorem afterAttempts_one (keys : BackendKeys) (mp : Maps) (attempt : Attempt) :
    afterAttempts score keys mp [attempt] =
      (reconcileApply score keys attempt.conf attempt.env 0 mp).store := rfl

variable {keys : BackendKeys} (hkeys : keys.Sound) {conf : MarlinConf} (hconf : conf.Accepted)

include hkeys hconf

theorem MarlinConf.Accepted.meets (e : Env) (n : Nat) (start : Maps) :
    (reconcileApply score keys conf e n start).Meets start
      (ReconcileStep score e.Honest conf (conf.assigned start))
      (fun _ => ¬Feasible e keys conf start)
      (fun out s => (e.Honest → out = conf.assigned start ∧
        Reconciled score e keys (conf.assigned start) s) ∧ AsideDone e conf start s) :=
  reconcileApply_whole hkeys hconf.keysDistinct hconf.keysCanonical n start rfl

theorem MarlinConf.Accepted.bounded (e : Env) (n : Nat) {start : Maps} (hstart : start.Bounded) :
    (reconcileApply score keys conf e n start).store.Bounded := by
  have hmeets := hconf.meets score hkeys e n start
  exact (hmeets.linked.invariant hmeets.steps
    (fun s t hst hs => ⟨hst.vips hs.vips, hst.aside.bounded hs.aside⟩) hstart).1

theorem MarlinConf.Accepted.returns (e : Env) (n : Nat) {start : Maps}
    (hfeasible : Feasible e keys conf start) :
    (reconcileApply score keys conf e n start).result = some (conf.assigned start) := by
  have hmeets := hconf.meets score hkeys e n start
  cases hresult : (reconcileApply score keys conf e n start).result with
  | none => exact absurd hfeasible (hmeets.stopped hresult)
  | some out => rw [((hmeets.finished out hresult).1 hfeasible.smooth.honest).1]

end

theorem afterAttempts_bounded {S : Type} [LinearOrder S] (score : UInt64 → Nat → S)
    {keys : BackendKeys} (hkeys : keys.Sound) (attempts : List Attempt) {start : Maps}
    (hstart : start.Bounded) : (afterAttempts score keys start attempts).Bounded := by
  induction attempts generalizing start with
  | nil => exact hstart
  | cons attempt rest ih => exact ih (attempt.accepted.bounded score hkeys attempt.env 0 hstart)

def Maps.rules (mp : Maps) : AclList → AclFamily → Nat
  | .allow, .v4 => mp.aclAllowV4.keys.length
  | .block, .v4 => mp.aclBlockV4.keys.length
  | .allow, .v6 => mp.aclAllowV6.keys.length
  | .block, .v6 => mp.aclBlockV6.keys.length

theorem fits_acl {K : Type} [DecidableEq K] {want : ConfAclEntry → K}
    {entries : List ConfAclEntry} {old : Table K Nat} {n : Nat}
    (h : entries.length + old.keys.length ≤ n) : Fits old (aclPairs want entries) n := by
  apply fits_of_length
  simp only [aclPairs, List.length_map, List.length_zipIdx]
  omega

/-! ## A small deployment, from its file -/

namespace Sample

def fileToml (inst acl : List (String × Toml)) : Toml :=
  tomlTable [
    ("instance", tomlTable (("interface", tomlStr "eth0") :: inst)),
    ("acl", tomlTable (("enabled", .boolean true) :: acl)),
    ("backend", .array [tomlTable [("name", tomlStr "b1"), ("id", .int64 5),
      ("addr", tomlStr "10.0.0.1"), ("mode", tomlStr "ipip")]]),
    ("vip", .array [tomlTable [("addr", tomlStr "192.0.2.1"), ("port", .int64 80),
      ("proto", tomlStr "tcp"), ("acl", .boolean true),
      ("hash_key", tomlStr "000102030405060708090a0b0c0d0e0f"),
      ("table_seed", tomlStr "0f0e0d0c0b0a09080706050403020100"),
      ("members", .array [tomlTable [("backend", tomlStr "b1"), ("weight", .int64 1)]])]])]

def file (toml : Toml) (h : toml.size < 2 ^ 31) : ConfFile :=
  { confFile with toml := .ok ⟨toml, h⟩ }

/-- The configuration that the host loads from an acceptable file. -/
def loadFile (file : ConfFile)
    (h : (confLoad confHost file .full true confDiagReset).1.isSome = true) : MarlinConf :=
  (confLoad confHost file .full true confDiagReset).1.get h

theorem loadFile_eq (file : ConfFile)
    (h : (confLoad confHost file .full true confDiagReset).1.isSome = true) :
    (confLoad confHost file .full true confDiagReset).1 = some (loadFile file h) :=
  (Option.some_get h).symm

theorem loadFile_accepted (file : ConfFile)
    (h : (confLoad confHost file .full true confDiagReset).1.isSome = true) :
    (loadFile file h).Accepted :=
  ⟨confHost, file, true, loadFile_eq file h⟩

def tunnelSrc : String × Toml := ("tunnel_src", tomlStr "10.0.0.9")

def openConf : MarlinConf :=
  loadFile (file (fileToml [tunnelSrc] []) (by decide)) (by decide +kernel)

def blockConf : MarlinConf :=
  loadFile (file (fileToml [tunnelSrc] [("block", .array [tomlStr "10.9.0.0/16"])]) (by decide))
    (by decide +kernel)

theorem openConf_accepted : openConf.Accepted := loadFile_accepted _ _

theorem blockConf_accepted : blockConf.Accepted := loadFile_accepted _ _

theorem openConf_holds : openConf.acl = ⟨true, [], [], [], []⟩ ∧ openConf.inst.txPorts = [] ∧
    (∀ b ∈ openConf.backends, BackendKeys.layout.ofConf b < maxBackends) ∧
    ∃ b ∈ openConf.backends, encapMode b.abi.flags = marlinModeIpip := by
  decide +kernel

theorem blockConf_holds :
    blockConf.acl = ⟨true, [], [⟨16, ⟨⟨10, 9, 0, 0⟩, 0, 0, 0⟩⟩], [], []⟩ ∧
    blockConf.inst.txPorts = [] ∧
    ∀ b ∈ blockConf.backends, BackendKeys.layout.ofConf b < maxBackends := by
  decide +kernel

def readEnv (readFault : MapName → Nat → Option Errno) : Env := { calmEnv with readFault }

section

variable {readFault : MapName → Nat → Option Errno} (hvip : ∀ n, readFault .vipMap n = none)

include hvip

theorem readEnv_smooth : (readEnv readFault).Smooth :=
  ⟨fun _ => rfl, hvip, fun _ => rfl, fun _ => rfl, fun _ => rfl⟩

omit hvip in
theorem readEnv_derives (iface : CBuf) (answer : Option Nat)
    (h : (readEnv readFault).Derives iface answer) : answer = some 1514 := by
  obtain ⟨n, m, rfl⟩ := h
  rfl

theorem readEnv_feasible {conf : MarlinConf} (hconf : conf.Accepted)
    (hports : conf.inst.txPorts = [])
    (hkeys : ∀ b ∈ conf.backends, BackendKeys.layout.ofConf b < maxBackends) {start : Maps}
    (hstart : start.Bounded)
    (hfits : ∀ list family, (conf.acl.list list family).length + start.rules list family ≤
      maxAclEntries ∨ conf.acl.list list family = []) :
    Feasible (readEnv readFault) .layout conf start where
  smooth := readEnv_smooth hvip
  readable := hstart.vips.readable
  canonical := hstart.vips.canonical
  count := hconf.vips_length
  alloc := hconf.allocates hstart.vips
  frame := Or.inr (Or.inr fun h => by cases readEnv_derives _ _ h)
  resolves := by simp [hports]
  txPorts := by
    intro want hwant hne
    rw [hports] at hwant
    cases hwant
    exact absurd rfl hne
  allowV4 hne := fits_acl ((hfits .allow .v4).resolve_right hne)
  blockV4 hne := fits_acl ((hfits .block .v4).resolve_right hne)
  allowV6 hne := fits_acl ((hfits .allow .v6).resolve_right hne)
  blockV6 hne := fits_acl ((hfits .block .v6).resolve_right hne)
  ofConf := hkeys
  steady _ _ _ _ hlt := hlt

end

end Sample

end Marlin
