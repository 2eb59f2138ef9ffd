import Marlin.Marlind.ReconcileRuns

/-!
# What a reported success means

`reconcile_apply` returns true once every phase has gone through.  What that says about
the maps depends on how failing calls are read: a failing deletion that says "no such key"
and a failing enumeration pass for the end of the work.
-/

namespace Marlin

open Marlin.Library Marlin.Library.Table

/-! ## Complete application -/

def Maps.TrieFilled (mp : Maps) : AclList → AclFamily → Prop
  | .allow, .v4 => ∃ k, k ∈ mp.aclAllowV4
  | .block, .v4 => ∃ k, k ∈ mp.aclBlockV4
  | .allow, .v6 => ∃ k, k ∈ mp.aclAllowV6
  | .block, .v6 => ∃ k, k ∈ mp.aclBlockV6

/--
The maps hold the configuration and nothing else; `out` is the configuration with the
blocks that were assigned.
-/
structure WhollyApplied {S : Type} [LinearOrder S] (score : UInt64 → Nat → S) (e : Env)
    (conf out : MarlinConf) (mp : Maps) : Prop where
  placed : ∃ num, out = conf.withNums num
  keys : ∀ key, key ∈ mp.vipMap ↔ key ∈ conf.keys
  values : ∀ vip ∈ out.vips, ∀ key ∈ vip.keys, mp.vipMap.lookup key = some vip.vipMeta
  blocks : ∀ vip ∈ out.vips, ∀ row < tableSize, mp.fwdRow vip.vipMeta.vipNum row =
    fwdGenBlock score vip.tableSeed (genMembers out vip) row
  allowV4 : ∀ k, k ∈ mp.aclAllowV4 ↔ k ∈ conf.acl.allowV4.map wantAclV4
  blockV4 : ∀ k, k ∈ mp.aclBlockV4 ↔ k ∈ conf.acl.blockV4.map wantAclV4
  allowV6 : ∀ k, k ∈ mp.aclAllowV6 ↔ k ∈ conf.acl.allowV6.map wantAclV6
  blockV6 : ∀ k, k ∈ mp.aclBlockV6 ↔ k ∈ conf.acl.blockV6.map wantAclV6
  txPorts : ∃ want, e.Resolves conf.inst.txPorts want ∧ ∀ ifindex,
    ifindex ∈ mp.txPorts ↔ ifindex ∈ want
  bits : ∀ list family, mp.config.aclLists &&& aclListsBit list family ≠ 0 ↔
    mp.TrieFilled list family

section

variable {S : Type} [LinearOrder S] {score : UInt64 → Nat → S} {e : Env} {keys : BackendKeys}
  {conf placed : MarlinConf} {start mp : Maps}

theorem Synced.mem_iff {K : Type} [DecidableEq K] {D B : Prop} {old : Table K Nat}
    {want : ConfAclEntry → K} {entries : List ConfAclEntry} {n : Nat} {t : Table K Nat}
    (h : Synced D B old (aclPairs want entries) n t) (hd : D) (k : K) :
    k ∈ t ↔ k ∈ entries.map want := by
  rw [(h.holds hd).mem_iff, wanted_aclPairs]

theorem AsideDone.bits (h : AsideDone e conf start mp) (hcomplete : Complete e start)
    (list : AclList) (family : AclFamily) :
    mp.config.aclLists &&& aclListsBit list family ≠ 0 ↔ mp.TrieFilled list family := by
  obtain ⟨maxFrame, -, hvalue⟩ := h.config
  have hfilled : ∀ {K : Type} (t : Table K Nat) (want : ConfAclEntry → K)
      (entries : List ConfAclEntry), (∀ k, k ∈ t ↔ k ∈ entries.map want) →
      (entries ≠ [] ↔ ∃ k, k ∈ t) := by
    intro K t want entries hmem
    simp only [hmem]
    constructor
    · intro hne
      obtain ⟨entry, hentry⟩ := List.exists_mem_of_ne_nil _ hne
      exact ⟨_, List.mem_map_of_mem hentry⟩
    · rintro ⟨k, hk⟩ rfl
      cases hk
  have hbits : mp.config.aclLists = aclListsBits conf.acl := by
    rw [hvalue]
    rfl
  rw [hbits, aclListsBits_ne_zero]
  cases list <;> cases family
  · exact hfilled _ _ _ (h.allowV4.mem_iff hcomplete)
  · exact hfilled _ _ _ (h.allowV6.mem_iff hcomplete)
  · exact hfilled _ _ _ (h.blockV4.mem_iff hcomplete)
  · exact hfilled _ _ _ (h.blockV6.mem_iff hcomplete)

theorem Applied.mem_vipMap_iff (h : Applied score placed mp) (hcanon : mp.KeysCanonical)
    (key : VipKey) : key ∈ mp.vipMap ↔ key ∈ placed.keys := by
  rw [← AList.lookup_isSome, Option.isSome_iff_exists]
  constructor
  · rintro ⟨vipMeta, hlookup⟩
    obtain ⟨vip, hvip, hkey, -, -⟩ := h.settled key vipMeta (hcanon key vipMeta hlookup) hlookup
    exact List.mem_flatMap.mpr ⟨vip, hvip, hkey⟩
  · intro hkey
    obtain ⟨vip, hvip, hmem⟩ := List.mem_flatMap.mp hkey
    exact ⟨_, h.published vip hvip key hmem⟩

theorem Reconciled.whollyApplied (hfwd : Reconciled score e keys (conf.assigned start) mp)
    (haside : AsideDone e conf start mp) (hcomplete : Complete e start)
    (hcanon : mp.KeysCanonical) : WhollyApplied score e conf (conf.assigned start) mp where
  placed := ⟨_, rfl⟩
  keys key := by
    rw [hfwd.applied.mem_vipMap_iff hcanon, MarlinConf.assigned_keys]
  values := hfwd.applied.published
  blocks := hfwd.applied.rows
  allowV4 := haside.allowV4.mem_iff hcomplete
  blockV4 := haside.blockV4.mem_iff hcomplete
  allowV6 := haside.allowV6.mem_iff hcomplete
  blockV6 := haside.blockV6.mem_iff hcomplete
  txPorts := by
    obtain ⟨want, hwant, hholds, -⟩ := haside.txPorts
    refine ⟨want, hwant, fun ifindex => ?_⟩
    rw [(hholds hcomplete).mem_iff, wanted_txPairs]
  bits := haside.bits hcomplete

end

/--
A reconcile that returns has applied the whole configuration, where no enumeration of a
trie or of `tx_ports` fails and no failing call says that a key is missing.
-/
theorem reconcileApply_whollyApplied {S : Type} [LinearOrder S] (score : UInt64 → Nat → S)
    (attempts : List Attempt) {conf : MarlinConf} (hconf : conf.Accepted) {e : Env}
    (hhonest : e.Honest) (henum : e.Enumerates) (n : Nat) {out : MarlinConf} :
    let start := afterAttempts score .layout Maps.fresh attempts
    let run := reconcileApply score .layout conf e n start
    run.result = some out → WhollyApplied score e conf out run.store := by
  intro start run hout
  have hkeys := BackendKeys.layout_sound
  have hstart : start.Bounded := afterAttempts_bounded score hkeys attempts Maps.fresh_bounded
  have hmeets := hconf.meets score hkeys e n start
  obtain ⟨hfwd, haside⟩ := hmeets.finished out hout
  obtain ⟨rfl, hdone⟩ := hfwd hhonest
  exact hdone.whollyApplied haside ⟨henum, hstart.aside⟩
    (hconf.bounded score hkeys e n hstart).vips.canonical

namespace Sample

def blindEnv : Env := readEnv fun map _ => if map = .aclBlockV4 then some ⟨12⟩ else none

theorem blindEnv_blind : blindEnv.Blind .aclBlockV4 := by
  intro n h
  cases h

def blocked : List Attempt := [⟨calmEnv, blockConf, blockConf_accepted⟩]

def blockedMaps : Maps := afterAttempts score .layout Maps.fresh blocked

theorem blockedMaps_bounded : blockedMaps.Bounded :=
  afterAttempts_bounded score BackendKeys.layout_sound blocked Maps.fresh_bounded

theorem blockConf_feasible : Feasible calmEnv .layout blockConf Maps.fresh := by
  obtain ⟨hacl, hports, hkeys⟩ := blockConf_holds
  refine readEnv_feasible (fun _ => rfl) blockConf_accepted hports hkeys Maps.fresh_bounded
    fun list family => ?_
  rw [hacl]
  cases list <;> cases family <;> simp [ConfAcl.list, Maps.rules, Maps.fresh, maxAclEntries]

theorem mem_blockedMaps : wantAclV4 ⟨16, ⟨⟨10, 9, 0, 0⟩, 0, 0, 0⟩⟩ ∈ blockedMaps.aclBlockV4 := by
  have hkeys := BackendKeys.layout_sound
  have hmeets := blockConf_accepted.meets score hkeys calmEnv 0 Maps.fresh
  have hout := blockConf_accepted.returns score hkeys calmEnv 0 blockConf_feasible
  have hdone := (hmeets.finished _ hout).2
  have hmem := hdone.blockV4.mem_iff ⟨calmEnv_calm.enumerates, Maps.fresh_bounded.aside⟩
    (wantAclV4 ⟨16, ⟨⟨10, 9, 0, 0⟩, 0, 0, 0⟩⟩)
  rw [blockConf_holds.1] at hmem
  rw [blockedMaps, blocked, afterAttempts_one, hmem]
  exact List.mem_singleton_self _

theorem openConf_feasible {readFault : MapName → Nat → Option Errno}
    (hvip : ∀ n, readFault .vipMap n = none) {start : Maps} (hstart : start.Bounded) :
    Feasible (readEnv readFault) .layout openConf start := by
  obtain ⟨hacl, hports, hkeys, -⟩ := openConf_holds
  refine readEnv_feasible hvip openConf_accepted hports hkeys hstart fun list family => Or.inr ?_
  rw [hacl]
  cases list <;> cases family <;> rfl

end Sample

theorem reconcileApply_whollyApplied_open :
    ∃ out, (reconcileApply Sample.score .layout Sample.openConf Sample.calmEnv 0
        Sample.blockedMaps).result = some out ∧
      WhollyApplied Sample.score Sample.calmEnv Sample.openConf out
        (reconcileApply Sample.score .layout Sample.openConf Sample.calmEnv 0
          Sample.blockedMaps).store := by
  have hout := Sample.openConf_accepted.returns Sample.score BackendKeys.layout_sound
    Sample.calmEnv 0 (Sample.openConf_feasible (fun _ => rfl) Sample.blockedMaps_bounded)
  exact ⟨_, hout, reconcileApply_whollyApplied Sample.score Sample.blocked
    Sample.openConf_accepted Sample.calmEnv_honest Sample.calmEnv_calm.enumerates 0 hout⟩

/-- The rule that could not be enumerated stays, and the reconcile reports success. -/
theorem not_whollyApplied_blind :
    ¬∀ (attempts : List Attempt) (conf : MarlinConf), conf.Accepted → ∀ (e : Env) out,
      let start := afterAttempts Sample.score .layout Maps.fresh attempts
      let run := reconcileApply Sample.score .layout conf e 0 start
      run.result = some out → WhollyApplied Sample.score e conf out run.store := by
  intro h
  have hout := Sample.openConf_accepted.returns Sample.score BackendKeys.layout_sound
    Sample.blindEnv 0 (Sample.openConf_feasible (fun _ => rfl) Sample.blockedMaps_bounded)
  have happlied := h Sample.blocked Sample.openConf Sample.openConf_accepted Sample.blindEnv _ hout
  have hmeets := Sample.openConf_accepted.meets Sample.score BackendKeys.layout_sound
    Sample.blindEnv 0 Sample.blockedMaps
  have hgrown := (hmeets.finished _ hout).2.blockV4.blind Sample.blindEnv_blind
  have hmem := (happlied.blockV4 _).mp (hgrown.mem_iff.mpr (Or.inl Sample.mem_blockedMaps))
  rw [Sample.openConf_holds.1] at hmem
  cases hmem

/-! ## Tunnel parameters -/

def MarlinConf.Tunnels (conf : MarlinConf) : Prop :=
  ∃ b ∈ conf.backends, encapMode b.abi.flags ∈ [marlinModeIpip, marlinModeGue, marlinModeVxlan]

/-- The file states a tunnel parameter as zero, which the maps read as unset. -/
def ConfFile.StatesZero (file : ConfFile) : Prop :=
  ∃ doc, file.toml = .ok doc ∧
    (doc.toptab.StatesZeroFrame ∨ doc.toptab.StatesZeroTunnelSrc)

theorem MarlinConf.Tunnels.encapsulates {conf : MarlinConf} (h : conf.Tunnels)
    (hvalid : conf.Valid) : ∃ b ∈ conf.backends, b.abi.flags &&& marlinBeFEncapRequired ≠ 0 := by
  obtain ⟨b, hb, hmode⟩ := h
  refine ⟨b, hb, (hvalid.encapRequired b hb).mpr fun hplain => ?_⟩
  rw [hplain] at hmode
  exact absurd hmode (by decide)

theorem Env.Derives.ne_zero {e : Env} {iface : CBuf} {maxFrame : Nat}
    (h : e.Derives iface (some maxFrame)) : maxFrame ≠ 0 := by
  obtain ⟨n, m, h⟩ := h
  simp only [frameOf] at h
  split at h
  · split at h
    · cases h
    · cases h
      simp only [ethHlen] at *
      omega
  · cases h

theorem Env.Frames.eq_zero_iff {e : Env} {conf : MarlinConf} {maxFrame : Nat}
    (h : e.Frames conf maxFrame) (hencap : anyBackendEncapsulates conf = true) :
    maxFrame = 0 ↔ conf.inst.maxFrameSet = true ∧ conf.inst.maxFrame = 0 := by
  rw [Env.Frames] at h
  split at h
  · rename_i hset
    rw [h]
    exact ⟨fun hzero => ⟨hset, hzero⟩, fun hzero => hzero.2⟩
  · rename_i hunset
    rcases h with hderived | ⟨-, hplain, -⟩
    · exact ⟨fun hzero => absurd hzero hderived.ne_zero, fun hzero => absurd hzero.1 hunset⟩
    · rw [hencap] at hplain
      cases hplain

/--
With a tunnelling backend, a reconcile that returns has set both tunnel parameters exactly
when the file does not state one of them as zero.
-/
theorem tunnelParams_set_iff {S : Type} [LinearOrder S] (score : UInt64 → Nat → S)
    {host : ConfHost} {file : ConfFile} {enforce : Bool} {conf : MarlinConf}
    (hload : (confLoad host file .full enforce confDiagReset).1 = some conf)
    (htunnels : conf.Tunnels) (e : Env) (n : Nat) (start : Maps) {out : MarlinConf}
    (hout : (reconcileApply score .layout conf e n start).result = some out) :
    let written := (reconcileApply score .layout conf e n start).store.config
    written.maxFrame ≠ 0 ∧ written.tunnelSrc ≠ 0 ↔ ¬file.StatesZero := by
  have hconf : conf.Accepted := ⟨host, file, enforce, hload⟩
  obtain ⟨b, hb, hencap⟩ := htunnels.encapsulates hconf.valid
  have hany : anyBackendEncapsulates conf = true :=
    List.any_eq_true.mpr ⟨b, hb, by simpa using hencap⟩
  have hset := hconf.tunnelSrcSet hb hencap
  have hmeets := hconf.meets score BackendKeys.layout_sound e n start
  obtain ⟨maxFrame, hframe, hvalue⟩ := (hmeets.finished out hout).2.config
  obtain ⟨doc, diag, hdoc, -, -, -, hsettled⟩ := confLoad_doc hload
  obtain ⟨ifindex, hinst⟩ : ∃ ifindex,
      conf.inst = { (parseInstance doc.toptab).val with ifindex := ifindex } := by
    rw [hsettled]
    exact checkInstance_inst host.nametoindex _
  obtain ⟨hzeroFrame, hzeroSrc⟩ := parseInstance_states doc.toptab
  have hstates : file.StatesZero ↔
      doc.toptab.StatesZeroFrame ∨ doc.toptab.StatesZeroTunnelSrc := by
    rw [ConfFile.StatesZero, hdoc]
    simp
  intro written
  have hfirst : written.maxFrame = 0 ↔ doc.toptab.StatesZeroFrame := by
    have hlimit := hframe.eq_zero_iff hany
    rw [hinst, hzeroFrame] at hlimit
    simpa only [written, hvalue, configValue] using hlimit
  have hsecond : written.tunnelSrc = 0 ↔ doc.toptab.StatesZeroTunnelSrc := by
    rw [hinst] at hset
    have hsrc := hzeroSrc hset
    simpa only [written, hvalue, configValue, hinst] using hsrc
  rw [hstates, not_or, ne_eq, ne_eq, hfirst, hsecond]

theorem tunnelParams_set_iff_open :
    ∃ out, (reconcileApply Sample.score .layout Sample.openConf Sample.calmEnv 0
        Maps.fresh).result = some out ∧
      let written := (reconcileApply Sample.score .layout Sample.openConf Sample.calmEnv 0
        Maps.fresh).store.config
      (written.maxFrame ≠ 0 ∧ written.tunnelSrc ≠ 0 ↔
        ¬(Sample.file (Sample.fileToml [Sample.tunnelSrc] []) (by decide)).StatesZero) := by
  have hout := Sample.openConf_accepted.returns Sample.score BackendKeys.layout_sound
    Sample.calmEnv 0 (Sample.openConf_feasible (fun _ => rfl) Maps.fresh_bounded)
  obtain ⟨-, -, -, b, hb, hmode⟩ := Sample.openConf_holds
  refine ⟨_, hout, tunnelParams_set_iff Sample.score (Sample.loadFile_eq _ _)
    ⟨b, hb, ?_⟩ Sample.calmEnv 0 Maps.fresh hout⟩
  rw [hmode]
  decide

namespace Sample

def zeroFrameConf : MarlinConf :=
  loadFile (file (fileToml [tunnelSrc, ("max_frame", .int64 0)] []) (by decide))
    (by decide +kernel)

theorem zeroFrameConf_accepted : zeroFrameConf.Accepted := loadFile_accepted _ _

theorem zeroFrameConf_holds : zeroFrameConf.acl = ⟨true, [], [], [], []⟩ ∧
    zeroFrameConf.inst.txPorts = [] ∧
    (∀ b ∈ zeroFrameConf.backends, BackendKeys.layout.ofConf b < maxBackends) ∧
    (∃ b ∈ zeroFrameConf.backends, encapMode b.abi.flags = marlinModeIpip) ∧
    zeroFrameConf.inst.maxFrameSet = true ∧ zeroFrameConf.inst.maxFrame = 0 := by
  decide +kernel

end Sample

theorem not_tunnelParams_set_zeroFrame :
    ¬∀ (host : ConfHost) (file : ConfFile) (enforce : Bool) (conf : MarlinConf),
      (confLoad host file .full enforce confDiagReset).1 = some conf → conf.Tunnels →
      ∀ (e : Env) (start : Maps) out,
        (reconcileApply Sample.score .layout conf e 0 start).result = some out →
        let written := (reconcileApply Sample.score .layout conf e 0 start).store.config
        written.maxFrame ≠ 0 ∧ written.tunnelSrc ≠ 0 := by
  intro h
  obtain ⟨hacl, hports, hkeys, ⟨b, hb, hmode⟩, hset, hzero⟩ := Sample.zeroFrameConf_holds
  have hfeasible : Feasible Sample.calmEnv .layout Sample.zeroFrameConf Maps.fresh := by
    refine Sample.readEnv_feasible (fun _ => rfl) Sample.zeroFrameConf_accepted hports hkeys
      Maps.fresh_bounded fun list family => Or.inr ?_
    rw [hacl]
    cases list <;> cases family <;> rfl
  have hout := Sample.zeroFrameConf_accepted.returns Sample.score BackendKeys.layout_sound
    Sample.calmEnv 0 hfeasible
  have htunnels : Sample.zeroFrameConf.Tunnels := ⟨b, hb, by rw [hmode]; decide⟩
  have hmeets := Sample.zeroFrameConf_accepted.meets Sample.score BackendKeys.layout_sound
    Sample.calmEnv 0 Maps.fresh
  obtain ⟨maxFrame, hframe, hvalue⟩ := (hmeets.finished _ hout).2.config
  rw [Env.Frames, if_pos hset, hzero] at hframe
  refine (h _ _ _ Sample.zeroFrameConf (Sample.loadFile_eq _ _) htunnels Sample.calmEnv
    Maps.fresh _ hout).1 ?_
  rw [hvalue]
  exact hframe

end Marlin
